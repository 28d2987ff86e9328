import NansOS.Mmu.Translation

/-! Owns the rights a page ends up with: the processor grants a right when all
four entries of the walk grant it. `mmuMapPage` gives an upper entry the flags
of the call that creates it and never changes them, so the rights of a page are
those of its own call and of the calls that first used its three upper
entries. -/

namespace NansOS.Mmu

open NansOS.Foundation
open NansOS.Foundation.Words
open NansOS.Kernel

/-- The entries at the four levels of the walk for `virt`, and-ed. -/
def rights (machine : Machine) (virt : UInt64) : UInt64 :=
  let pml4e := entry machine machine.cr3 (pml4Idx virt)
  let pdpe := entry machine (tableOf pml4e) (pdpIdx virt)
  let pde := entry machine (tableOf pdpe) (pdIdx virt)
  let pte := entry machine (tableOf pde) (ptIdx virt)
  pml4e &&& pdpe &&& pde &&& pte

/-- The paths of the three upper entries of a page. -/
def upperPaths (virt : UInt64) : List Path := [pml4Path virt, pdpPath virt, pdPath virt]

/-- The first call whose page lies under an upper entry. -/
def creator (calls : List MapCall) (path : Path) : Option MapCall :=
  calls.find? fun call => path ∈ upperPaths call.virt

/-- The flags an upper entry is created with: the boot loader's present and
writable for the first PML4 entry, otherwise those of its first call. -/
def creatorFlags (calls : List MapCall) (path : Path) : UInt64 :=
  if path = [0] then 3 else ((creator calls path).map MapCall.flags).getD 0

/-! ### One call -/

theorem Ensured.flags {machine ensured : Machine} {path : Path} {flags bits : UInt64}
    (effect : Ensured machine ensured path flags) (pages : machine.nextFreePage.toNat % 4096 = 0)
    (part : 0xFFF &&& bits = bits) :
    valueAt ensured path &&& bits =
      if valueAt machine path &&& pagePresent = 0 then flags &&& bits
      else valueAt machine path &&& bits := by
  rw [effect.values]
  by_cases absent : valueAt machine path &&& pagePresent = 0
  · rw [if_pos ⟨rfl, absent⟩, if_pos absent, or_and_flag pages part]
  · rw [if_neg fun both => absent both.2, if_neg absent]

namespace Maps

variable {machine mapped : Machine} {phys virt flags bits : UInt64}

/-- The flags of the upper entries after a call. -/
theorem upper_flags (maps : Maps machine mapped phys virt flags) (tree : TableTree machine)
    (part : 0xFFF &&& bits = bits) {path : Path} (shallow : path.length < 4) :
    valueAt mapped path &&& bits =
      if path ∈ upperPaths virt ∧ valueAt machine path &&& pagePresent = 0 then flags &&& bits
      else valueAt machine path &&& bits := by
  obtain ⟨withPdp, withPd, withPt, first, second, third, written⟩ := maps.steps
  rw [written.values, if_neg (Path.ne_of_length (by simp; omega))]
  by_cases atPd : path = pdPath virt
  · have before : valueAt withPd (pdPath virt) = valueAt machine (pdPath virt) := by
      rw [second.values_of_ne (Path.ne_of_length (by simp)),
        first.values_of_ne (Path.ne_of_length (by simp))]
    rw [atPd, third.flags second.tree.pages part, before]
    simp [upperPaths]
  rw [third.values_of_ne atPd]
  by_cases atPdp : path = pdpPath virt
  · have before : valueAt withPdp (pdpPath virt) = valueAt machine (pdpPath virt) :=
      first.values_of_ne (Path.ne_of_length (by simp))
    rw [atPdp, second.flags first.tree.pages part, before]
    simp [upperPaths]
  rw [second.values_of_ne atPdp]
  by_cases atPml4 : path = pml4Path virt
  · rw [atPml4, first.flags tree.pages part]
    simp [upperPaths]
  rw [first.values_of_ne atPml4, if_neg]
  simp [upperPaths, atPd, atPdp, atPml4]

theorem leaf_value (maps : Maps machine mapped phys virt flags) (page : UInt64) :
    valueAt mapped (ptPath page) =
      if pageNumber page = pageNumber virt then phys ||| flags
      else valueAt machine (ptPath page) := by
  obtain ⟨withPdp, withPd, withPt, first, second, third, written⟩ := maps.steps
  rw [written.values, third.values_of_ne (Path.ne_of_length (by simp)),
    second.values_of_ne (Path.ne_of_length (by simp)),
    first.values_of_ne (Path.ne_of_length (by simp))]
  simp only [ptPath_eq_iff]

end Maps

/-- The entries of a walk that goes all the way down. -/
theorem rights_eq {machine : Machine} {virt : UInt64}
    (present : ∀ path ∈ upperPaths virt, valueAt machine path &&& pagePresent ≠ 0)
    (plain : valueAt machine (pdPath virt) &&& pageHuge = 0) :
    rights machine virt =
      valueAt machine (pml4Path virt) &&& valueAt machine (pdpPath virt) &&&
        valueAt machine (pdPath virt) &&& valueAt machine (ptPath virt) := by
  unfold rights
  dsimp only
  rw [valueAt_pml4Path, valueAt_pdpPath (present _ (by simp [upperPaths])),
    valueAt_pdPath (present _ (by simp [upperPaths])),
    valueAt_ptPath (present _ (by simp [upperPaths])) plain]

/-! ### Runs -/

theorem upperPaths_congr {left right : UInt64} (same : pageNumber left = pageNumber right) :
    upperPaths left = upperPaths right := by
  obtain ⟨-, samePd⟩ := List.cons.inj (ptPath_eq_iff.mpr same)
  obtain ⟨-, samePdp⟩ := List.cons.inj samePd
  obtain ⟨-, samePml4⟩ := List.cons.inj samePdp
  change pdPath left = pdPath right at samePd
  change pdpPath left = pdpPath right at samePdp
  change pml4Path left = pml4Path right at samePml4
  rw [upperPaths, samePml4, samePdp, samePd, upperPaths]

theorem mem_of_mostRecent {calls : List MapCall} {virt : UInt64} {call : MapCall}
    (latest : mostRecent calls virt = some call) :
    call ∈ calls ∧ pageNumber call.virt = pageNumber virt := by
  have member := List.mem_of_getLast? latest
  simpa using List.mem_filter.mp member

/-- Once a page is mapped, its upper entries have creators. -/
theorem creatorFlags_present {calls : List MapCall} (good : ∀ call ∈ calls, call.Plain)
    {virt : UInt64} {call : MapCall} (latest : mostRecent calls virt = some call) {path : Path}
    (upper : path ∈ upperPaths virt) : creatorFlags calls path &&& pagePresent ≠ 0 := by
  unfold creatorFlags
  split_ifs with first
  · decide
  · obtain ⟨member, same⟩ := mem_of_mostRecent latest
    cases found : creator calls path with
    | none =>
        have unused := List.find?_eq_none.mp found call member
        rw [← upperPaths_congr same] at upper
        simp [upper] at unused
    | some maker => exact (good maker (List.mem_of_find?_eq_some found)).flags.present

theorem creator_append (calls : List MapCall) (call : MapCall) (path : Path) :
    creator (calls ++ [call]) path =
      (creator calls path).or (if path ∈ upperPaths call.virt then some call else none) := by
  unfold creator
  rw [List.find?_append]
  split_ifs with under
  · simp [under]
  · simp [under]

section Runs

variable {boot : Machine} {l4 l3 l2 l22 : UInt64}
variable (tables : BootTables boot l4 l3 l2 l22)

include tables

/-- An entry that the boot loader left empty has the flags of its creator, and
is absent as long as there is none. -/
theorem upper_flags_run {calls : List MapCall} (good : ∀ call ∈ calls, call.Plain)
    (high : ∀ call ∈ calls, ¬ LowPage call.virt) {path : Path} (shallow : path.length < 4)
    (empty : valueAt boot path = 0) {bits : UInt64} (part : 0xFFF &&& bits = bits) :
    valueAt (run mapCall boot calls) path &&& bits =
      ((creator calls path).map MapCall.flags).getD 0 &&& bits := by
  induction calls using List.reverseRecOn generalizing bits with
  | nil =>
      rw [run_nil, empty]
      rfl
  | append_singleton calls call inductionHypothesis =>
      have earlier : ∀ call ∈ calls, call.Plain := fun call member =>
        good call (by simp [member])
      have before := fun {bits : UInt64} (part : 0xFFF &&& bits = bits) =>
        inductionHypothesis earlier (fun call member => high call (by simp [member])) part
      have mapped := Mapped.run tables earlier
      rcases mapped.cases tables (good call (by simp)) with ⟨low, -⟩ | ⟨-, maps⟩
      · exact absurd low (high call (by simp))
      rw [run_append, creator_append]
      change valueAt (mapCall (run mapCall boot calls) call) path &&& bits = _
      rw [maps.upper_flags mapped.tree part shallow, before part, before (by decide)]
      cases found : creator calls path with
      | none => by_cases under : path ∈ upperPaths call.virt <;> simp [under]
      | some first =>
          have present : first.flags &&& pagePresent ≠ 0 :=
            (earlier first (List.mem_of_find?_eq_some found)).flags.present
          simp [present]

/-- Outside the low 2 GiB the boot loader left only the first PML4 entry. -/
theorem BootTables.upper_value {virt : UInt64} (high : ¬ LowPage virt) {path : Path}
    (upper : path ∈ upperPaths virt) :
    (path = [0] ∧ valueAt boot path = l3 ||| 3) ∨ (path ≠ [0] ∧ valueAt boot path = 0) := by
  simp only [upperPaths, List.mem_cons, List.not_mem_nil, or_false] at upper
  rcases upper with rfl | rfl | rfl
  · have reached : tableAt boot [] = some l4 := by
      rw [tableAt_nil, tables.root]
    rw [pml4Path, valueAt_cons reached, tables.pml4]
    by_cases first : slot 39 virt = 0
    · exact .inl ⟨by rw [first], if_pos first⟩
    · exact .inr ⟨by simp [first], if_neg first⟩
  · refine .inr ⟨Path.ne_of_length (by simp), ?_⟩
    by_contra nonzero
    exact high (tables.lowPage_of_reached
      (tableAt_pdpPath (tables.present_of_nonzero nonzero)))
  · refine .inr ⟨Path.ne_of_length (by simp), ?_⟩
    by_contra nonzero
    exact high (tables.lowPage_of_value nonzero)

theorem creatorFlags_run {calls : List MapCall} (good : ∀ call ∈ calls, call.Plain)
    (high : ∀ call ∈ calls, ¬ LowPage call.virt) {virt : UInt64} (highVirt : ¬ LowPage virt)
    {path : Path} (upper : path ∈ upperPaths virt) {bits : UInt64}
    (part : 0xFFF &&& bits = bits) :
    valueAt (run mapCall boot calls) path &&& bits = creatorFlags calls path &&& bits := by
  have shallow : path.length < 4 := by
    simp only [upperPaths, List.mem_cons, List.not_mem_nil, or_false] at upper
    rcases upper with rfl | rfl | rfl <;> simp
  have aligned := tables.aligned l3 (by simp)
  rcases tables.upper_value highVirt upper with ⟨first, linked⟩ | ⟨other, empty⟩
  · have nonzero : valueAt boot path ≠ 0 := by
      apply nonzero_of_flag pagePresent
      rw [linked, or_and_flag aligned (by decide)]
      decide
    rw [(Mapped.run tables good).kept path shallow nonzero, linked, or_and_flag aligned part,
      creatorFlags, if_pos first]
  · rw [upper_flags_run tables good high shallow empty part, creatorFlags, if_neg other]

/-- The entry of a page holds its most recent call. -/
theorem leaf_run {calls : List MapCall} (good : ∀ call ∈ calls, call.Plain)
    (high : ∀ call ∈ calls, ¬ LowPage call.virt) {virt : UInt64} {call : MapCall}
    (latest : mostRecent calls virt = some call) :
    valueAt (run mapCall boot calls) (ptPath virt) = call.phys ||| call.flags := by
  induction calls using List.reverseRecOn with
  | nil => cases latest
  | append_singleton calls last inductionHypothesis =>
      have earlier : ∀ call ∈ calls, call.Plain := fun call member =>
        good call (by simp [member])
      rcases (Mapped.run tables earlier).cases tables (good last (by simp)) with
        ⟨low, -⟩ | ⟨-, maps⟩
      · exact absurd low (high last (by simp))
      rw [run_append]
      change valueAt (mapCall (run mapCall boot calls) last) (ptPath virt) = _
      rw [mostRecent_append] at latest
      rw [maps.leaf_value]
      by_cases same : pageNumber last.virt = pageNumber virt
      · rw [if_pos same] at latest
        rw [if_pos same.symm, Option.some.inj latest]
      · rw [if_neg same] at latest
        rw [if_neg fun equal => same equal.symm]
        exact inductionHypothesis earlier (fun call member => high call (by simp [member]))
          latest

/-- The rights of a page: its own flags, cut down by those of the creators of
its upper entries. -/
theorem rights_run {calls : List MapCall} (good : ∀ call ∈ calls, call.Plain)
    (high : ∀ call ∈ calls, ¬ LowPage call.virt) {virt : UInt64} {call : MapCall}
    (latest : mostRecent calls virt = some call) {bits : UInt64} (part : 0xFFF &&& bits = bits) :
    rights (run mapCall boot calls) virt &&& bits =
      (creatorFlags calls (pml4Path virt) &&& creatorFlags calls (pdpPath virt) &&&
        creatorFlags calls (pdPath virt) &&& call.flags) &&& bits := by
  obtain ⟨member, same⟩ := mem_of_mostRecent latest
  have highVirt : ¬ LowPage virt := by
    have highCall := high call member
    unfold LowPage at highCall ⊢
    omega
  have upper : ∀ path ∈ upperPaths virt, ∀ {bits : UInt64}, 0xFFF &&& bits = bits →
      valueAt (run mapCall boot calls) path &&& bits = creatorFlags calls path &&& bits :=
    fun path inside _ => creatorFlags_run tables good high highVirt inside
  have plain : valueAt (run mapCall boot calls) (pdPath virt) &&& pageHuge = 0 := by
    by_contra huge
    exact highVirt ((Mapped.run tables good).plain virt huge)
  have present : ∀ path ∈ upperPaths virt,
      valueAt (run mapCall boot calls) path &&& pagePresent ≠ 0 := by
    intro path inside
    rw [upper path inside (by decide)]
    exact creatorFlags_present good latest inside
  have leaf : valueAt (run mapCall boot calls) (ptPath virt) &&& bits = call.flags &&& bits := by
    rw [leaf_run tables good high latest, or_and_flag (good call member).aligned part]
  rw [rights_eq present plain]
  exact and_congr_mask (and_congr_mask (and_congr_mask
    (upper _ (by simp [upperPaths]) part) (upper _ (by simp [upperPaths]) part))
    (upper _ (by simp [upperPaths]) part)) leaf

end Runs

/-- A user page mapped under a table made for kernel pages, and a writable one
under a table made for a read-only page. -/
def narrowCalls : List MapCall := [⟨0x5000, 0x80000000, 1⟩, ⟨0x6000, 0x80001000, 7⟩]

end NansOS.Mmu
