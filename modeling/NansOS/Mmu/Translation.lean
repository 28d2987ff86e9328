import NansOS.Mmu.Boot
import NansOS.Foundation.Run

/-! Owns the page tables as a map from virtual pages to frames over whole runs
of `mmuMapPage`: each page outside the low 2 GiB has the frame of the most
recent call for it, and the low 2 GiB stay identity mapped. `BootTables` says
what the boot loader leaves in memory, and `bootMachine` is shown to have it.
The bump pointer never wraps, because each new table is a new present entry
and there are fewer than `513 ^ 3` of those. -/

namespace NansOS.Mmu

open NansOS.Foundation
open NansOS.Foundation.Words
open NansOS.Kernel

/-! ### One call -/

namespace Maps

variable {machine mapped : Machine} {phys virt flags : UInt64}

/-- Upper entries that were present are kept. -/
theorem values_of_present (maps : Maps machine mapped phys virt flags) {path : Path}
    (shallow : path.length < 4) (present : valueAt machine path &&& pagePresent ≠ 0) :
    valueAt mapped path = valueAt machine path := by
  obtain ⟨withPdp, withPd, withPt, first, second, third, written⟩ := maps.steps
  have afterFirst := first.values_of_present present
  rw [← afterFirst] at present
  have afterSecond := second.values_of_present present
  rw [← afterSecond] at present
  have afterThird := third.values_of_present present
  rw [written.values, if_neg (Path.ne_of_length (by simp; omega)), afterThird, afterSecond,
    afterFirst]

theorem tree (maps : Maps machine mapped phys virt flags) : TableTree mapped := by
  obtain ⟨_, _, _, _, _, _, written⟩ := maps.steps
  exact written.tree

/-- No page directory entry becomes huge. -/
theorem plain_kept (maps : Maps machine mapped phys virt flags) (tree : TableTree machine)
    (good : PlainFlags flags) {path : Path} (shallow : path.length < 4)
    (before : valueAt machine path &&& pageHuge = 0) :
    valueAt mapped path &&& pageHuge = 0 := by
  obtain ⟨withPdp, withPd, withPt, first, second, third, written⟩ := maps.steps
  rw [written.values, if_neg (Path.ne_of_length (by simp; omega))]
  exact third.plain second.tree.pages good.plain
    (second.plain first.tree.pages good.plain (first.plain tree.pages good.plain before))

/-- A call gives its page the frame and changes no other translation. -/
theorem translate_eq (maps : Maps machine mapped phys virt flags) (tree : TableTree machine)
    (good : PlainFlags flags) (aligned : phys.toNat % 4096 = 0) (page : UInt64) :
    translate mapped page =
      if pageNumber page = pageNumber virt then some phys else translate machine page := by
  obtain ⟨withPdp, withPd, withPt, first, second, third, written⟩ := maps.steps
  have plainPd : valueAt withPd (pdPath virt) &&& pageHuge = 0 := by
    rw [second.values_of_ne (Path.ne_of_length (by simp)),
      first.values_of_ne (Path.ne_of_length (by simp))]
    exact maps.plain
  have upper : translate withPt page = translate machine page := by
    rw [third.translate_eq (by simp) second.tree.pages good.plain (fun _ => plainPd),
      second.translate_eq (by simp) first.tree.pages good.plain (by simp),
      first.translate_eq (by simp) tree.pages good.plain (by simp)]
  have kept : ∀ path : Path, path.length < 4 → valueAt mapped path = valueAt withPt path := by
    intro path shallow
    rw [written.values, if_neg (Path.ne_of_length (by simp; omega))]
  rw [← upper, translate_eq_walk, translate_eq_walk]
  by_cases same : ptPath page = ptPath virt
  · rw [if_pos (ptPath_eq_iff.mp same)]
    obtain ⟨-, samePd⟩ := List.cons.inj same
    obtain ⟨-, samePdp⟩ := List.cons.inj samePd
    obtain ⟨-, samePml4⟩ := List.cons.inj samePdp
    have firstPresent := first.present tree.pages good.present
    have secondPresent := second.present first.tree.pages good.present
    have thirdPresent := third.present second.tree.pages good.present
    rw [← second.values_of_present firstPresent] at firstPresent
    rw [← third.values_of_present firstPresent] at firstPresent
    rw [← third.values_of_present secondPresent] at secondPresent
    have thirdPlain := third.plain second.tree.pages good.plain plainPd
    have leaf : valueAt mapped (ptPath virt) = phys ||| flags := by
      rw [written.values, if_pos rfl]
    have leafPresent : (phys ||| flags) &&& pagePresent ≠ 0 := by
      rw [or_and_flag aligned (by decide)]
      exact good.present
    unfold walk
    rw [same, samePd, samePdp, samePml4, kept _ (by simp), kept _ (by simp), kept _ (by simp),
      leaf, if_neg firstPresent, if_neg secondPresent, if_neg (not_not_intro thirdPlain),
      if_neg thirdPresent, if_neg leafPresent, tableOf_or aligned good.small]
  · rw [if_neg fun equal => same (ptPath_eq_iff.mpr equal)]
    have leaf : valueAt mapped (ptPath page) = valueAt withPt (ptPath page) := by
      rw [written.values, if_neg same]
    simp only [walk, leaf, kept (pml4Path page) (by simp), kept (pdpPath page) (by simp),
      kept (pdPath page) (by simp)]

end Maps

/-! ### The bump pointer -/

/-- Every page taken is a table that some present upper entry links. -/
def Counted (machine : Machine) : Prop :=
  ∃ paths : Finset Path,
    (∀ path ∈ paths, path.length ≤ 3 ∧ valueAt machine path &&& pagePresent ≠ 0) ∧
      machine.nextFreePage.toNat ≤ 0x400000 + 4096 * paths.card

theorem Counted.room {machine : Machine} (counted : Counted machine) :
    machine.nextFreePage.toNat + 3 * 4096 < 2 ^ 64 := by
  obtain ⟨paths, upper, bound⟩ := counted
  have few := Radix.card_le_of_length_le paths fun path member => (upper path member).1
  rw [Fintype.card_fin] at few
  omega

theorem Ensured.counted {machine ensured : Machine} {path : Path} {flags : UInt64}
    (effect : Ensured machine ensured path flags) (counted : Counted machine)
    (pages : machine.nextFreePage.toNat % 4096 = 0) (flagPresent : flags &&& pagePresent ≠ 0)
    (shallow : path.length ≤ 3) : Counted ensured := by
  by_cases absent : valueAt machine path &&& pagePresent = 0
  · obtain ⟨paths, upper, bound⟩ := counted
    have new : path ∉ paths := fun member => (upper path member).2 absent
    have page := effect.page absent
    refine ⟨insert path paths, fun other member => ?_, ?_⟩
    · rcases Finset.mem_insert.mp member with here | old
      · rw [here]
        exact ⟨shallow, effect.present pages flagPresent⟩
      · obtain ⟨short, present⟩ := upper other old
        rw [effect.values_of_present present]
        exact ⟨short, present⟩
    · rw [Finset.card_insert_of_notMem new]
      omega
  · rw [effect.kept absent]
    exact counted

theorem Maps.counted {machine mapped : Machine} {phys virt flags : UInt64}
    (maps : Maps machine mapped phys virt flags) (tree : TableTree machine)
    (good : PlainFlags flags) (counted : Counted machine) : Counted mapped := by
  obtain ⟨withPdp, withPd, withPt, first, second, third, written⟩ := maps.steps
  have afterFirst := first.counted counted tree.pages good.present (by simp)
  have afterSecond := second.counted afterFirst first.tree.pages good.present (by simp)
  obtain ⟨paths, upper, bound⟩ := third.counted afterSecond second.tree.pages good.present
    (by simp)
  refine ⟨paths, fun path member => ?_, ?_⟩
  · obtain ⟨short, present⟩ := upper path member
    rw [written.values, if_neg (Path.ne_of_length (by simp; omega))]
    exact ⟨short, present⟩
  · rw [written.page]
    exact bound

/-! ### Runs -/

/-- A call of `mmu_map_page`. -/
structure MapCall where
  phys : UInt64
  virt : UInt64
  flags : UInt64

/-- A call with a page-aligned frame and plain flags. -/
structure MapCall.Plain (call : MapCall) : Prop where
  aligned : call.phys.toNat % 4096 = 0
  flags : PlainFlags call.flags

instance (call : MapCall) : Decidable call.Plain :=
  decidable_of_iff (call.phys.toNat % 4096 = 0 ∧ PlainFlags call.flags)
    ⟨fun ⟨aligned, flags⟩ => ⟨aligned, flags⟩, fun good => ⟨good.aligned, good.flags⟩⟩

/-- One step of a mapping run. -/
def mapCall (machine : Machine) (call : MapCall) : Machine :=
  mmuMapPage machine call.phys call.virt call.flags

/-- The most recent call for the page of `virt`. -/
def mostRecent (calls : List MapCall) (virt : UInt64) : Option MapCall :=
  (calls.filter fun call => pageNumber call.virt = pageNumber virt).getLast?

theorem mostRecent_append (calls : List MapCall) (call : MapCall) (virt : UInt64) :
    mostRecent (calls ++ [call]) virt =
      if pageNumber call.virt = pageNumber virt then some call else mostRecent calls virt := by
  unfold mostRecent
  rw [List.filter_append]
  split_ifs with same
  · simp [same]
  · simp [same]

/-- What holds after any number of calls from the boot tables: the tree, the
bump pointer, and the boot loader's entries as they were; entries are huge
only in the low 2 GiB. -/
structure Mapped (boot machine : Machine) : Prop where
  tree : TableTree machine
  counted : Counted machine
  kept : ∀ path : Path, path.length < 4 → valueAt boot path ≠ 0 →
    valueAt machine path = valueAt boot path
  plain : ∀ virt, valueAt machine (pdPath virt) &&& pageHuge ≠ 0 → LowPage virt

section Runs

variable {boot machine : Machine} {l4 l3 l2 l22 : UInt64}

theorem BootTables.mapped (tables : BootTables boot l4 l3 l2 l22) : Mapped boot boot where
  tree := tables.tree
  counted := ⟨∅, by simp, by rw [tables.fresh]; decide⟩
  kept := fun _ _ _ => rfl
  plain := fun _ huge => tables.lowPage_of_value (nonzero_of_flag _ huge)

variable (tables : BootTables boot l4 l3 l2 l22)

include tables

/-- A low page ends in its huge entry in every state. -/
theorem Mapped.low_value (mapped : Mapped boot machine) {virt : UInt64} (low : LowPage virt) :
    valueAt machine (pdPath virt) = hugeEntry (slot 30 virt).val (slot 21 virt) := by
  rw [← tables.low_value low]
  refine mapped.kept _ (by simp) ?_
  rw [tables.low_value low]
  exact nonzero_of_flag _ (hugeEntry_huge low.half_le (slot 21 virt))

/-- A low page is mapped to itself in every state. -/
theorem Mapped.translate_low (mapped : Mapped boot machine) {virt : UInt64}
    (low : LowPage virt) :
    translate machine virt = some (UInt64.ofNat (4096 * pageNumber virt)) := by
  have value := mapped.low_value tables low
  have huge : valueAt machine (pdPath virt) &&& pageHuge ≠ 0 := by
    rw [value]
    exact hugeEntry_huge low.half_le _
  have abovePd := present_above (nonzero_of_flag _ huge)
  have abovePdp := present_above (nonzero_of_flag _ abovePd)
  change valueAt machine (pdpPath virt) &&& pagePresent ≠ 0 at abovePd
  change valueAt machine (pml4Path virt) &&& pagePresent ≠ 0 at abovePdp
  rw [translate_eq_walk, walk, if_neg abovePdp, if_neg abovePd, if_pos huge, value,
    hugeEntry_frame low.half_le]
  congr 2
  obtain ⟨first, second⟩ := lowPage_iff.mp low
  simp only [slot, Fin.ext_iff, pageNumber] at first second ⊢
  simp only [Fin.val_zero, Fin.val_one] at first second
  omega

/-- A call changes nothing for a low page, and maps any other. -/
theorem Mapped.cases (mapped : Mapped boot machine) {call : MapCall} (good : call.Plain) :
    (LowPage call.virt ∧ mapCall machine call = machine) ∨
      (¬ LowPage call.virt ∧
        Maps machine (mapCall machine call) call.phys call.virt call.flags) := by
  rcases mmuMapPage_cases mapped.tree good.flags mapped.counted.room call.phys call.virt with
    ⟨unchanged, skipped⟩ | maps
  · refine .inl ⟨?_, unchanged⟩
    rcases skipped with early | huge
    · have early : call.virt.toNat < 0x400000 := UInt64.lt_iff_toNat_lt.mp early
      unfold LowPage pageNumber
      omega
    · exact mapped.plain call.virt huge
  · refine .inr ⟨fun low => ?_, maps⟩
    have plain := maps.plain
    rw [mapped.low_value tables low] at plain
    exact hugeEntry_huge low.half_le _ plain

theorem Mapped.step (mapped : Mapped boot machine) {call : MapCall} (good : call.Plain) :
    Mapped boot (mapCall machine call) := by
  rcases mapped.cases tables good with ⟨-, unchanged⟩ | ⟨-, maps⟩
  · rw [unchanged]
    exact mapped
  · refine ⟨maps.tree, maps.counted mapped.tree good.flags mapped.counted, ?_, ?_⟩
    · intro path shallow nonzero
      have same := mapped.kept path shallow nonzero
      rw [← same]
      apply maps.values_of_present shallow
      rw [same]
      exact tables.present_of_nonzero nonzero
    · intro virt huge
      by_contra high
      refine huge (maps.plain_kept mapped.tree good.flags (by simp) ?_)
      by_contra before
      exact high (mapped.plain virt before)

/-- One call changes the translation of its own page only, and of no low page. -/
theorem Mapped.translate_step (mapped : Mapped boot machine) {call : MapCall}
    (good : call.Plain) (virt : UInt64) :
    translate (mapCall machine call) virt =
      if ¬ LowPage virt ∧ pageNumber call.virt = pageNumber virt then some call.phys
      else translate machine virt := by
  rcases mapped.cases tables good with ⟨low, unchanged⟩ | ⟨high, maps⟩
  · rw [unchanged, if_neg]
    rintro ⟨high, same⟩
    unfold LowPage at low high
    omega
  · rw [maps.translate_eq mapped.tree good.flags good.aligned]
    by_cases same : pageNumber virt = pageNumber call.virt
    · have highVirt : ¬ LowPage virt := by
        unfold LowPage at high ⊢
        omega
      rw [if_pos same, if_pos ⟨highVirt, same.symm⟩]
    · rw [if_neg same, if_neg fun both => same both.2.symm]

theorem Mapped.run {calls : List MapCall} (good : ∀ call ∈ calls, call.Plain) :
    Mapped boot (run mapCall boot calls) :=
  run_invariant (fun _ call => call.Plain) (Mapped boot)
    (fun _ _ mapped plain => mapped.step tables plain) tables.mapped (along_of_forall good)

/-- Over every run from the boot tables, a page outside the low 2 GiB has the
frame of the most recent call for it, and a low page is mapped to itself. -/
theorem translate_run {calls : List MapCall} (good : ∀ call ∈ calls, call.Plain)
    (virt : UInt64) :
    translate (run mapCall boot calls) virt =
      if LowPage virt then some (UInt64.ofNat (4096 * pageNumber virt))
      else (mostRecent calls virt).map MapCall.phys := by
  by_cases low : LowPage virt
  · rw [if_pos low, (Mapped.run tables good).translate_low tables low]
  rw [if_neg low]
  induction calls using List.reverseRecOn with
  | nil => exact tables.translate_high low
  | append_singleton calls call inductionHypothesis =>
      have earlier : ∀ call ∈ calls, call.Plain := fun call member =>
        good call (by simp [member])
      have step := (Mapped.run tables earlier).translate_step tables (good call (by simp)) virt
      rw [run_append, mostRecent_append]
      change translate (mapCall (run mapCall boot calls) call) virt = _
      rw [step, inductionHypothesis earlier]
      by_cases same : pageNumber call.virt = pageNumber virt
      · rw [if_pos ⟨low, same⟩, if_pos same]
        rfl
      · rw [if_neg fun both => same both.2, if_neg same]

end Runs

/-- The boot loader's tables in four zeroed pages above one megabyte. -/
theorem zeroBoot_tables :
    BootTables (bootMachine (fun _ => 0) 0x101000 0x102000 0x103000 0x104000)
      0x101000 0x102000 0x103000 0x104000 :=
  bootMachine_tables (by simp) (by decide) (fun _ _ _ _ => rfl) (by simp)

/-- A page mapped twice has the later frame, also next to another mapping. -/
theorem remapped_page_translates :
    translate (run mapCall (bootMachine (fun _ => 0) 0x101000 0x102000 0x103000 0x104000)
      [⟨0x5000, 0x80000000, 3⟩, ⟨0x6000, 0x80001000, 7⟩, ⟨0x7000, 0x80000000, 3⟩])
      0x80000123 = some 0x7000 := by
  rw [translate_run zeroBoot_tables]
  · decide
  · decide

end NansOS.Mmu
