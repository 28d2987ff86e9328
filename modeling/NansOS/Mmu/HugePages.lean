import NansOS.Mmu.Unmap

/-! Owns what `mmuUnmapPage` writes. `mmuMapPage` and `mmuIsMapped` stop at a
huge entry of a page directory; `mmuUnmapPage` follows it, so that the frame of
a huge page is taken for a page table. Unmapping then stays in the tables
exactly when the address lies in no huge page or the word of the frame that is
cleared is zero already. -/

namespace NansOS.Mmu

open NansOS.Foundation
open NansOS.Kernel

/-- The entry for `virt` in the page table that present entries lead to from
`root`, the last of them not huge: the walk of `mmuIsMapped`. -/
def levelOneEntry (machine : Machine) (root virt : UInt64) : Option Nat :=
  if entry machine root (pml4Idx virt) &&& pagePresent = 0 then none
  else
    let pdp := tableOf (entry machine root (pml4Idx virt))
    if entry machine pdp (pdpIdx virt) &&& pagePresent = 0 then none
    else
      let pd := tableOf (entry machine pdp (pdpIdx virt))
      if entry machine pd (pdIdx virt) &&& pageHuge ≠ 0 then none
      else if entry machine pd (pdIdx virt) &&& pagePresent = 0 then none
      else
        let pt := tableOf (entry machine pd (pdIdx virt))
        some (pt.toNat + 8 * (ptIdx virt).toNat)

/-- Present entries lead from `root` to a present huge entry for `virt`. -/
def InHugePage (machine : Machine) (root virt : UInt64) : Prop :=
  let pdp := tableOf (entry machine root (pml4Idx virt))
  let pd := tableOf (entry machine pdp (pdpIdx virt))
  entry machine root (pml4Idx virt) &&& pagePresent ≠ 0 ∧
    entry machine pdp (pdpIdx virt) &&& pagePresent ≠ 0 ∧
    entry machine pd (pdIdx virt) &&& pagePresent ≠ 0 ∧
    entry machine pd (pdIdx virt) &&& pageHuge ≠ 0

/-- The only word that unmapping changes is the entry for the address in a page
table of the tree at `0x1000`, and it changes nothing for a huge page. -/
def UnmapStaysInTables (machine : Machine) (virt : UInt64) : Prop :=
  (∀ target, (mmuUnmapPage machine virt).memory target ≠ machine.memory target →
      ∃ address ∈ levelOneEntry machine 0x1000 virt,
        target ∈ Set.Ico address (address + 8)) ∧
    (InHugePage machine 0x1000 virt → mmuUnmapPage machine virt = machine)

/-- If the address lies in a huge page, the word of its frame that is taken for
the page-table entry is zero. -/
def TakenWordZero (machine : Machine) (virt : UInt64) : Prop :=
  InHugePage machine 0x1000 virt →
    ∀ address ∈ pageTableEntry machine 0x1000 virt, machine.memory.read64 address = 0

/-- Outside huge pages the walks end at the same entry. -/
theorem levelOneEntry_eq {machine : Machine} {root virt : UInt64}
    (small : ¬ InHugePage machine root virt) :
    levelOneEntry machine root virt = pageTableEntry machine root virt := by
  unfold levelOneEntry pageTableEntry
  dsimp only
  split_ifs with first second large third
  · rfl
  · rfl
  · rfl
  · exact absurd ⟨first, second, third, large⟩ small
  · rfl
  · rfl

theorem pageTableEntry_of_huge {machine : Machine} {root virt : UInt64}
    (huge : InHugePage machine root virt) :
    ∃ address, pageTableEntry machine root virt = some address := by
  obtain ⟨first, second, third, -⟩ := huge
  unfold pageTableEntry
  rw [if_neg first]
  dsimp only
  rw [if_neg second, if_neg third]
  exact ⟨_, rfl⟩

/-- A word that is zero already is not changed by clearing it. -/
theorem clearEntry_of_zero {machine : Machine} {address : Nat}
    (zero : machine.memory.read64 address = 0) : clearEntry machine address = machine := by
  have memory : machine.memory.write64 address 0 = machine.memory := by
    funext target
    by_cases inside : target ∈ Set.Ico address (address + 8)
    · have within := Set.mem_Ico.mp inside
      simp only [Memory.write64, Memory.store, if_pos within]
      rw [Memory.zero_of_read64 zero target inside, UInt64.toNat_zero, Nat.zero_div]
      rfl
    · exact Memory.write64_eqOn machine.memory address 0 inside
  rw [clearEntry, memory]

theorem unmapStaysInTables_iff (machine : Machine) (virt : UInt64) :
    UnmapStaysInTables machine virt ↔ TakenWordZero machine virt := by
  constructor
  · rintro ⟨-, still⟩ huge address taken
    have same := still huge
    rw [mmuUnmapPage_eq, taken, Option.elim_some] at same
    rw [← same, clearEntry, Memory.read64_write64_same]
  · intro zero
    by_cases huge : InHugePage machine 0x1000 virt
    · obtain ⟨address, taken⟩ := pageTableEntry_of_huge huge
      have same : mmuUnmapPage machine virt = machine := by
        rw [mmuUnmapPage_eq, taken, Option.elim_some]
        exact clearEntry_of_zero (zero huge address taken)
      refine ⟨fun target changed => ?_, fun _ => same⟩
      rw [same] at changed
      exact absurd rfl changed
    · refine ⟨fun target changed => ?_, fun inside => absurd inside huge⟩
      rw [levelOneEntry_eq huge]
      rw [mmuUnmapPage_eq] at changed
      cases found : pageTableEntry machine 0x1000 virt with
      | none =>
          rw [found, Option.elim_none] at changed
          exact absurd rfl changed
      | some address =>
          rw [found, Option.elim_some] at changed
          refine ⟨address, rfl, ?_⟩
          by_contra outside
          exact changed (Memory.write64_eqOn machine.memory address 0 outside)

/-! ### A huge page whose frame is written -/

/-- The tables of `hugeMachine`, one entry in each. -/
def hugeTables : Memory :=
  let pml4 := Memory.write64 (fun _ => 0) 0x1000 0x2003
  let pdp := Memory.write64 pml4 0x2000 0x3003
  Memory.write64 pdp 0x3000 0x400083

/-- A tree at `0x1000` that maps address 0 by a huge entry for the frame at
`0x400000`, which holds data. -/
def hugeMachine : Machine where
  memory := hugeTables.write64 0x400000 1
  cr3 := 0x1000
  nextFreePage := 0x600000
  heapStart := 0

theorem hugeMachine_entries :
    entry hugeMachine 0x1000 (pml4Idx 0) = 0x2003 ∧
      entry hugeMachine 0x2000 (pdpIdx 0) = 0x3003 ∧
      entry hugeMachine 0x3000 (pdIdx 0) = 0x400083 := by
  have below : ∀ address : Nat, address + 8 ≤ 0x400000 →
      hugeMachine.memory.read64 address = hugeTables.read64 address :=
    fun address apart => Memory.read64_write64_disjoint _ _ (.inl apart)
  refine ⟨?_, ?_, ?_⟩
  · change hugeMachine.memory.read64 0x1000 = 0x2003
    rw [below _ (by decide), hugeTables, Memory.read64_write64_disjoint _ _ (by decide),
      Memory.read64_write64_disjoint _ _ (by decide), Memory.read64_write64_same]
  · change hugeMachine.memory.read64 0x2000 = 0x3003
    rw [below _ (by decide), hugeTables, Memory.read64_write64_disjoint _ _ (by decide),
      Memory.read64_write64_same]
  · change hugeMachine.memory.read64 0x3000 = 0x400083
    rw [below _ (by decide), hugeTables, Memory.read64_write64_same]

theorem hugeMachine_huge : InHugePage hugeMachine 0x1000 0 := by
  obtain ⟨pml4, pdp, pd⟩ := hugeMachine_entries
  have first : tableOf 0x2003 = 0x2000 := by decide
  have second : tableOf 0x3003 = 0x3000 := by decide
  unfold InHugePage
  dsimp only
  rw [pml4, first, pdp, second, pd]
  decide

theorem hugeMachine_taken : pageTableEntry hugeMachine 0x1000 0 = some 0x400000 := by
  obtain ⟨pml4, pdp, pd⟩ := hugeMachine_entries
  have first : tableOf 0x2003 = 0x2000 := by decide
  have second : tableOf 0x3003 = 0x3000 := by decide
  unfold pageTableEntry
  dsimp only
  rw [pml4, first, pdp, second, pd]
  decide

/-- Unmapping address 0 clears the first word of the huge page. -/
theorem unmap_leaves_tables :
    ¬ ∀ (machine : Machine) (virt : UInt64), UnmapStaysInTables machine virt := by
  intro always
  have still := (always hugeMachine 0).2 hugeMachine_huge
  have cleared : (mmuUnmapPage hugeMachine 0).memory.read64 0x400000 = 0 := by
    rw [mmuUnmapPage_eq, hugeMachine_taken, Option.elim_some, clearEntry,
      Memory.read64_write64_same]
  rw [still, hugeMachine, Memory.read64_write64_same] at cleared
  exact absurd cleared (by decide)

end NansOS.Mmu
