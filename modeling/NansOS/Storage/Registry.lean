import NansOS.Foundation.Recency
import NansOS.Foundation.Run
import NansOS.Foundation.Slots
import NansOS.Kernel.StringOps

/-! Owns the registry of storage devices: `storage_init`, registration, removal
and lookup over any memory that the `init` and `cleanup` hooks may change, and
exactly when the array is a set of devices in the order of their registration.
Hooks do not call the registry, as none in the source does. Serial output is
left out. -/

namespace NansOS.Storage

open NansOS.Foundation
open NansOS.Kernel

universe u

variable {World : Type u}

/-- `MAX_STORAGE_DEVICES`. -/
abbrev maxStorageDevices : Nat := 16

/-- The hooks of `struct StorageDeviceOps` that the registry calls. -/
structure StorageDeviceOps (World : Type u) where
  init : Option (UInt64 → World → Int32 × World)
  cleanup : Option (UInt64 → World → World)

/-- The fields of `struct StorageDevice` that the registry reads. -/
structure StorageDevice (World : Type u) where
  name : CString
  ops : Option (StorageDeviceOps World)

/-- The variables `devices` and `num_devices`, and the memory around them. -/
structure Registry (World : Type u) where
  world : World
  devices : Nat → UInt64
  numDevices : Nat

namespace Registry

/-- The variables before the first call. -/
def boot (world : World) : Registry World where
  world := world
  devices := fun _ => 0
  numDevices := 0

/-- The registered devices, in the order of the array. -/
def list (registry : Registry World) : List UInt64 :=
  slotList registry.devices registry.numDevices

def storageInit (registry : Registry World) : Registry World :=
  { registry with
    devices := fun _ => 0
    numDevices := 0 }

-- What the structure at an address of the memory reads as.
variable (deviceAt : World → UInt64 → StorageDevice World)

/-- The call of `dev->ops->init`, or its absence. -/
def initDevice (dev : UInt64) (world : World) : Int32 × World :=
  match (deviceAt world dev).ops with
  | none => (0, world)
  | some ops =>
      match ops.init with
      | none => (0, world)
      | some init => init dev world

/-- The call of `dev->ops->cleanup`, or its absence. -/
def cleanupDevice (dev : UInt64) (world : World) : World :=
  match (deviceAt world dev).ops with
  | none => world
  | some ops =>
      match ops.cleanup with
      | none => world
      | some cleanup => cleanup dev world

def storageRegisterDevice (dev : UInt64) (registry : Registry World) : Int32 × Registry World :=
  if dev = 0 then (-1, registry)
  else if registry.numDevices ≥ maxStorageDevices then (-1, registry)
  else
    let (result, world) := initDevice deviceAt dev registry.world
    if result ≠ 0 then (result, { registry with world := world })
    else
      (0,
        { world := world
          devices := Function.update registry.devices registry.numDevices dev
          numDevices := registry.numDevices + 1 })

def storageUnregisterDevice (dev : UInt64) (registry : Registry World) : Registry World :=
  if dev = 0 then registry
  else
    match findSlot registry.devices registry.numDevices dev with
    | none => registry
    | some index =>
        { world := cleanupDevice deviceAt dev registry.world
          devices := Function.update (shiftDown registry.devices index registry.numDevices)
            (registry.numDevices - 1) 0
          numDevices := registry.numDevices - 1 }

/-- The name is `none` for `NULL`. -/
def storageGetDevice (name : Option CString) (registry : Registry World) : UInt64 :=
  match name with
  | none => 0
  | some name =>
      let hit := (List.range registry.numDevices).find? fun index =>
        registry.devices index ≠ 0 ∧
          (deviceAt registry.world (registry.devices index)).name = name
      match hit with
      | none => 0
      | some index => registry.devices index

end Registry

/-! ### Runs -/

inductive Call where
  | init
  | register (dev : UInt64)
  | unregister (dev : UInt64)

/-- The registry beside the registrations that succeeded and the removals since
the last `storage_init`, in order. -/
structure Session (World : Type u) where
  registry : Registry World
  events : List (Event UInt64)

variable (deviceAt : World → UInt64 → StorageDevice World)

namespace Session

def boot (world : World) : Session World where
  registry := Registry.boot world
  events := []

def step (session : Session World) : Call → Session World
  | .init =>
      { registry := session.registry.storageInit
        events := [] }
  | .register dev =>
      let (result, registry) := session.registry.storageRegisterDevice deviceAt dev
      { registry := registry
        events := if result = 0 then session.events ++ [.enter dev] else session.events }
  | .unregister dev =>
      { registry := session.registry.storageUnregisterDevice deviceAt dev
        events := session.events ++ [.leave dev] }

end Session

/-- The slots in use hold the devices registered and not removed since, each
once, in the order of their registration; there are at most 16, and the slots
behind them are `NULL`. -/
structure IsSet (session : Session World) : Prop where
  registered : Recency session.events session.registry.list
  nonnull : 0 ∉ session.registry.list
  count : session.registry.numDevices ≤ maxStorageDevices
  above : ∀ slot, session.registry.numDevices ≤ slot → slot < maxStorageDevices →
    session.registry.devices slot = 0

/-- Lookup by name returns `NULL` or a device registered and not removed since. -/
def FindsRegistered (session : Session World) : Prop :=
  ∀ name, session.registry.storageGetDevice deviceAt name ≠ 0 →
    Present session.events (session.registry.storageGetDevice deviceAt name)

/-- What one call shall leave behind. -/
def Leaves (session : Session World) : Call → Prop
  | .init => session.registry.storageInit.list = []
  | .register dev =>
      (session.registry.storageRegisterDevice deviceAt dev).1 ≠ 0 →
        (session.registry.storageRegisterDevice deviceAt dev).2.devices =
            session.registry.devices ∧
          (session.registry.storageRegisterDevice deviceAt dev).2.numDevices =
            session.registry.numDevices
  | .unregister dev =>
      dev ≠ 0 → ∀ slot < maxStorageDevices,
        (session.registry.storageUnregisterDevice deviceAt dev).devices slot ≠ dev

/-- The call leaves a set of devices, found by their names, and does its part. -/
def KeepsSet (session : Session World) (call : Call) : Prop :=
  IsSet (session.step deviceAt call) ∧ FindsRegistered deviceAt (session.step deviceAt call) ∧
    Leaves deviceAt session call

/-- The registration goes through: there is room and the hook succeeds. -/
def Accepts (registry : Registry World) (dev : UInt64) : Prop :=
  dev ≠ 0 ∧ registry.numDevices < maxStorageDevices ∧
    (Registry.initDevice deviceAt dev registry.world).1 = 0

/-- The call does not register a device that the registry already holds. -/
def RegistersNew (session : Session World) : Call → Prop
  | .register dev => Accepts deviceAt session.registry dev → dev ∉ session.registry.list
  | _ => True

/-! ### One call -/

variable {deviceAt} {registry : Registry World}

namespace Registry

/-- A registration appends the device or changes neither array nor counter. -/
theorem register_spec (deviceAt : World → UInt64 → StorageDevice World)
    (registry : Registry World) (dev : UInt64) :
    (Accepts deviceAt registry dev ∧
        (registry.storageRegisterDevice deviceAt dev).1 = 0 ∧
        (registry.storageRegisterDevice deviceAt dev).2.devices =
          Function.update registry.devices registry.numDevices dev ∧
        (registry.storageRegisterDevice deviceAt dev).2.numDevices = registry.numDevices + 1) ∨
      (¬ Accepts deviceAt registry dev ∧
        (registry.storageRegisterDevice deviceAt dev).1 ≠ 0 ∧
        (registry.storageRegisterDevice deviceAt dev).2.devices = registry.devices ∧
        (registry.storageRegisterDevice deviceAt dev).2.numDevices = registry.numDevices) := by
  unfold storageRegisterDevice
  by_cases null : dev = 0
  · rw [if_pos null]
    exact Or.inr ⟨fun accepts => accepts.1 null, (by decide : (-1 : Int32) ≠ 0), rfl, rfl⟩
  · rw [if_neg null]
    by_cases full : registry.numDevices ≥ maxStorageDevices
    · rw [if_pos full]
      exact Or.inr ⟨fun accepts => absurd accepts.2.1 (by omega),
        (by decide : (-1 : Int32) ≠ 0), rfl, rfl⟩
    · rw [if_neg full]
      dsimp only
      by_cases failed : (initDevice deviceAt dev registry.world).1 ≠ 0
      · rw [if_pos failed]
        exact Or.inr ⟨fun accepts => failed accepts.2.2, failed, rfl, rfl⟩
      · rw [if_neg failed]
        exact Or.inl ⟨⟨null, by omega, not_not.mp failed⟩, rfl, rfl, rfl⟩

/-- A removal erases the first entry for the device and clears what is behind. -/
theorem unregister_spec (deviceAt : World → UInt64 → StorageDevice World)
    (registry : Registry World) {dev : UInt64} (nonnull : dev ≠ 0) :
    let after := registry.storageUnregisterDevice deviceAt dev
    after.list = registry.list.erase dev ∧ after.numDevices ≤ registry.numDevices ∧
      ∀ slot, after.numDevices ≤ slot →
        after.devices slot = registry.devices slot ∧ registry.numDevices ≤ slot ∨
          after.devices slot = 0 := by
  intro after
  cases found : findSlot registry.devices registry.numDevices dev with
  | none =>
      have same : after = registry := by
        simp only [after, storageUnregisterDevice, if_neg nonnull, found]
      rw [same]
      exact ⟨(List.erase_of_not_mem (findSlot_none found)).symm, Nat.le_refl _,
        fun slot beyond => Or.inl ⟨rfl, beyond⟩⟩
  | some index =>
      obtain ⟨below, held, erased⟩ := findSlot_some found
      have same : after =
          { world := cleanupDevice deviceAt dev registry.world
            devices := Function.update (shiftDown registry.devices index registry.numDevices)
              (registry.numDevices - 1) 0
            numDevices := registry.numDevices - 1 } := by
        simp only [after, storageUnregisterDevice, if_neg nonnull, found]
      rw [same]
      refine ⟨?_, Nat.sub_le _ _, ?_⟩
      · show slotList _ (registry.numDevices - 1) = _
        rw [slotList_update_of_le _ (Nat.le_refl _), slotList_shiftDown _ below, erased]
        rfl
      · intro slot beyond
        have beyond : registry.numDevices - 1 ≤ slot := beyond
        by_cases last : slot = registry.numDevices - 1
        · subst last
          exact Or.inr (Function.update_self _ _ _)
        · refine Or.inl ⟨?_, by omega⟩
          show Function.update _ _ _ _ = _
          rw [Function.update_of_ne last, shiftDown_apply, if_neg (by omega)]

/-- Lookup returns an entry of the array. -/
theorem getDevice_mem {name : Option CString}
    (found : registry.storageGetDevice deviceAt name ≠ 0) :
    registry.storageGetDevice deviceAt name ∈ registry.list := by
  unfold storageGetDevice at found ⊢
  cases name with
  | none => exact absurd rfl found
  | some name =>
      dsimp only at found ⊢
      generalize search : (List.range registry.numDevices).find? _ = hit at found ⊢
      cases hit with
      | none => exact absurd rfl found
      | some index =>
          have inside := List.mem_range.mp (List.mem_of_find?_eq_some search)
          exact mem_slotList.mpr ⟨index, inside, rfl⟩

end Registry

/-! ### Every call of a run -/

variable {session : Session World}

theorem isSet_boot (world : World) : IsSet (Session.boot world) :=
  ⟨recency_nil, List.not_mem_nil, Nat.zero_le _, fun _ _ _ => rfl⟩

theorem IsSet.findsRegistered (isSet : IsSet session) : FindsRegistered deviceAt session :=
  fun _ found => (isSet.registered.present _).mp (Registry.getDevice_mem found)

/-- No slot holds a device, `NULL` apart, that is not registered. -/
theorem IsSet.devices_ne (isSet : IsSet session) {dev : UInt64} (nonnull : dev ≠ 0)
    (absent : dev ∉ session.registry.list) {slot : Nat} (inside : slot < maxStorageDevices) :
    session.registry.devices slot ≠ dev := by
  intro held
  by_cases used : slot < session.registry.numDevices
  · exact absent (mem_slotList.mpr ⟨slot, used, held⟩)
  · exact nonnull (held.symm.trans (isSet.above slot (by omega) inside))

/-- Being a set depends on the array, the counter and the events only. -/
theorem IsSet.congr (isSet : IsSet session) {other : Session World}
    (events : other.events = session.events)
    (devices : other.registry.devices = session.registry.devices)
    (count : other.registry.numDevices = session.registry.numDevices) : IsSet other := by
  have list : other.registry.list = session.registry.list := by
    rw [Registry.list, devices, count]
    rfl
  constructor
  · rw [events, list]
    exact isSet.registered
  · rw [list]
    exact isSet.nonnull
  · rw [count]
    exact isSet.count
  · rw [devices, count]
    exact isSet.above

theorem IsSet.init (session : Session World) : IsSet (session.step deviceAt .init) :=
  ⟨recency_nil, List.not_mem_nil, Nat.zero_le _, fun _ _ _ => rfl⟩

theorem step_register (session : Session World) (dev : UInt64) :
    session.step deviceAt (.register dev) =
      { registry := (session.registry.storageRegisterDevice deviceAt dev).2
        events :=
          if (session.registry.storageRegisterDevice deviceAt dev).1 = 0 then
            session.events ++ [.enter dev]
          else session.events } := rfl

theorem step_unregister (session : Session World) (dev : UInt64) :
    session.step deviceAt (.unregister dev) =
      { registry := session.registry.storageUnregisterDevice deviceAt dev
        events := session.events ++ [.leave dev] } := rfl

theorem list_of_accepts {dev : UInt64} (accepts : Accepts deviceAt registry dev) :
    (registry.storageRegisterDevice deviceAt dev).2.list = registry.list ++ [dev] := by
  obtain ⟨_, _, devices, count⟩ | ⟨refused, _⟩ := registry.register_spec deviceAt dev
  · rw [Registry.list, devices, count]
    exact slotList_update _ _ _
  · exact absurd accepts refused

/-- A set stays one exactly when the device was absent or is not accepted. -/
theorem IsSet.register (isSet : IsSet session) (dev : UInt64) :
    IsSet (session.step deviceAt (.register dev)) ↔
      (Accepts deviceAt session.registry dev → dev ∉ session.registry.list) := by
  constructor
  · intro kept accepts
    have nodup := kept.registered.nodup
    have list : (session.step deviceAt (.register dev)).registry.list =
        session.registry.list ++ [dev] := list_of_accepts accepts
    rw [list] at nodup
    intro member
    exact List.disjoint_of_nodup_append nodup member (List.mem_singleton_self _)
  · intro fresh
    rw [step_register]
    obtain ⟨accepts, result, devices, count⟩ | ⟨refused, result, devices, count⟩ :=
      session.registry.register_spec deviceAt dev
    · have absent := fresh accepts
      have list := list_of_accepts accepts
      rw [if_pos result]
      generalize session.registry.storageRegisterDevice deviceAt dev = outcome at *
      refine ⟨?_, ?_, ?_, ?_⟩
      · show Recency _ outcome.2.list
        rw [list]
        exact isSet.registered.enter absent
      · show 0 ∉ outcome.2.list
        rw [list]
        simpa using ⟨isSet.nonnull, Ne.symm accepts.1⟩
      · show outcome.2.numDevices ≤ maxStorageDevices
        rw [count]
        exact accepts.2.1
      · intro slot beyond inside
        have beyond : outcome.2.numDevices ≤ slot := beyond
        show outcome.2.devices slot = 0
        rw [devices, Function.update_of_ne (by omega)]
        exact isSet.above slot (by omega) inside
    · rw [if_neg result]
      exact isSet.congr rfl devices count

/-- A set stays one when a device is removed. -/
theorem IsSet.unregister (isSet : IsSet session) (dev : UInt64) :
    IsSet (session.step deviceAt (.unregister dev)) := by
  by_cases null : dev = 0
  · have list : session.registry.list.erase dev = session.registry.list := by
      rw [null, List.erase_of_not_mem isSet.nonnull]
    have registered := isSet.registered.leave dev
    rw [arrange, list] at registered
    have same : session.registry.storageUnregisterDevice deviceAt dev = session.registry :=
      if_pos null
    rw [step_unregister, same]
    exact ⟨registered, isSet.nonnull, isSet.count, isSet.above⟩
  · obtain ⟨list, count, behind⟩ := session.registry.unregister_spec deviceAt null
    rw [step_unregister]
    refine ⟨?_, ?_, Nat.le_trans count isSet.count, ?_⟩
    · show Recency _ (Registry.list _)
      rw [list]
      exact isSet.registered.leave dev
    · show 0 ∉ Registry.list _
      rw [list]
      exact fun kept => isSet.nonnull (List.mem_of_mem_erase kept)
    · intro slot beyond inside
      obtain ⟨same, unused⟩ | cleared := behind slot beyond
      · exact same.trans (isSet.above slot unused inside)
      · exact cleared

/-- Each call does its part on a set. -/
theorem IsSet.leaves (isSet : IsSet session) (call : Call) : Leaves deviceAt session call := by
  cases call with
  | init => rfl
  | register dev =>
      intro failed
      obtain ⟨_, result, _⟩ | ⟨_, _, devices, count⟩ :=
        session.registry.register_spec deviceAt dev
      · exact absurd result failed
      · exact ⟨devices, count⟩
  | unregister dev =>
      intro nonnull slot inside
      have list := (session.registry.unregister_spec deviceAt nonnull).1
      have gone : dev ∉ (session.step deviceAt (.unregister dev)).registry.list := by
        rw [step_unregister]
        show dev ∉ Registry.list _
        rw [list]
        exact isSet.registered.nodup.not_mem_erase
      exact (isSet.unregister dev).devices_ne nonnull gone inside

theorem IsSet.keepsSet_iff (isSet : IsSet session) (call : Call) :
    KeepsSet deviceAt session call ↔ RegistersNew deviceAt session call := by
  have rest : KeepsSet deviceAt session call ↔ IsSet (session.step deviceAt call) :=
    ⟨fun keeps => keeps.1, fun kept => ⟨kept, kept.findsRegistered, isSet.leaves call⟩⟩
  rw [rest]
  cases call with
  | init => exact iff_of_true (IsSet.init session) trivial
  | register dev => exact isSet.register dev
  | unregister dev => exact iff_of_true (isSet.unregister dev) trivial

/-- Over every sequence of calls from boot, with any hooks, the registry is the
ordered set of the devices registered and not removed since, exactly when no
call registers a device that it already holds. -/
theorem registry_is_set_iff (world : World) (calls : List Call) :
    Along (Session.step deviceAt) (KeepsSet deviceAt) (Session.boot world) calls ↔
      Along (Session.step deviceAt) (RegistersNew deviceAt) (Session.boot world) calls := by
  apply along_iff IsSet (fun _ _ => True)
  · intro session call isSet _ fresh
    exact ((isSet.keepsSet_iff call).mpr fresh).1
  · intro session call isSet _
    exact isSet.keepsSet_iff call
  · exact isSet_boot world
  · exact along_of_forall fun _ _ => trivial

/-- A memory without hooks. -/
def plainDevice (_ : Unit) (_ : UInt64) : StorageDevice Unit where
  name := CString.empty
  ops := none

/-- A device registered twice is still there after it is removed. -/
theorem removed_device_held :
    ¬ ∀ calls, Along (Session.step plainDevice) (KeepsSet plainDevice) (Session.boot ()) calls := by
  intro always
  have removal := (always [.register 1, .register 1, .unregister 1]).2.2.1
  exact removal.2.2 (by decide) 0 (by decide) rfl

end NansOS.Storage
