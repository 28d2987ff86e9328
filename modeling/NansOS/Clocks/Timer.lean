import NansOS.Boot.Ports
import NansOS.Storage.Ide
import Mathlib.Tactic.IntervalCases

/-! Owns the programming of the interval timer: the reload value that the chip
takes from channel 0 behind `pit_set_frequency`, and behind `pit_init`, which goes on
with calls of `pic.c` and `serial.c`, on any bus. -/

namespace NansOS.Clocks

open NansOS.Foundation
open NansOS.Boot
open NansOS.Storage

/-! ### The bus -/

/-- A bus that answers every read. -/
def busPorts : Ports Bus where
  byteIn := Bus.portByteIn
  byteOut := Bus.portByteOut

/-- The bus that a driver leaves, also where its wait is not over. -/
def busAfter {Result : Type} (driver : Driver Result) (bus : Bus) : Bus :=
  (driver.converse busPorts.answers bus).world

/-! ### The chip -/

/-- The reload value of two bytes; 0 stands for 65536. -/
def reload (low high : UInt8) : Nat :=
  if low.toNat + 256 * high.toNat = 0 then 65536 else low.toNat + 256 * high.toNat

/-- The divisor that comes closest to a rate. -/
def wantedDivisor (hz : Nat) : Nat := max 1 (min 65536 (1193180 / hz))

/-- Channel 0 got the divisor of a rate, and nothing else. -/
def Programs (hz : UInt32) (bus : Bus) : Prop :=
  ∃ low high, writtenTo pitChannel0 bus.log = [low, high] ∧
    reload low high = wantedDivisor hz.toNat

/-! ### Where the calls write -/

/-- A request that writes nothing to a port. -/
def Elsewhere (target : UInt16) : Request → Prop
  | .byteOut port _ => port ≠ target
  | _ => True

/-- What writes elsewhere leaves the bytes of a port. -/
theorem writtenTo_busAfter {Result : Type} {target : UInt16} {driver : Driver Result}
    (elsewhere : driver.Requests (Elsewhere target)) (bus : Bus) :
    writtenTo target (busAfter driver bus).log = writtenTo target bus.log := by
  apply elsewhere.leaves fun bus : Bus => writtenTo target bus.log
  intro request bus apart
  cases request with
  | byteIn port =>
      simp only [Ports.answers, busPorts, Bus.portByteIn, Bus.asmInb, Bus.record_log,
        writtenTo_append, writtenTo_byteIn, List.append_nil]
  | byteOut port value =>
      simp only [Ports.answers, busPorts, Bus.portByteOut, Bus.record_log, writtenTo_append,
        writtenTo_other apart, List.append_nil]
  | cli => rfl
  | sti => rfl
  | lidt => rfl

theorem picClearMask_elsewhere {target : UInt16} {irq : UInt8} (apart : (maskBit irq).1 ≠ target) :
    (picClearMask irq).Requests (Elsewhere target) :=
  ⟨trivial, fun _ => ⟨apart, fun _ => trivial⟩⟩

/-- At 0 nothing is written. -/
theorem pitSetFrequency_zero (bus : Bus) : busAfter (pitSetFrequency 0) bus = bus := rfl

theorem pitSetFrequency_writes {hz : UInt32} (rate : hz ≠ 0) (input : UInt16 → Nat → UInt8) :
    writtenTo pitChannel0 (busAfter (pitSetFrequency hz) (Bus.idle input)).log =
      [((pitFrequency / hz) &&& 0xFF).toUInt8,
        (((pitFrequency / hz) >>> 8) &&& 0xFF).toUInt8] := by
  rw [pitSetFrequency, if_neg rate]
  show writtenTo pitChannel0 ((((Bus.idle input).portByteOut pitCommand _).portByteOut
    pitChannel0 _).portByteOut pitChannel0 _).log = _
  simp only [Bus.portByteOut, Bus.record_log, Bus.idle, List.nil_append, writtenTo_append,
    writtenTo_other (show pitCommand ≠ pitChannel0 by decide), writtenTo_byteOut]
  rfl

/-- What `pit_init` does behind `pit_set_frequency` does not reach the timer. -/
theorem pitInit_writes (passes : Nat) (hz : UInt32) (bus : Bus) :
    writtenTo pitChannel0 (busAfter (pitInit passes hz) bus).log =
      writtenTo pitChannel0 (busAfter (pitSetFrequency hz) bus).log := by
  have apart : com1Port ≠ pitChannel0 := by decide
  have elsewhere : (picClearMask pitIrq >>= fun _ => serialWriteString passes com1Port
      (textBytes "[PIT] Timer initialized\n")).Requests (Elsewhere pitChannel0) := by
    apply (picClearMask_elsewhere (by decide)).bind
    intro _
    exact requests_serialWriteString trivial (fun _ => apart) passes _
  by_cases zero : hz = 0
  · subst zero
    rfl
  · rw [pitInit, pitSetFrequency, if_neg zero]
    exact writtenTo_busAfter elsewhere _

/-! ### Rates -/

theorem reload_bytes (divisor : UInt32) :
    reload (divisor &&& 0xFF).toUInt8 ((divisor >>> 8) &&& 0xFF).toUInt8 =
      if divisor.toNat % 65536 = 0 then 65536 else divisor.toNat % 65536 := by
  have low : (divisor &&& 0xFF).toUInt8.toNat = divisor.toNat % 256 := by
    rw [UInt32.toNat_toUInt8, UInt32.toNat_and]
    show (divisor.toNat &&& 2 ^ 8 - 1) % 2 ^ 8 = _
    rw [Nat.and_two_pow_sub_one_eq_mod]
    omega
  have high : ((divisor >>> 8) &&& 0xFF).toUInt8.toNat = divisor.toNat / 256 % 256 := by
    rw [UInt32.toNat_toUInt8, UInt32.toNat_and, UInt32.toNat_shiftRight]
    show (divisor.toNat >>> 8 &&& 2 ^ 8 - 1) % 2 ^ 8 = _
    rw [Nat.and_two_pow_sub_one_eq_mod, Nat.shiftRight_eq_div_pow]
    omega
  have whole : divisor.toNat % 256 + 256 * (divisor.toNat / 256 % 256) = divisor.toNat % 65536 := by
    omega
  rw [reload, low, high, whole]

/-- The divisor fits the chip for the rates between 19 Hz and that of the clock. -/
theorem reload_wanted_iff {hz : Nat} (rate : 0 < hz) :
    ((if 1193180 / hz % 65536 = 0 then 65536 else 1193180 / hz % 65536) = wantedDivisor hz) ↔
      19 ≤ hz ∧ hz ≤ 1193180 := by
  unfold wantedDivisor
  by_cases slow : hz < 19
  · interval_cases hz <;> simp
  · by_cases fast : 1193180 < hz
    · have none : 1193180 / hz = 0 := Nat.div_eq_of_lt fast
      rw [none]
      simp [fast]
    · have most : 1193180 / hz ≤ 1193180 / 19 := Nat.div_le_div_left (by omega) (by decide)
      have least : 1 ≤ 1193180 / hz := (Nat.one_le_div_iff rate).mpr (by omega)
      generalize 1193180 / hz = divisor at most least
      have small : divisor % 65536 = divisor := Nat.mod_eq_of_lt (by omega)
      rw [small, if_neg (by omega)]
      omega

theorem programs_pitSetFrequency (hz : UInt32) (input : UInt16 → Nat → UInt8) :
    Programs hz (busAfter (pitSetFrequency hz) (Bus.idle input)) ↔
      19 ≤ hz.toNat ∧ hz.toNat ≤ 1193180 := by
  by_cases zero : hz = 0
  · subst zero
    simp [Programs, pitSetFrequency_zero, Bus.idle, writtenTo]
  · have rate : 0 < hz.toNat := by
      apply Nat.pos_of_ne_zero
      intro none
      exact zero (UInt32.toNat_inj.mp none)
    have divided : (pitFrequency / hz).toNat = 1193180 / hz.toNat := UInt32.toNat_div ..
    have written := pitSetFrequency_writes zero input
    rw [← reload_wanted_iff rate, ← divided, ← reload_bytes, Programs, written]
    constructor
    · intro programs
      obtain ⟨low, high, bytes, wanted⟩ := programs
      cases bytes
      exact wanted
    · intro wanted
      exact ⟨_, _, rfl, wanted⟩

/-- Both functions program the divisor closest to a rate, for as long as the
serial line makes `pit_init` wait, exactly for the rates from 19 Hz to 1193180 Hz. -/
theorem timer_programmed_iff (hz : UInt32) (input : UInt16 → Nat → UInt8) :
    (Programs hz (busAfter (pitSetFrequency hz) (Bus.idle input)) ↔
      19 ≤ hz.toNat ∧ hz.toNat ≤ 1193180) ∧
    ∀ passes, Programs hz (busAfter (pitInit passes hz) (Bus.idle input)) ↔
      19 ≤ hz.toNat ∧ hz.toNat ≤ 1193180 := by
  constructor
  · exact programs_pitSetFrequency hz input
  · intro passes
    rw [Programs, pitInit_writes]
    exact programs_pitSetFrequency hz input

/-- The divisor of 18 Hz does not fit in two bytes. -/
theorem eighteen_hertz_runs_fast :
    ¬ ∀ (hz : UInt32) (input : UInt16 → Nat → UInt8),
      Programs hz (busAfter (pitSetFrequency hz) (Bus.idle input)) := by
  intro always
  have programmed := (programs_pitSetFrequency 18 fun _ _ => 0).mp (always 18 fun _ _ => 0)
  exact absurd programmed.1 (by decide)

end NansOS.Clocks
