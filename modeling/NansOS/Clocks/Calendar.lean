import NansOS.Clocks.Timer
import NansOS.Foundation.Polling

/-! Owns the real time clock: `rtc_init`, which selects binary registers, and
`rtc_read_time`, which decodes decimal ones, against a chip that shows the time it
holds in the mode selected. -/

namespace NansOS.Clocks

open NansOS.Foundation
open NansOS.Boot

/-! ### The chip -/

/-- A time that the clock can hold. -/
structure HeldTime extends RTCTime where
  second_lt : second.toNat < 60
  minute_lt : minute.toNat < 60
  hour_lt : hour.toNat < 24
  day_le : 1 ≤ day.toNat ∧ day.toNat ≤ 31
  month_le : 1 ≤ month.toNat ∧ month.toNat ≤ 12
  year_le : 2000 ≤ year.toNat ∧ year.toNat ≤ 2099
  weekday_le : weekday.toNat ≤ 7

/-- The chip: its index register, status B, what reads of status A still give,
and the time. Its updates come to an end. -/
structure Chip where
  index : UInt8
  statusB : UInt8
  statusA : Nat → UInt8
  updatesEnd : ∀ index, ∃ later, statusA (index + later) &&& 0x80 = 0
  time : HeldTime

namespace Chip

/-- Two decimal digits in a byte. -/
def decimal (value : UInt8) : UInt8 := UInt8.ofNat (16 * (value.toNat / 10) + value.toNat % 10)

/-- A time register: binary if bit 2 of status B is set. -/
def shown (chip : Chip) (value : UInt8) : UInt8 :=
  if chip.statusB &&& 0x04 = 0 then decimal value else value

/-- The registers but status A, in the mode of 24 hours. -/
def register (chip : Chip) (register : UInt8) : UInt8 :=
  if register = rtcSeconds then chip.shown chip.time.second
  else if register = rtcMinutes then chip.shown chip.time.minute
  else if register = rtcHours then chip.shown chip.time.hour
  else if register = rtcWeekday then chip.shown chip.time.weekday
  else if register = rtcDay then chip.shown chip.time.day
  else if register = rtcMonth then chip.shown chip.time.month
  else if register = rtcYear then chip.shown (chip.time.year - 2000).toUInt8
  else if register = rtcStatusB then chip.statusB
  else 0

def read (chip : Chip) : UInt8 × Chip :=
  if chip.index = rtcStatusA then
    (chip.statusA 0,
      { chip with
        statusA := advance chip.statusA 1
        updatesEnd := by
          intro index
          have ends := chip.updatesEnd (1 + index)
          simpa only [advance, Nat.add_assoc] using ends })
  else (chip.register chip.index, chip)

/-- Of the registers only status B is ever written. -/
def write (value : UInt8) (chip : Chip) : Chip :=
  if chip.index = rtcStatusB then { chip with statusB := value } else chip

end Chip

/-- The clock and the mask of the second interrupt controller. -/
structure Board where
  chip : Chip
  mask : UInt8

namespace Board

def portByteIn (port : UInt16) (board : Board) : UInt8 × Board :=
  if port = rtcDataPort then
    let (value, chip) := board.chip.read
    (value, { board with chip := chip })
  else if port = pic2Data then (board.mask, board)
  else (0, board)

def portByteOut (port : UInt16) (value : UInt8) (board : Board) : Board :=
  if port = rtcIndexPort then { board with chip.index := value }
  else if port = rtcDataPort then { board with chip := board.chip.write value }
  else if port = pic2Data then { board with mask := value }
  else board

def ports : Ports Board where
  byteIn := portByteIn
  byteOut := portByteOut

/-- What a driver comes to on the board, and the board behind it. -/
def perform {Result : Type} (board : Board) (driver : Driver Result) : Option (Result × Board) :=
  driver.outcome ports.answers board

end Board

/-- `rtc_read_time` behind `rtc_init` returns with a time. -/
def Reads (board : Board) (time : RTCTime) : Prop :=
  ∃ first second initial between last,
    board.perform (rtcInit first) = some (initial, between) ∧
      between.perform (rtcReadTime second) = some (time, last)

/-! ### What the functions return -/

theorem toNat_rtcBcdToBin (bcd : UInt8) :
    (rtcBcdToBin bcd).toNat = 10 * (bcd.toNat / 16) + bcd.toNat % 16 := by
  have bound := bcd.toNat_lt
  have high : ((bcd &&& 0xF0) >>> 4).toNat = bcd.toNat / 16 := by
    rw [UInt8.toNat_shiftRight, UInt8.toNat_and]
    show (bcd.toNat &&& 0xF0) >>> 4 = _
    rw [Nat.shiftRight_and_distrib]
    show bcd.toNat >>> 4 &&& 2 ^ 4 - 1 = _
    rw [Nat.and_two_pow_sub_one_eq_mod, Nat.shiftRight_eq_div_pow]
    omega
  have low : (bcd &&& 0x0F).toNat = bcd.toNat % 16 := by
    rw [UInt8.toNat_and]
    exact Nat.and_two_pow_sub_one_eq_mod bcd.toNat 4
  rw [rtcBcdToBin, UInt8.toNat_add, UInt8.toNat_mul, high, low]
  show (bcd.toNat / 16 * 10 % 256 + bcd.toNat % 16) % 256 = _
  omega

/-- Binary and decimal digits agree below 16. -/
theorem rtcBcdToBin_eq_iff (value : UInt8) : rtcBcdToBin value = value ↔ value.toNat < 16 := by
  rw [← UInt8.toNat_inj, toNat_rtcBcdToBin]
  omega

theorem rtcBcdToBin_decimal {value : UInt8} (digits : value.toNat < 100) :
    rtcBcdToBin (Chip.decimal value) = value := by
  rw [← UInt8.toNat_inj, toNat_rtcBcdToBin, Chip.decimal, UInt8.toNat_ofNat']
  omega

/-- The board with the chip at another register. -/
def Board.at (board : Board) (reg : UInt8) : Board := { board with chip.index := reg }

theorem perform_bind {Result Final : Type} (board : Board) (driver : Driver Result)
    (later : Result → Driver Final) :
    board.perform (driver >>= later) =
      (board.perform driver).bind fun ended => ended.2.perform (later ended.1) :=
  Dialogue.outcome_bind driver later board

theorem perform_pure {Result : Type} (board : Board) (result : Result) :
    board.perform (pure result) = some (result, board) := rfl

theorem perform_rtcReadRegister (board : Board) {reg : UInt8} (other : reg ≠ rtcStatusA) :
    board.perform (rtcReadRegister reg) = some (board.chip.register reg, board.at reg) := by
  have read : (board.at reg).chip.read = (board.chip.register reg, (board.at reg).chip) :=
    if_neg other
  show some ((board.at reg).portByteIn rtcDataPort) = _
  rw [Board.portByteIn, if_pos rfl, read]

@[simp] theorem register_at (board : Board) (reg other : UInt8) :
    (board.at reg).chip.register other = board.chip.register other := rfl

/-- What the decoding makes of the registers of a chip. -/
def decoded (chip : Chip) : RTCTime where
  second := rtcBcdToBin (chip.shown chip.time.second)
  minute := rtcBcdToBin (chip.shown chip.time.minute)
  hour := rtcBcdToBin (chip.shown chip.time.hour)
  day := rtcBcdToBin (chip.shown chip.time.day)
  month := rtcBcdToBin (chip.shown chip.time.month)
  year := (rtcBcdToBin (chip.shown (chip.time.year - 2000).toUInt8)).toUInt16 + 2000
  weekday := rtcBcdToBin (chip.shown chip.time.weekday)

/-- Two boards whose clocks hold the same time in the same mode. -/
structure SameClock (before after : Board) : Prop where
  time : after.chip.time = before.chip.time
  statusB : after.chip.statusB = before.chip.statusB

theorem rtcReadFields_spec (board : Board) :
    ∃ last, board.perform rtcReadFields = some (decoded board.chip, last) ∧
      SameClock board last := by
  simp only [rtcReadFields, perform_bind, perform_pure, Option.bind_some, register_at,
    perform_rtcReadRegister _ (show rtcSeconds ≠ rtcStatusA by decide),
    perform_rtcReadRegister _ (show rtcMinutes ≠ rtcStatusA by decide),
    perform_rtcReadRegister _ (show rtcHours ≠ rtcStatusA by decide),
    perform_rtcReadRegister _ (show rtcDay ≠ rtcStatusA by decide),
    perform_rtcReadRegister _ (show rtcMonth ≠ rtcStatusA by decide),
    perform_rtcReadRegister _ (show rtcYear ≠ rtcStatusA by decide),
    perform_rtcReadRegister _ (show rtcWeekday ≠ rtcStatusA by decide)]
  exact ⟨_, rfl, rfl, rfl⟩

theorem SameClock.decoded {before after : Board} (same : SameClock before after) :
    decoded after.chip = decoded before.chip := by
  simp only [Clocks.decoded, Chip.shown, same.time, same.statusB]

/-- The board behind a look at status A. -/
def Board.looked (board : Board) : Board := ((board.at rtcStatusA).portByteIn rtcDataPort).2

theorem looked_same (board : Board) : SameClock board board.looked where
  time := rfl
  statusB := rfl

/-- One pass of the wait. -/
theorem perform_rtcAwait (passes : Nat) (board : Board) :
    board.perform (rtcAwait (passes + 1)) =
      if board.chip.statusA 0 &&& 0x80 ≠ 0 then board.looked.perform (rtcAwait passes)
      else some ((), board.looked) := by
  show board.looked.perform
    (if board.chip.statusA 0 &&& 0x80 ≠ 0 then rtcAwait passes else pure ()) = _
  split
  · rfl
  · exact perform_pure _ _

theorem rtcAwait_same {passes : Nat} {board : Board} {ended : Unit × Board}
    (ends : board.perform (rtcAwait passes) = some ended) : SameClock board ended.2 := by
  induction passes generalizing board with
  | zero => cases ends
  | succ passes inductionHypothesis =>
      have once := looked_same board
      rw [perform_rtcAwait] at ends
      split at ends
      · have rest := inductionHypothesis ends
        exact ⟨rest.time.trans once.time, rest.statusB.trans once.statusB⟩
      · rw [← Option.some.inj ends]
        exact once

/-- The wait ends because the updates do. The induction is on the number of
updates still to be seen. -/
theorem rtcAwait_ends (board : Board) :
    ∃ passes ended, board.perform (rtcAwait passes) = some ended := by
  obtain ⟨count, clear⟩ := board.chip.updatesEnd 0
  rw [Nat.zero_add] at clear
  induction count generalizing board with
  | zero =>
      refine ⟨1, ((), board.looked), ?_⟩
      rw [perform_rtcAwait, if_neg fun updating => updating clear]
  | succ count inductionHypothesis =>
      by_cases ended : board.chip.statusA 0 &&& 0x80 = 0
      · refine ⟨1, ((), board.looked), ?_⟩
        rw [perform_rtcAwait, if_neg fun updating => updating ended]
      · have clearLater : board.looked.chip.statusA count &&& 0x80 = 0 := by
          show board.chip.statusA (1 + count) &&& 0x80 = 0
          rw [Nat.add_comm]
          exact clear
        obtain ⟨passes, later, ends⟩ := inductionHypothesis board.looked clearLater
        refine ⟨passes + 1, later, ?_⟩
        rw [perform_rtcAwait, if_pos ended, ends]

theorem rtcReadTime_some {passes : Nat} {board last : Board} {time : RTCTime}
    (returns : board.perform (rtcReadTime passes) = some (time, last)) :
    time = decoded board.chip ∧ SameClock board last := by
  rw [rtcReadTime, perform_bind] at returns
  obtain ⟨ended, ends, read⟩ := Option.bind_eq_some_iff.mp returns
  have same := rtcAwait_same ends
  obtain ⟨later, fields, kept⟩ := rtcReadFields_spec ended.2
  rw [fields, same.decoded] at read
  cases read
  exact ⟨rfl, kept.time.trans same.time, kept.statusB.trans same.statusB⟩

theorem rtcReadTime_returns (board : Board) :
    ∃ passes last, board.perform (rtcReadTime passes) = some (decoded board.chip, last) := by
  obtain ⟨passes, ended, ends⟩ := rtcAwait_ends board
  obtain ⟨last, fields, _⟩ := rtcReadFields_spec ended.2
  refine ⟨passes, last, ?_⟩
  rw [rtcReadTime, perform_bind, ends, Option.bind_some, fields, (rtcAwait_same ends).decoded]

/-- The chip with the mode that `rtc_init` selects. -/
def Chip.selected (chip : Chip) : Chip :=
  { chip with statusB := chip.statusB ||| 0x02 ||| 0x04 }

theorem rtcInit_selects (board : Board) :
    ∃ selected : Board,
      (∀ passes, board.perform (rtcInit passes) = selected.perform (rtcReadTime passes)) ∧
        decoded selected.chip = decoded board.chip.selected :=
  ⟨_, fun _ => rfl, rfl⟩

/-- Both waits end, and what is read is what the decoding makes of the registers. -/
theorem reads_iff (board : Board) (time : RTCTime) :
    Reads board time ↔ time = decoded board.chip.selected := by
  obtain ⟨selected, starts, same⟩ := rtcInit_selects board
  rw [← same]
  constructor
  · rintro ⟨first, second, initial, between, last, init, returns⟩
    rw [starts] at init
    rw [(rtcReadTime_some returns).1, (rtcReadTime_some init).2.decoded]
  · intro read
    obtain ⟨first, between, init⟩ := rtcReadTime_returns selected
    obtain ⟨second, last, returns⟩ := rtcReadTime_returns between
    refine ⟨first, second, _, between, last, by rw [starts]; exact init, ?_⟩
    rw [returns, (rtcReadTime_some init).2.decoded, read]

theorem binary_selected (status : UInt8) : (status ||| 0x02 ||| 0x04) &&& 0x04 ≠ 0 := by
  intro clear
  have bit := congrArg (fun value : UInt8 => value.toNat.testBit 2) clear
  simp only [UInt8.toNat_and, UInt8.toNat_or, Nat.testBit_and, Nat.testBit_or,
    show Nat.testBit (UInt8.toNat 0x04) 2 = true from rfl, Bool.or_true, Bool.and_true] at bit
  exact absurd bit (by decide)

/-! ### Binary registers read as decimal ones -/

/-- The fields that can reach 16 are all below it. -/
structure BelowSixteen (time : RTCTime) : Prop where
  second : time.second.toNat < 16
  minute : time.minute.toNat < 16
  hour : time.hour.toNat < 16
  day : time.day.toNat < 16
  year : time.year.toNat < 2016

theorem yearsSince (time : HeldTime) :
    (time.year - 2000).toUInt8.toNat = time.year.toNat - 2000 ∧
      2000 ≤ time.year.toNat ∧ time.year.toNat ≤ 2099 := by
  have held := time.year_le
  refine ⟨?_, held⟩
  rw [UInt16.toNat_toUInt8, UInt16.toNat_sub]
  show (65536 - 2000 + time.year.toNat) % 65536 % 256 = _
  omega

theorem decoded_eq_iff {chip : Chip} (binary : chip.statusB &&& 0x04 ≠ 0) :
    decoded chip = chip.time.toRTCTime ↔ BelowSixteen chip.time.toRTCTime := by
  have shown : ∀ value, chip.shown value = value := fun value => if_neg binary
  have month : rtcBcdToBin chip.time.month = chip.time.month := by
    rw [rtcBcdToBin_eq_iff]
    have bound := chip.time.month_le
    omega
  have weekday : rtcBcdToBin chip.time.weekday = chip.time.weekday := by
    rw [rtcBcdToBin_eq_iff]
    have bound := chip.time.weekday_le
    omega
  have year : (rtcBcdToBin (chip.time.year - 2000).toUInt8).toUInt16 + 2000 = chip.time.year ↔
      chip.time.year.toNat < 2016 := by
    obtain ⟨since, held⟩ := yearsSince chip.time
    rw [← UInt16.toNat_inj, UInt16.toNat_add, UInt8.toNat_toUInt16, toNat_rtcBcdToBin, since]
    show (_ + 2000) % 65536 = _ ↔ _
    omega
  calc decoded chip = chip.time.toRTCTime
      ↔ rtcBcdToBin chip.time.second = chip.time.second ∧
          rtcBcdToBin chip.time.minute = chip.time.minute ∧
          rtcBcdToBin chip.time.hour = chip.time.hour ∧
          rtcBcdToBin chip.time.day = chip.time.day ∧
          (rtcBcdToBin (chip.time.year - 2000).toUInt8).toUInt16 + 2000 = chip.time.year := by
        simp [decoded, shown, RTCTime.ext_iff, month, weekday]
    _ ↔ BelowSixteen chip.time.toRTCTime := by
        simp only [rtcBcdToBin_eq_iff, year]
        constructor
        · intro below
          exact ⟨below.1, below.2.1, below.2.2.1, below.2.2.2.1, below.2.2.2.2⟩
        · intro below
          exact ⟨below.second, below.minute, below.hour, below.day, below.year⟩

/-- A chip in decimal mode is read right. -/
theorem decoded_decimal {chip : Chip} (decimal : chip.statusB &&& 0x04 = 0) :
    decoded chip = chip.time.toRTCTime := by
  have shown : ∀ value, chip.shown value = Chip.decimal value := fun value => if_pos decimal
  obtain ⟨since, first, last⟩ := yearsSince chip.time
  have year : (chip.time.year - 2000).toUInt8.toUInt16 + 2000 = chip.time.year := by
    rw [← UInt16.toNat_inj, UInt16.toNat_add, UInt8.toNat_toUInt16, since]
    show (_ + 2000) % 65536 = _
    omega
  have second := chip.time.second_lt
  have minute := chip.time.minute_lt
  have hour := chip.time.hour_lt
  have day := chip.time.day_le
  have month := chip.time.month_le
  have weekday := chip.time.weekday_le
  rw [decoded]
  simp only [shown]
  rw [rtcBcdToBin_decimal (by omega), rtcBcdToBin_decimal (by omega),
    rtcBcdToBin_decimal (by omega), rtcBcdToBin_decimal (by omega),
    rtcBcdToBin_decimal (by omega), rtcBcdToBin_decimal (by omega),
    rtcBcdToBin_decimal (by omega), year]

theorem rtcReadTime_decimal (board : Board) (decimal : board.chip.statusB &&& 0x04 = 0) :
    ∃ passes last,
      board.perform (rtcReadTime passes) = some (board.chip.time.toRTCTime, last) := by
  rw [← decoded_decimal decimal]
  exact rtcReadTime_returns board

/-- `rtc_read_time` behind `rtc_init` returns the time that the clock holds exactly
when no field of it has two digits in base 16. -/
theorem clock_read_iff (board : Board) :
    Reads board board.chip.time.toRTCTime ↔ BelowSixteen board.chip.time.toRTCTime := by
  rw [reads_iff, eq_comm]
  exact decoded_eq_iff (binary_selected board.chip.statusB)

/-- A quarter past midnight is read right, 16 minutes past is not. -/
theorem sixteen_minutes_misread :
    ¬ ∀ board : Board, Reads board board.chip.time.toRTCTime := by
  intro always
  let sixteen : HeldTime :=
    { second := 0
      minute := 16
      hour := 0
      day := 1
      month := 1
      year := 2000
      weekday := 7
      second_lt := by decide
      minute_lt := by decide
      hour_lt := by decide
      day_le := by decide
      month_le := by decide
      year_le := by decide
      weekday_le := by decide }
  let board : Board :=
    { chip :=
        { index := 0
          statusB := 0x02
          statusA := fun _ => 0x26
          updatesEnd := fun _ => ⟨0, by decide⟩
          time := sixteen }
      mask := 0xFF }
  have read := congrArg RTCTime.minute ((reads_iff board _).mp (always board))
  exact absurd read (by decide)

end NansOS.Clocks
