import NansOS.Boot.Board

/-! Owns the safety of the boot: a precondition and a postcondition for each part
of `kernel_main`, put together along it. Up to `pic_init` nothing enables
interrupts; behind it nothing but masks is written to the controllers, so that
whatever the other devices answer, they stay ready. -/

namespace NansOS.Boot

open NansOS.Foundation
open NansOS.Interrupts (gateAt idtInitMemory interruptGate)

variable {Result Final : Type} {before between after : Board → Prop}

/-- From a board as in `before`, the driver keeps the monitor safe, and leaves a
board as in `after` if it comes to its end. -/
def Brings (before after : Board → Prop) (driver : Driver Result) : Prop :=
  ∀ board, before board →
    driver.Ensures Board.monitor (fun result board => result ≠ none → after board) board

theorem Brings.followed {driver : Driver Result} {later : Result → Driver Final}
    (first : Brings before between driver)
    (onward : ∀ result, Brings between after (later result)) :
    Brings before after (driver >>= later) := by
  intro board holds
  apply (first board holds).followed
  · exact fun result board holds => onward result board (holds nofun)
  · exact fun _ _ absent => absurd rfl absent

theorem Brings.imp {driver : Driver Result} {weaker : Board → Prop}
    (brings : Brings before after driver) (weakens : ∀ board, after board → weaker board) :
    Brings before weaker driver := by
  intro board holds
  exact (brings board holds).imp fun result board last ends => weakens board (last ends)

/-- A condition that the monitor's safety follows from, and that some requests keep. -/
structure KeptBy (invariant : Board → Prop) (property : Request → Prop) : Prop where
  kept : ∀ board request reply, invariant board → property request →
    Board.monitor.allows board request reply → invariant (board.note ⟨request, reply⟩)
  safe : ∀ board, invariant board → Board.monitor.safe board

theorem KeptBy.brings {invariant : Board → Prop} {property : Request → Prop}
    (keeps : KeptBy invariant property) {driver : Driver Result}
    (requests : driver.Requests property) : Brings invariant invariant driver := by
  intro board holds
  exact (requests.ensures keeps.kept keeps.safe holds).imp fun _ _ last _ => last

/-! ### What drivers request -/

/-- The ports of the chips. -/
def picPorts : List UInt16 := [pic1Command, pic2Command, pic1Data, pic2Data]

/-- A request that leaves chips and table register alone. -/
def Harmless : Request → Prop
  | .byteOut port _ => port ∉ picPorts
  | .lidt => False
  | _ => True

/-- And one that leaves the interrupt flag alone, too. -/
def Quiet (request : Request) : Prop := Harmless request ∧ request ≠ .cli ∧ request ≠ .sti

theorem quiet_byteOut {port : UInt16} {value : UInt8} :
    Quiet (.byteOut port value) ↔ port ∉ picPorts :=
  and_iff_left ⟨nofun, nofun⟩

theorem quiet_byteIn {port : UInt16} : Quiet (.byteIn port) ↔ True :=
  iff_true_intro ⟨trivial, nofun, nofun⟩

section Requests

variable {property : Request → Prop} {port : UInt16}

@[simp] theorem requests_pure (result : Result) :
    (pure result : Driver Result).Requests property ↔ True :=
  Iff.rfl

@[simp] theorem requests_byteOut {value : UInt8} :
    (portByteOut port value).Requests property ↔ property (.byteOut port value) :=
  and_iff_left fun _ => trivial

@[simp] theorem requests_byteOut_bind {value : UInt8} {later : Unit → Driver Final} :
    (portByteOut port value >>= later).Requests property ↔
      property (.byteOut port value) ∧ (later ()).Requests property :=
  and_congr_right fun _ => ⟨fun every => every (), fun here _ => here⟩

@[simp] theorem requests_byteIn :
    (portByteIn port).Requests property ↔ property (.byteIn port) :=
  and_iff_left fun _ => trivial

@[simp] theorem requests_byteIn_bind {later : UInt8 → Driver Final} :
    (portByteIn port >>= later).Requests property ↔
      property (.byteIn port) ∧ ∀ value, (later value).Requests property :=
  Iff.rfl

end Requests

theorem quiet_serialWriteString (passes : Nat) (text : List UInt8) :
    (serialWriteString passes com1Port text).Requests Quiet := by
  have spared : com1Port ∉ picPorts := by decide
  exact requests_serialWriteString (quiet_byteIn.mpr trivial)
    (fun _ => quiet_byteOut.mpr spared) passes text

theorem quiet_say (passes : Nat) (message : String) : (say passes message).Requests Quiet :=
  quiet_serialWriteString passes _

theorem quiet_debugPrint (passes : Nat) (message : String) :
    (debugPrint passes message).Requests Quiet :=
  (quiet_say passes _).bind fun _ => quiet_say passes _

theorem quiet_serialInit : (serialInit com1Port serialBaud115200).Requests Quiet := by
  simp only [serialInit, requests_byteOut_bind, requests_byteOut, quiet_byteOut]
  decide

theorem quiet_rtcReadRegister (reg : UInt8) : (rtcReadRegister reg).Requests Quiet := by
  simp only [rtcReadRegister, requests_byteOut_bind, requests_byteIn, quiet_byteOut, quiet_byteIn]
  decide

theorem quiet_rtcWriteRegister (reg value : UInt8) :
    (rtcWriteRegister reg value).Requests Quiet := by
  simp only [rtcWriteRegister, requests_byteOut_bind, requests_byteOut, quiet_byteOut]
  decide

theorem quiet_rtcAwait (passes : Nat) : (rtcAwait passes).Requests Quiet := by
  induction passes with
  | zero => trivial
  | succ passes inductionHypothesis =>
      have looks : rtcUpdateInProgress.Requests Quiet :=
        (quiet_rtcReadRegister _).bind fun _ => trivial
      apply looks.bind
      intro updating
      split_ifs
      · exact inductionHypothesis
      · trivial

theorem quiet_rtcReadTime (passes : Nat) : (rtcReadTime passes).Requests Quiet := by
  apply (quiet_rtcAwait passes).bind
  intro _
  simp only [rtcReadFields, rtcReadRegister, bind_assoc, requests_byteOut_bind,
    requests_byteIn_bind, requests_pure, quiet_byteOut, quiet_byteIn, forall_const, and_true,
    true_and]
  decide

theorem quiet_rtcEnableInterrupt : rtcEnableInterrupt.Requests Quiet := by
  apply (quiet_rtcReadRegister _).bind
  intro status
  apply (quiet_rtcWriteRegister _ _).bind
  intro _
  exact (quiet_rtcReadRegister _).bind fun _ => trivial

theorem quiet_pitSetFrequency (hz : UInt32) : (pitSetFrequency hz).Requests Quiet := by
  unfold pitSetFrequency
  split_ifs
  · trivial
  · simp only [requests_byteOut_bind, requests_byteOut, quiet_byteOut]
    decide

theorem quiet_awaitRoom (timeout : Nat) : (awaitRoom timeout).Requests Quiet := by
  induction timeout with
  | zero => exact ⟨⟨trivial, nofun, nofun⟩, fun _ => trivial⟩
  | succ timeout inductionHypothesis =>
      refine ⟨⟨trivial, nofun, nofun⟩, fun (status : UInt8) => ?_⟩
      change (if status &&& 2 ≠ 0 then awaitRoom timeout else pure (timeout + 1)).Requests Quiet
      split_ifs
      · exact inductionHypothesis
      · trivial

theorem quiet_flushOutput (passes : Nat) : (flushOutput passes).Requests Quiet := by
  induction passes with
  | zero => trivial
  | succ passes inductionHypothesis =>
      refine ⟨⟨trivial, nofun, nofun⟩, fun (status : UInt8) => ?_⟩
      change (if status &&& 1 ≠ 0 then portByteIn dataPort >>= fun _ => flushOutput passes
        else pure ()).Requests Quiet
      split_ifs
      · exact ⟨⟨trivial, nofun, nofun⟩, fun _ => inductionHypothesis⟩
      · trivial

theorem quiet_pollReply (accepts : UInt8 → Bool) (polls : Nat) :
    (pollReply accepts polls).Requests Quiet := by
  induction polls with
  | zero => trivial
  | succ polls inductionHypothesis =>
      refine ⟨⟨trivial, nofun, nofun⟩, fun (status : UInt8) => ?_⟩
      change (if status &&& 1 ≠ 0 then portByteIn dataPort >>= fun reply =>
          if accepts reply then pure (some reply) else pollReply accepts polls
        else pollReply accepts polls).Requests Quiet
      split_ifs
      · refine ⟨⟨trivial, nofun, nofun⟩, fun (reply : UInt8) => ?_⟩
        change (if accepts reply then pure (some reply) else pollReply accepts polls).Requests Quiet
        split_ifs
        · trivial
        · exact inductionHypothesis
      · exact inductionHypothesis

/-! ### Before the controllers are ready -/

/-- Interrupts are off. -/
def Masked (board : Board) : Prop := board.interrupts = false

/-- And the table register is loaded. -/
def Loaded (board : Board) : Prop := board.interrupts = false ∧ board.table = true

theorem Board.write_interrupts (board : Board) (port : UInt16) (value : UInt8) :
    (board.write port value).interrupts = board.interrupts := by
  unfold Board.write
  split_ifs <;> rfl

theorem Board.write_table (board : Board) (port : UInt16) (value : UInt8) :
    (board.write port value).table = board.table := by
  unfold Board.write
  split_ifs <;> rfl

theorem safe_of_masked {board : Board} (masked : Masked board) : Board.monitor.safe board := by
  intro on
  rw [masked] at on
  cases on

theorem masked_keptBy : KeptBy Masked Quiet where
  kept := by
    intro board request reply masked quiet _
    cases request with
    | byteIn port => exact masked
    | byteOut port value => exact (board.write_interrupts port value).trans masked
    | cli => rfl
    | sti => exact absurd rfl quiet.2.2
    | lidt => exact masked
  safe := fun _ => safe_of_masked

theorem loaded_keptBy : KeptBy Loaded Quiet where
  kept := by
    intro board request reply loaded quiet _
    cases request with
    | byteIn port => exact loaded
    | byteOut port value =>
        exact ⟨(board.write_interrupts port value).trans loaded.1,
          (board.write_table port value).trans loaded.2⟩
    | cli => exact ⟨rfl, loaded.2⟩
    | sti => exact absurd rfl quiet.2.2
    | lidt => exact ⟨loaded.1, rfl⟩
  safe := fun _ loaded => safe_of_masked loaded.1

theorem brings_idtInit (passes : Nat) : Brings Masked Loaded (idtInit passes) := by
  have loads : Brings Masked Loaded (Dialogue.request Request.lidt : Driver Unit) := by
    intro board masked
    exact ⟨safe_of_masked masked, fun _ _ => ⟨safe_of_masked masked, fun _ => ⟨masked, rfl⟩⟩⟩
  exact loads.followed fun _ => loaded_keptBy.brings (quiet_say passes _)

/-! ### Behind the controllers' initialization -/

/-- The controllers are ready, the master lets the timer, the keyboard and the
slave through, and the slave's mask is as given. -/
structure Settled (slaveMask : UInt8 → Prop) (board : Board) : Prop where
  ready : board.Ready
  masterMask : board.master.mask = 0xF8
  slave : slaveMask board.slave.mask

/-- The interrupt flag is not part of it. -/
theorem Settled.at {slaveMask : UInt8 → Prop} {board : Board} (settled : Settled slaveMask board)
    (interrupts : Bool) : Settled slaveMask { board with interrupts := interrupts } where
  ready :=
    { master := settled.ready.master
      slave := settled.ready.slave
      table := settled.ready.table }
  masterMask := settled.masterMask
  slave := settled.slave

theorem Board.write_elsewhere (board : Board) {port : UInt16} {value : UInt8}
    (other : port ∉ picPorts) : board.write port value = board := by
  simp only [picPorts, List.mem_cons, List.not_mem_nil, or_false, not_or] at other
  obtain ⟨first, second, third, fourth⟩ := other
  simp only [Board.write, if_neg first, if_neg second, if_neg third, if_neg fourth]

theorem settled_keptBy (slaveMask : UInt8 → Prop) : KeptBy (Settled slaveMask) Harmless where
  kept := by
    intro board request reply settled harmless _
    cases request with
    | byteIn port => exact settled
    | byteOut port value =>
        change Settled slaveMask (board.write port value)
        rw [board.write_elsewhere harmless]
        exact settled
    | cli => exact settled.at false
    | sti => exact settled.at true
    | lidt => exact harmless.elim
  safe := fun _ settled _ => settled.ready

/-- One slow write while interrupts are off. -/
theorem ensures_portByteOutSlowly {promise : Option Final → Board → Prop} {board : Board}
    {port : UInt16} {value : UInt8} {later : Unit → Driver Final} (loaded : Loaded board)
    (onward : Loaded (board.write port value) →
      (later ()).Ensures Board.monitor promise (board.write port value)) :
    (portByteOutSlowly port value >>= later).Ensures Board.monitor promise board := by
  have still : Loaded (board.write port value) :=
    ⟨(board.write_interrupts port value).trans loaded.1,
      (board.write_table port value).trans loaded.2⟩
  have waited : (board.write port value).write 0x80 0 = board.write port value :=
    Board.write_elsewhere _ (by decide)
  refine ⟨safe_of_masked loaded.1, fun _ _ => ⟨safe_of_masked still.1, fun _ _ => ?_⟩⟩
  change (later ()).Ensures Board.monitor promise ((board.write port value).write 0x80 0)
  rw [waited]
  exact onward still

/-- The boards along `pic_init`, from any chips. -/
def initialized (board : Board) : Board :=
  [(pic1Command, icw1Init ||| icw1Icw4), (pic2Command, icw1Init ||| icw1Icw4), (pic1Data, 0x20),
    (pic2Data, 0x28), (pic1Data, 4), (pic2Data, 2), (pic1Data, icw4Mode8086),
    (pic2Data, icw4Mode8086), (pic1Data, 0xF8), (pic2Data, 0xFF)].foldl
    (fun board write => board.write write.1 write.2) board

theorem initialized_settled {board : Board} (loaded : Loaded board) :
    Settled (fun mask => mask = 0xFF) (initialized board) where
  ready :=
    { master := ⟨rfl, rfl, rfl, rfl⟩
      slave := ⟨rfl, rfl, rfl, rfl⟩
      table := loaded.2 }
  masterMask := rfl
  slave := rfl

theorem brings_picInit : Brings Loaded (Settled fun mask => mask = 0xFF) picInit := by
  intro board loaded
  have settled := initialized_settled loaded
  refine ⟨safe_of_masked loaded.1, fun _ _ => ⟨safe_of_masked loaded.1, fun _ _ => ?_⟩⟩
  iterate 9
    apply ensures_portByteOutSlowly loaded
    intro loaded
  rw [← bind_pure (portByteOutSlowly pic2Data 0xFF)]
  apply ensures_portByteOutSlowly loaded
  intro loaded
  exact ⟨safe_of_masked loaded.1, fun _ => settled⟩

/-! ### Opening lines -/

/-- A line of the master that is open stays open. -/
theorem brings_picClearMask_master {slaveMask : UInt8 → Prop} {irq : UInt8}
    (port : (maskBit irq).1 = pic1Data)
    (opened : ((0xF8 : UInt8).toUInt32 &&& ~~~ (maskBit irq).2).toUInt8 = 0xF8) :
    Brings (Settled slaveMask) (Settled slaveMask) (picClearMask irq) := by
  intro board settled
  have safe := (settled_keptBy slaveMask).safe
  refine ⟨safe board settled, fun (value : UInt8) allowed => ?_⟩
  have read : value = 0xF8 := by
    rw [← settled.masterMask]
    exact allowed.1 port
  subst read
  have written : board.write (maskBit irq).1
      ((0xF8 : UInt8).toUInt32 &&& ~~~ (maskBit irq).2).toUInt8 = board := by
    rw [port, opened, Board.write, if_neg (by decide), if_neg (by decide), if_pos rfl,
      settled.ready.master.data, ← settled.masterMask]
  refine ⟨safe board settled, fun _ _ => ?_⟩
  change (pure () : Driver Unit).Ensures Board.monitor _ (board.write _ _)
  rw [written]
  exact ⟨safe board settled, fun _ => settled⟩

/-- A line of the slave is opened in its mask. -/
theorem brings_picClearMask_slave {before after : UInt8 → Prop} {irq : UInt8}
    (port : (maskBit irq).1 = pic2Data)
    (opened : ∀ mask, before mask → after (mask.toUInt32 &&& ~~~ (maskBit irq).2).toUInt8) :
    Brings (Settled before) (Settled after) (picClearMask irq) := by
  intro board settled
  have safe := (settled_keptBy before).safe
  refine ⟨safe board settled, fun (value : UInt8) allowed => ⟨safe board settled, fun _ _ => ?_⟩⟩
  have read : value = board.slave.mask := allowed.2 port
  subst read
  have reached : Settled after (board.write (maskBit irq).1
      (board.slave.mask.toUInt32 &&& ~~~ (maskBit irq).2).toUInt8) := by
    rw [port, Board.write, if_neg (by decide), if_neg (by decide), if_neg (by decide), if_pos rfl,
      settled.ready.slave.data]
    exact
      { ready :=
          { master := settled.ready.master
            slave := settled.ready.slave.masked _
            table := settled.ready.table }
        masterMask := settled.masterMask
        slave := opened _ settled.slave }
  exact ⟨(settled_keptBy after).safe _ reached, fun _ => reached⟩

/-! ### Drivers behind the initialization -/

theorem brings_quiet {slaveMask : UInt8 → Prop} {driver : Driver Result}
    (quiet : driver.Requests Quiet) : Brings (Settled slaveMask) (Settled slaveMask) driver :=
  (settled_keptBy slaveMask).brings (quiet.imp fun _ both => both.1)

theorem brings_behind {slaveMask : UInt8 → Prop} {driver : Driver Result}
    {later : Result → Driver Final} (quiet : driver.Requests Quiet)
    (onward : ∀ result, Brings (Settled slaveMask) after (later result)) :
    Brings (Settled slaveMask) after (driver >>= later) :=
  (brings_quiet quiet).followed onward

theorem brings_asmCli {slaveMask : UInt8 → Prop} :
    Brings (Settled slaveMask) (Settled slaveMask) asmCli :=
  (settled_keptBy slaveMask).brings ⟨trivial, fun _ => trivial⟩

theorem brings_asmSti {slaveMask : UInt8 → Prop} :
    Brings (Settled slaveMask) (Settled slaveMask) asmSti :=
  (settled_keptBy slaveMask).brings ⟨trivial, fun _ => trivial⟩

theorem brings_giveUp {slaveMask : UInt8 → Prop} (passes : Nat) (message : String) :
    Brings (Settled slaveMask) (Settled slaveMask) (giveUp passes message) :=
  (brings_quiet (quiet_say passes message)).followed fun _ => brings_asmSti

theorem brings_pitInit (passes : Nat) :
    Brings (Settled fun mask => mask = 0xFF) (Settled fun mask => mask = 0xFF)
      (pitInit passes pitDefaultHz) := by
  apply brings_behind (quiet_pitSetFrequency _)
  intro _
  apply (brings_picClearMask_master (by decide) (by decide)).followed
  intro _
  exact brings_quiet (quiet_serialWriteString passes _)

/-- The clock's line is open from here on. -/
theorem brings_rtcStart (passes : Nat) :
    Brings (Settled fun mask => mask = 0xFF) (Settled fun mask => mask = 0xFE)
      (rtcStart passes) := by
  have opened : Brings (Settled fun mask => mask = 0xFF) (Settled fun mask => mask = 0xFE)
      (picClearMask rtcIrq) := by
    apply brings_picClearMask_slave (by decide)
    rintro _ rfl
    decide
  have initialized : Brings (Settled fun mask => mask = 0xFF) (Settled fun mask => mask = 0xFE)
      (rtcInit passes) := by
    apply brings_behind (quiet_rtcReadRegister _)
    intro status
    apply brings_behind (quiet_rtcWriteRegister _ _)
    intro _
    apply opened.followed
    intro _
    exact brings_quiet (quiet_rtcReadTime passes)
  apply initialized.followed
  intro _
  exact brings_quiet quiet_rtcEnableInterrupt

/-- The masks that the slave may have at the end: with the mouse's line closed, or
open. -/
def FinalMask (mask : UInt8) : Prop := mask = 0xFE ∨ mask = 0xEE

theorem quiet_controllerOut {port : UInt16} {value : UInt8} (other : port ∉ picPorts) :
    (portByteOut port value).Requests Quiet :=
  requests_byteOut.mpr (quiet_byteOut.mpr other)

theorem quiet_mouseParameters : mouseParameters.Requests Quiet := by
  simp only [mouseParameters, requests_byteOut_bind, requests_byteOut, quiet_byteOut]
  decide

theorem brings_mouseStart (passes : Nat) :
    Brings (Settled FinalMask) (Settled FinalMask) (mouseStart passes) := by
  have opened : Brings (Settled FinalMask) (Settled FinalMask) (picClearMask mouseIrq) := by
    apply brings_picClearMask_slave (by decide)
    rintro _ (rfl | rfl)
    · exact .inr (by decide)
    · exact .inr (by decide)
  have ending : Brings (Settled FinalMask) (Settled FinalMask) (do
      portByteOut statusPort 0xAE
      picClearMask mouseIrq
      say passes "[MOUSE] Interrupt enabled\n"
      asmSti
      say passes "[MOUSE] Initialization complete\n") := by
    apply brings_behind (quiet_controllerOut (by decide))
    intro _
    apply opened.followed
    intro _
    apply brings_behind (quiet_say passes _)
    intro _
    apply brings_asmSti.followed
    intro _
    exact brings_quiet (quiet_say passes _)
  apply brings_behind (quiet_controllerOut (by decide))
  intro _
  apply (brings_quiet quiet_mouseParameters).followed
  intro _
  apply brings_behind (quiet_pollReply _ _)
  intro streaming
  cases streaming with
  | none => exact ending
  | some reply =>
      apply brings_behind (quiet_say passes _)
      exact fun _ => ending

theorem brings_mouseInit (passes : Nat) :
    Brings (Settled FinalMask) (Settled FinalMask) (mouseInit passes) := by
  apply brings_behind (quiet_say passes _)
  intro _
  apply brings_asmCli.followed
  intro _
  apply brings_behind (quiet_controllerOut (by decide))
  intro _
  apply brings_behind (quiet_controllerOut (by decide))
  intro _
  apply brings_behind (quiet_flushOutput passes)
  intro _
  apply brings_behind (quiet_controllerOut (by decide))
  intro _
  apply brings_behind (quiet_pollReply _ _)
  intro reply
  cases reply with
  | none => exact brings_giveUp passes _
  | some config =>
      apply brings_behind (quiet_controllerOut (by decide))
      intro _
      apply brings_behind (quiet_controllerOut (by decide))
      intro _
      apply brings_behind (quiet_say passes _)
      intro _
      exact brings_mouseStart passes

theorem brings_keyboardFinish (passes : Nat) :
    Brings (Settled FinalMask) (Settled FinalMask) (keyboardFinish passes) := by
  apply brings_behind (quiet_say passes _)
  intro _
  apply (brings_picClearMask_master (by decide) (by decide)).followed
  intro _
  apply brings_behind (quiet_say passes _)
  intro _
  apply brings_behind (quiet_say passes _)
  intro _
  apply (brings_mouseInit passes).followed
  intro _
  apply brings_asmSti.followed
  intro _
  exact brings_quiet (quiet_say passes _)

theorem brings_keyboardScan (passes : Nat) :
    Brings (Settled FinalMask) (Settled FinalMask) (keyboardScan passes) := by
  apply brings_behind (quiet_controllerOut (by decide))
  intro _
  apply brings_behind (quiet_pollReply _ _)
  intro enabled
  cases enabled with
  | none => exact brings_giveUp passes _
  | some reply => exact brings_keyboardFinish passes

theorem brings_keyboardTest (passes : Nat) :
    Brings (Settled FinalMask) (Settled FinalMask) (keyboardTest passes) := by
  apply brings_behind (quiet_pollReply _ _)
  intro tested
  cases tested with
  | none => exact brings_giveUp passes _
  | some reply =>
      apply brings_behind (quiet_say passes _)
      exact fun _ => brings_keyboardScan passes

theorem brings_keyboardReset (passes : Nat) :
    Brings (Settled FinalMask) (Settled FinalMask) (keyboardReset passes) := by
  apply brings_behind (quiet_controllerOut (by decide))
  intro _
  apply brings_behind (quiet_controllerOut (by decide))
  intro _
  apply brings_behind (quiet_pollReply _ _)
  intro acknowledged
  cases acknowledged with
  | none => exact brings_giveUp passes _
  | some reply =>
      apply brings_behind (quiet_say passes _)
      exact fun _ => brings_keyboardTest passes

theorem brings_keyboardConfigure (passes : Nat) :
    Brings (Settled FinalMask) (Settled FinalMask) (keyboardConfigure passes) := by
  apply brings_behind (quiet_controllerOut (by decide))
  intro _
  apply brings_behind (quiet_controllerOut (by decide))
  intro _
  apply brings_behind (quiet_flushOutput passes)
  intro _
  apply brings_behind (quiet_controllerOut (by decide))
  intro _
  apply brings_behind (quiet_pollReply _ _)
  intro reply
  cases reply with
  | none => exact brings_giveUp passes _
  | some config =>
      apply brings_behind (quiet_controllerOut (by decide))
      intro _
      apply brings_behind (quiet_controllerOut (by decide))
      intro _
      apply brings_behind (quiet_say passes _)
      exact fun _ => brings_keyboardReset passes

theorem brings_keyboardInit (passes : Nat) :
    Brings (Settled FinalMask) (Settled FinalMask) (keyboardInit passes) := by
  apply brings_behind (quiet_say passes _)
  intro _
  apply brings_asmCli.followed
  intro _
  apply brings_behind (quiet_awaitRoom _)
  intro timeout
  split_ifs
  · exact brings_giveUp passes _
  · exact brings_keyboardConfigure passes

/-! ### The whole boot -/

/-- The end of the boot: ready, with interrupts enabled. -/
def Live (board : Board) : Prop := Settled FinalMask board ∧ board.interrupts = true

theorem live_keptBy : KeptBy Live Quiet where
  kept := by
    intro board request reply live quiet allowed
    refine ⟨(settled_keptBy FinalMask).kept board request reply live.1 quiet.1 allowed, ?_⟩
    cases request with
    | byteIn port => exact live.2
    | byteOut port value => exact (board.write_interrupts port value).trans live.2
    | cli => exact absurd rfl quiet.2.1
    | sti => exact absurd rfl quiet.2.2
    | lidt => exact quiet.1.elim
  safe := fun board live => (settled_keptBy FinalMask).safe board live.1

theorem settled_keptBy_quiet (slaveMask : UInt8 → Prop) : KeptBy (Settled slaveMask) Quiet where
  kept := fun board request reply settled quiet =>
    (settled_keptBy slaveMask).kept board request reply settled quiet.1
  safe := (settled_keptBy slaveMask).safe

/-- The messages around a step of `init_system` change nothing. -/
theorem Brings.announced {step : Driver Unit} (keptBefore : KeptBy before Quiet)
    (keptAfter : KeptBy after Quiet) (brings : Brings before after step) (passes : Nat)
    (starting finished : String) :
    Brings before after (announced passes starting step finished) := by
  apply (keptBefore.brings (quiet_debugPrint passes _)).followed
  intro _
  apply brings.followed
  intro _
  exact keptAfter.brings (quiet_debugPrint passes _)

/-- A step that asks nothing. -/
theorem brings_pure (kept : KeptBy before Quiet) : Brings before before (pure () : Driver Unit) :=
  kept.brings trivial

theorem brings_idtEnableInterrupts (passes : Nat) :
    Brings (Settled FinalMask) Live (idtEnableInterrupts passes) := by
  have enabled : Brings (Settled FinalMask) Live asmSti := by
    intro board settled
    have safe := (settled_keptBy FinalMask).safe
    exact ⟨safe board settled, fun _ _ =>
      ⟨safe _ (settled.at true), fun _ => ⟨settled.at true, rfl⟩⟩⟩
  apply enabled.followed
  intro _
  exact live_keptBy.brings (quiet_say passes _)

/-- The mouse's line may be open from here on. -/
theorem brings_final {driver : Driver Result}
    (brings : Brings (Settled FinalMask) after driver) :
    Brings (Settled fun mask => mask = 0xFE) after driver := by
  intro board settled
  exact brings board
    { ready := settled.ready
      masterMask := settled.masterMask
      slave := .inl settled.slave }

theorem brings_initSystem (passes : Nat) : Brings Masked Live (initSystem passes) := by
  have closed := settled_keptBy_quiet fun mask => mask = 0xFF
  have clock := settled_keptBy_quiet fun mask => mask = 0xFE
  have final := settled_keptBy_quiet FinalMask
  apply (masked_keptBy.brings (quiet_debugPrint passes _)).followed
  intro _
  apply ((brings_pure masked_keptBy).announced masked_keptBy masked_keptBy passes _ _).followed
  intro _
  apply ((brings_pure masked_keptBy).announced masked_keptBy masked_keptBy passes _ _).followed
  intro _
  apply ((brings_idtInit passes).announced masked_keptBy loaded_keptBy passes _ _).followed
  intro _
  apply (brings_picInit.announced loaded_keptBy closed passes _ _).followed
  intro _
  apply ((brings_pitInit passes).announced closed closed passes _ _).followed
  intro _
  apply ((closed.brings quiet_serialInit).announced closed closed passes _ _).followed
  intro _
  apply ((brings_rtcStart passes).announced closed clock passes _ _).followed
  intro _
  apply brings_final
  apply ((brings_keyboardInit passes).announced final final passes _ _).followed
  intro _
  apply ((brings_mouseInit passes).announced final final passes _ _).followed
  intro _
  apply ((brings_idtEnableInterrupts passes).announced final live_keptBy passes _ _).followed
  intro _
  apply (live_keptBy.brings (quiet_debugPrint passes _)).followed
  intro _
  exact live_keptBy.brings (quiet_say passes _)

theorem brings_kernelMain (passes : Nat) : Brings Masked Live (kernelMain passes) := by
  have off : Brings Masked Masked asmCli := by
    intro board masked
    exact ⟨safe_of_masked masked, fun _ _ => ⟨safe_of_masked rfl, fun _ => rfl⟩⟩
  apply off.followed
  intro _
  apply (masked_keptBy.brings quiet_serialInit).followed
  intro _
  apply (masked_keptBy.brings (quiet_say passes _)).followed
  intro _
  apply (masked_keptBy.brings (quiet_say passes _)).followed
  intro _
  apply (brings_initSystem passes).followed
  intro _
  exact live_keptBy.brings (quiet_say passes _)

/-! ### Requests and handlers -/

/-- The board that the boot loader hands over: any chips, and interrupts off. -/
def Board.handedOver (master slave : Pic) : Board where
  interrupts := false
  master := master
  slave := slave
  table := false

/-- A request goes through the descriptor table, with the bytes that `idt_init`
leaves in it, to the handler that the kernel has for it. -/
def Board.Routes (board : Board) (symbol : Interrupts.Isr → UInt64) (idt : Nat) (memory : Memory)
    (irq : Fin 16) : Prop :=
  board.table = true ∧ gateAt (idtInitMemory symbol idt memory) idt (board.vector irq).toNat =
    interruptGate (symbol (Interrupts.idtInit (32 + irq)))

theorem Board.Ready.vector {board : Board} (ready : board.Ready) :
    ∀ irq, (board.vector irq).toNat = 32 + irq.val := by
  intro irq
  rw [Board.vector, ready.master.base, ready.slave.base]
  revert irq
  decide

theorem Board.Ready.routes {board : Board} (ready : board.Ready)
    (symbol : Interrupts.Isr → UInt64) (idt : Nat) (memory : Memory) (irq : Fin 16) :
    board.Routes symbol idt memory irq := by
  have gates := (Interrupts.gateAt_idtInitMemory symbol idt memory)
  refine ⟨ready.table, ?_⟩
  rw [ready.vector irq]
  exact gates (32 + irq.val) (by change 32 + irq.val < 256; omega)

/-- Whatever state the controllers are handed over in and whatever the other devices
answer, interrupts are enabled during the boot only while every request goes to its
handler; and if the boot comes to its end, interrupts are enabled, with the lines of
the timer, the keyboard, the slave and the clock open, that of the mouse possibly
open, and no other. -/
theorem boot_routes_interrupts {World : Type}
    (answer : (request : Request) → World → Reply request × World) (passes : Nat)
    (master slave : Pic) (world : World) (symbol : Interrupts.Isr → UInt64) (idt : Nat)
    (memory : Memory) :
    let conversation :=
      (kernelMain passes).converse (attached answer) (Board.handedOver master slave, world)
    Throughout Board.note
        (fun board => board.interrupts = true → ∀ irq, board.Routes symbol idt memory irq)
        (Board.handedOver master slave) conversation.log ∧
      (conversation.result = some () →
        conversation.world.1.interrupts = true ∧ conversation.world.1.master.mask = 0xF8 ∧
          FinalMask conversation.world.1.slave.mask) := by
  have ensures := brings_kernelMain passes (Board.handedOver master slave) rfl
  obtain ⟨safely, ends, seen⟩ := Dialogue.converse_ensures (attached_respects answer) ensures
    (Board.handedOver master slave, world) rfl
  constructor
  · rw [throughout_iff_leading] at safely ⊢
    intro first leading enabled irq
    exact (safely first leading enabled).routes symbol idt memory irq
  · intro finished
    rw [finished] at ends
    rw [seen]
    obtain ⟨settled, enabled⟩ := ends nofun
    exact ⟨enabled, settled.masterMask, settled.slave⟩

end NansOS.Boot
