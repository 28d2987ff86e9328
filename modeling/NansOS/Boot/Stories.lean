import NansOS.Boot.Controller

/-! Owns what an onlooker of the keyboard controller sees of a driver: the bytes
that go to and come from it, whether each was read after a look at a full buffer
and written with interrupts disabled, and how long the driver has been waiting.
`Tells` gives a driver a language of such stories. Languages are put together
along the driver, so that a story is written down once, where the driver ends. -/

namespace NansOS.Boot

open NansOS.Foundation

/-! ### The onlooker -/

/-- What the controller sees, and the masks that are written meanwhile. -/
inductive Said where
  | command (value : UInt8)
  | data (value : UInt8)
  | heard (value : UInt8)
  | mask (port : UInt16) (value : UInt8)
deriving DecidableEq

/-- What the onlooker remembers. The buffer is `full` directly after a look at
the status that shows it; `waited` counts the passes of a waiting loop, and is
reset by everything else that the processor does. -/
structure Host where
  interrupts : Bool
  full : Bool
  waited : Nat
  story : List Said
  proper : Bool

namespace Host

/-- One more part of the story. -/
def tell (host : Host) (said : Said) (proper : Bool) : Host :=
  { host with
    full := false
    waited := 0
    story := host.story ++ [said]
    proper := host.proper && proper }

/-- Nothing for the story. -/
def look (host : Host) (full : Bool) (waited : Nat) : Host :=
  { host with
    full := full
    waited := waited }

/-- Nothing for the story, and no waiting. -/
def ignore (host : Host) : Host := host.look false 0

/-- A port has been read. -/
def read (host : Host) (port : UInt16) (value : UInt8) : Host :=
  if port = statusPort then
    host.look (decide (value &&& 1 ≠ 0)) (if value &&& 1 = 0 then 0 else host.waited)
  else if port = dataPort then
    (host.tell (.heard value) host.full).look false (host.waited + 1)
  else if port = com1Port + 5 ∧ value &&& 0x20 = 0 then host.look false (host.waited + 1)
  else host.ignore

/-- A port has been written. -/
def write (host : Host) (port : UInt16) (value : UInt8) : Host :=
  if port = statusPort then host.tell (.command value) (!host.interrupts)
  else if port = dataPort then host.tell (.data value) (!host.interrupts)
  else if port = pic1Data ∨ port = pic2Data then host.tell (.mask port value) true
  else host.ignore

def note (host : Host) : Exchange Request Reply → Host
  | ⟨.byteIn port, value⟩ => host.read port value
  | ⟨.byteOut port value, _⟩ => host.write port value
  | ⟨.cli, _⟩ => { host.ignore with interrupts := false }
  | ⟨.sti, _⟩ => { host.ignore with interrupts := true }
  | ⟨.lidt, _⟩ => host.ignore

/-- The controller may answer anything. -/
def monitor : Monitor Request Reply Host where
  allows := fun _ _ _ => True
  note := note
  safe := fun host => host.proper = true

/-- Nothing has happened yet. -/
def initial (interrupts : Bool) : Host where
  interrupts := interrupts
  full := false
  waited := 0
  story := []
  proper := true

/-- Any world will do. -/
theorem monitor_respects {World : Type}
    (answer : (request : Request) → World → Reply request × World) :
    monitor.Respects answer (fun _ _ => True) where
  allowed := fun _ _ => trivial
  seen := fun _ _ => trivial

end Host

/-! ### Drivers and their stories -/

variable {Result Final : Type}

/-- How a driver leaves the onlooker: it has told a story of the language, or has
waited for too long. -/
def Told (passes : Nat) (after : Bool) (language : Result → List Said → Prop)
    (begun : List Said) : Option Result → Host → Prop
  | some result, host =>
      host.proper = true ∧ host.interrupts = after ∧
        ∃ piece, host.story = begun ++ piece ∧ language result piece
  | none, host => passes ≤ host.waited

/-- Started with interrupts as in `before`, the driver leaves them as in `after`,
and tells a story of the language. -/
def Tells (passes : Nat) (before after : Bool) (language : Result → List Said → Prop)
    (driver : Driver Result) : Prop :=
  ∀ host : Host, host.proper = true → host.interrupts = before →
    driver.Ensures Host.monitor (Told passes after language host.story) host

section Rules

variable {passes : Nat} {before between after : Bool}
variable {language stronger : Result → List Said → Prop} {continued : Final → List Said → Prop}

theorem tells_pure {result : Result} (empty : language result []) :
    Tells passes before before language (pure result) := by
  intro host proper interrupts
  exact ⟨proper, proper, interrupts, [], (List.append_nil _).symm, empty⟩

theorem Tells.imp {driver : Driver Result} (tells : Tells passes before after stronger driver)
    (weaker : ∀ result piece, stronger result piece → language result piece) :
    Tells passes before after language driver := by
  intro host proper interrupts
  apply (tells host proper interrupts).imp
  intro result final told
  cases result with
  | none => exact told
  | some result =>
      obtain ⟨kept, flag, piece, same, spoken⟩ := told
      exact ⟨kept, flag, piece, same, weaker result piece spoken⟩

/-- The second driver goes on with the story that the first one has begun. -/
theorem Tells.followed {driver : Driver Result} {later : Result → Driver Final}
    (tells : Tells passes before between language driver)
    (onward : ∀ result piece, language result piece →
      Tells passes between after (fun final rest => continued final (piece ++ rest))
        (later result)) :
    Tells passes before after continued (driver >>= later) := by
  intro host proper interrupts
  apply (tells host proper interrupts).followed
  · rintro result middle ⟨kept, flag, piece, begun, spoken⟩
    apply (onward result piece spoken middle kept flag).imp
    intro final last told
    cases final with
    | none => exact told
    | some final =>
        obtain ⟨keptOn, flagOn, rest, same, spokenOn⟩ := told
        refine ⟨keptOn, flagOn, piece ++ rest, ?_, spokenOn⟩
        rw [same, begun, List.append_assoc]
  · exact fun _ late => late

/-- A driver that adds nothing, and one more. -/
theorem Tells.silently {driver : Driver Unit} {later : Unit → Driver Final}
    (tells : Tells passes before between (fun _ piece => piece = []) driver)
    (onward : Tells passes between after continued (later ())) :
    Tells passes before after continued (driver >>= later) := by
  apply tells.followed
  rintro result piece rfl
  exact onward

/-- A driver with one story, and one more. -/
theorem Tells.adding {said : List Said} {driver : Driver Unit} {later : Unit → Driver Final}
    (tells : Tells passes before between (fun _ piece => piece = said) driver)
    (onward : Tells passes between after (fun final rest => continued final (said ++ rest))
      (later ())) :
    Tells passes before after continued (driver >>= later) := by
  apply tells.followed
  rintro result piece rfl
  exact onward

/-! ### Single requests -/

/-- A request that adds one piece to every story. -/
theorem tells_request {request : Request} {piece : List Said}
    (noted : ∀ (host : Host) (reply : Reply request), host.proper = true →
      host.interrupts = before → (host.note ⟨request, reply⟩).proper = true ∧
        (host.note ⟨request, reply⟩).interrupts = after ∧
          (host.note ⟨request, reply⟩).story = host.story ++ piece) :
    Tells passes before after (fun _ told => told = piece)
      (Dialogue.request request : Driver (Reply request)) := by
  intro host proper interrupts
  refine ⟨proper, fun reply _ => ?_⟩
  obtain ⟨kept, flag, same⟩ := noted host reply proper interrupts
  exact ⟨kept, kept, flag, piece, same, rfl⟩

theorem tells_command (value : UInt8) :
    Tells passes false false (fun _ told => told = [.command value])
      (portByteOut statusPort value) := by
  apply tells_request
  intro host _ proper interrupts
  simp [Host.note, Host.write, Host.tell, proper, interrupts]

theorem tells_data (value : UInt8) :
    Tells passes false false (fun _ told => told = [.data value])
      (portByteOut dataPort value) := by
  apply tells_request
  intro host _ proper interrupts
  simp [Host.note, Host.write, Host.tell, proper, interrupts, dataPort, statusPort]

theorem tells_asmCli : Tells passes before false (fun _ told => told = []) asmCli := by
  apply tells_request
  intro host _ proper _
  simp [Host.note, Host.ignore, Host.look, proper]

theorem tells_asmSti : Tells passes before true (fun _ told => told = []) asmSti := by
  apply tells_request
  intro host _ proper _
  simp [Host.note, Host.ignore, Host.look, proper]

/-- Opening a line writes back the mask that was read, without its bit. -/
def opened (irq value : UInt8) : Said :=
  .mask (maskBit irq).1 (value.toUInt32 &&& ~~~ (maskBit irq).2).toUInt8

/-- The port of a mask is none of the controller's. -/
theorem maskBit_port (irq : UInt8) :
    (maskBit irq).1 = pic1Data ∨ (maskBit irq).1 = pic2Data := by
  unfold maskBit
  split_ifs
  · exact .inl rfl
  · exact .inr rfl

theorem Host.read_mask (host : Host) (irq value : UInt8) :
    host.read (maskBit irq).1 value = host.ignore := by
  rcases maskBit_port irq with port | port <;> rw [port] <;> rfl

theorem Host.write_mask (host : Host) (irq value : UInt8) :
    host.write (maskBit irq).1 value = host.tell (.mask (maskBit irq).1 value) true := by
  rcases maskBit_port irq with port | port <;> rw [port] <;> rfl

theorem tells_picClearMask (irq : UInt8) :
    Tells passes before before (fun _ told => ∃ value, told = [opened irq value])
      (picClearMask irq) := by
  intro host proper interrupts
  have noted : ∀ value : UInt8, host.note ⟨.byteIn (maskBit irq).1, value⟩ = host.ignore :=
    host.read_mask irq
  refine ⟨proper, fun (value : UInt8) _ => ⟨?_, fun _ _ => ?_⟩⟩
  · change (host.note ⟨.byteIn (maskBit irq).1, value⟩).proper = true
    rw [noted]
    exact proper
  · change (Dialogue.done () : Driver Unit).Ensures Host.monitor _
      ((host.note ⟨.byteIn (maskBit irq).1, value⟩).write (maskBit irq).1 _)
    rw [noted, Host.write_mask]
    refine ⟨?_, ?_, interrupts, _, rfl, value, rfl⟩
    all_goals simp [Host.monitor, Host.tell, Host.ignore, Host.look, proper]

/-! ### Loops -/

theorem Host.read_status (host : Host) (value : UInt8) :
    host.read statusPort value =
      host.look (decide (value &&& 1 ≠ 0)) (if value &&& 1 = 0 then 0 else host.waited) :=
  if_pos rfl

theorem Host.read_data (host : Host) (value : UInt8) :
    host.read dataPort value =
      (host.tell (.heard value) host.full).look false (host.waited + 1) := by
  rw [Host.read, if_neg (by decide), if_pos rfl]

theorem Host.read_line (host : Host) (value : UInt8) :
    host.read (com1Port + 5) value =
      if value &&& 0x20 = 0 then host.look false (host.waited + 1) else host.ignore := by
  rw [Host.read, if_neg (by decide), if_neg (by decide)]
  simp only [true_and]

/-- A driver that ends where the story stands. -/
theorem told_here {result : Result} {host : Host} {total : Nat} (proper : host.proper = true)
    (empty : language result []) :
    (pure result : Driver Result).Ensures Host.monitor
      (Told total host.interrupts language host.story) host :=
  ⟨proper, proper, rfl, [], (List.append_nil _).symm, empty⟩

/-- What has been told behind a first piece has been told from its beginning. -/
theorem Told.behind {total : Nat} {begun first : List Said} {result : Option Result} {host : Host}
    (told : Told total after stronger (begun ++ first) result host)
    (weaker : ∀ result piece, stronger result piece → language result (first ++ piece)) :
    Told total after language begun result host := by
  cases result with
  | none => exact told
  | some result =>
      obtain ⟨proper, flag, piece, same, spoken⟩ := told
      exact ⟨proper, flag, first ++ piece, by rw [same, List.append_assoc],
        weaker result piece spoken⟩

/-- The loop of `serial_write`, which has waited for a while and has some passes
left. -/
theorem ensures_serialWrite {total remaining : Nat} (c : UInt8) (host : Host)
    (proper : host.proper = true) (enough : total ≤ host.waited + remaining) :
    (serialWrite com1Port c remaining).Ensures Host.monitor
      (Told total host.interrupts (fun _ piece => piece = []) host.story) host := by
  induction remaining generalizing host with
  | zero => exact ⟨proper, enough⟩
  | succ remaining inductionHypothesis =>
      refine ⟨proper, fun (status : UInt8) _ => ?_⟩
      change (if status &&& 0x20 = 0 then serialWrite com1Port c remaining
        else portByteOut com1Port c).Ensures Host.monitor _ (host.read (com1Port + 5) status)
      rw [Host.read_line]
      by_cases busy : status &&& 0x20 = 0
      · rw [if_pos busy, if_pos busy]
        apply inductionHypothesis (host.look false (host.waited + 1)) proper
        change total ≤ host.waited + 1 + remaining
        omega
      · rw [if_neg busy, if_neg busy]
        exact ⟨proper, fun _ _ => told_here proper rfl⟩

theorem tells_serialWriteString (text : List UInt8) :
    Tells passes before before (fun _ piece => piece = [])
      (serialWriteString passes com1Port text) := by
  induction text with
  | nil => exact tells_pure rfl
  | cons c text inductionHypothesis =>
      apply Tells.silently _ inductionHypothesis
      intro host proper interrupts
      rw [← interrupts]
      exact ensures_serialWrite c host proper (Nat.le_add_left _ _)

theorem tells_say (message : String) :
    Tells passes before before (fun _ piece => piece = []) (say passes message) :=
  tells_serialWriteString _

theorem tells_giveUp (message : String) :
    Tells passes before true (fun _ piece => piece = []) (giveUp passes message) := by
  apply Tells.silently (tells_say message)
  exact tells_asmSti

theorem tells_awaitRoom (timeout : Nat) :
    Tells passes before before (fun _ piece => piece = []) (awaitRoom timeout) := by
  intro host proper interrupts
  rw [← interrupts]
  clear interrupts
  induction timeout generalizing host with
  | zero =>
      refine ⟨proper, fun (status : UInt8) _ => ?_⟩
      change (pure 0 : Driver Nat).Ensures Host.monitor _ (host.read statusPort status)
      rw [Host.read_status]
      exact told_here proper rfl
  | succ timeout inductionHypothesis =>
      refine ⟨proper, fun (status : UInt8) _ => ?_⟩
      change (if status &&& 2 ≠ 0 then awaitRoom timeout else pure (timeout + 1)).Ensures
        Host.monitor _ (host.read statusPort status)
      rw [Host.read_status]
      by_cases busy : status &&& 2 ≠ 0
      · rw [if_pos busy]
        exact inductionHypothesis
          (host.look (decide (status &&& 1 ≠ 0)) (if status &&& 1 = 0 then 0 else host.waited))
          proper
      · rw [if_neg busy]
        exact told_here proper rfl

/-- Bytes that the controller has sent. -/
def heardAll (values : List UInt8) : List Said := values.map .heard

/-- The byte is read directly after a look at a full buffer. -/
theorem Host.read_full (host : Host) {status : UInt8} (full : status &&& 1 ≠ 0) (value : UInt8) :
    (host.read statusPort status).read dataPort value =
      (host.tell (.heard value) true).look false (host.waited + 1) := by
  rw [Host.read_status, Host.read_data, if_neg full, decide_eq_true full]
  rfl

/-- The loop that flushes the buffer, which has waited for a while and has some
passes left. -/
theorem ensures_flushOutput {total remaining : Nat} (host : Host)
    (proper : host.proper = true) (enough : total ≤ host.waited + remaining) :
    (flushOutput remaining).Ensures Host.monitor
      (Told total host.interrupts (fun _ piece => ∃ dropped, piece = heardAll dropped)
        host.story) host := by
  induction remaining generalizing host with
  | zero => exact ⟨proper, enough⟩
  | succ remaining inductionHypothesis =>
      refine ⟨proper, fun (status : UInt8) _ => ?_⟩
      change (if status &&& 1 ≠ 0 then portByteIn dataPort >>= fun _ => flushOutput remaining
        else pure ()).Ensures Host.monitor _ (host.read statusPort status)
      by_cases full : status &&& 1 ≠ 0
      · rw [if_pos full]
        have keeps : (host.tell (.heard 0) true).proper = true := by
          rw [Host.tell, proper]
          rfl
        refine ⟨by rw [Host.read_status]; exact proper, fun (value : UInt8) _ => ?_⟩
        change (flushOutput remaining).Ensures Host.monitor _
          ((host.read statusPort status).read dataPort value)
        rw [Host.read_full host full]
        apply (inductionHypothesis ((host.tell (.heard value) true).look false (host.waited + 1))
          keeps (by change total ≤ host.waited + 1 + remaining; omega)).imp
        intro result final told
        apply Told.behind told
        rintro _ _ ⟨dropped, rfl⟩
        exact ⟨value :: dropped, rfl⟩
      · rw [if_neg full, Host.read_status]
        exact told_here proper ⟨[], rfl⟩

theorem tells_flushOutput :
    Tells passes before before (fun _ piece => ∃ dropped, piece = heardAll dropped)
      (flushOutput passes) := by
  intro host proper interrupts
  rw [← interrupts]
  exact ensures_flushOutput host proper (Nat.le_add_left _ _)

/-- The bytes that a loop looked at for a reply: those it rejected, and the one it
accepted, if any. -/
def Searched (accepts : UInt8 → Bool) : Option UInt8 → List Said → Prop
  | none, piece => ∃ rejected, (∀ value ∈ rejected, accepts value = false) ∧
      piece = heardAll rejected
  | some reply, piece => ∃ rejected, (∀ value ∈ rejected, accepts value = false) ∧
      accepts reply = true ∧ piece = heardAll (rejected ++ [reply])

theorem Searched.rejecting {accepts : UInt8 → Bool} {value : UInt8}
    (rejects : accepts value = false) {result : Option UInt8} {piece : List Said}
    (searched : Searched accepts result piece) :
    Searched accepts result (.heard value :: piece) := by
  have every : ∀ rejected : List UInt8, (∀ other ∈ rejected, accepts other = false) →
      ∀ other ∈ value :: rejected, accepts other = false := by
    intro rejected all
    exact List.forall_mem_cons.mpr ⟨rejects, all⟩
  cases result with
  | none =>
      obtain ⟨rejected, all, rfl⟩ := searched
      exact ⟨value :: rejected, every rejected all, rfl⟩
  | some reply =>
      obtain ⟨rejected, all, accepted, rfl⟩ := searched
      exact ⟨value :: rejected, every rejected all, accepted, rfl⟩

theorem tells_pollReply (accepts : UInt8 → Bool) (polls : Nat) :
    Tells passes before before (Searched accepts) (pollReply accepts polls) := by
  intro host proper interrupts
  rw [← interrupts]
  clear interrupts
  induction polls generalizing host with
  | zero => exact told_here proper ⟨[], by simp, rfl⟩
  | succ polls inductionHypothesis =>
      refine ⟨proper, fun (status : UInt8) _ => ?_⟩
      change (if status &&& 1 ≠ 0 then portByteIn dataPort >>= fun reply =>
          if accepts reply then pure (some reply) else pollReply accepts polls
        else pollReply accepts polls).Ensures Host.monitor _ (host.read statusPort status)
      by_cases full : status &&& 1 ≠ 0
      · rw [if_pos full]
        have keeps : (host.tell (.heard 0) true).proper = true := by
          rw [Host.tell, proper]
          rfl
        refine ⟨by rw [Host.read_status]; exact proper, fun (reply : UInt8) _ => ?_⟩
        change (if accepts reply then pure (some reply) else pollReply accepts polls).Ensures
          Host.monitor _ ((host.read statusPort status).read dataPort reply)
        rw [Host.read_full host full]
        by_cases accepted : accepts reply = true
        · rw [if_pos accepted]
          exact ⟨keeps, keeps, rfl, [.heard reply], rfl, [], by simp, accepted, rfl⟩
        · rw [if_neg accepted]
          apply (inductionHypothesis ((host.tell (.heard reply) true).look false
            (host.waited + 1)) keeps).imp
          intro result final told
          apply Told.behind told
          intro result piece searched
          exact searched.rejecting (by simpa using accepted)
      · rw [if_neg full, Host.read_status]
        exact inductionHypothesis
          (host.look (decide (status &&& 1 ≠ 0)) (if status &&& 1 = 0 then 0 else host.waited))
          proper

end Rules

end NansOS.Boot
