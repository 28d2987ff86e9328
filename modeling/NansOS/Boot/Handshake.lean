import NansOS.Boot.Stories

/-! Owns the handshakes with the keyboard controller: the languages of stories that
`mouse_init` and `keyboard_init` tell, whatever the controller answers. The
keyboard's line is opened only behind an acknowledged reset, a passed self-test
and an acknowledged enable, in this order; the mouse's line is opened as soon as
the controller has given its configuration, acknowledged or not. -/

namespace NansOS.Boot

open NansOS.Foundation

/-! ### Languages -/

/-- Both devices off, the buffer dropped, and the configuration asked for. -/
def controllerOpening (dropped : List UInt8) : List Said :=
  [.command 0xAD, .command 0xA7] ++ heardAll dropped ++ [.command 0x20]

/-- The bytes that set up the mouse. -/
def mouseSettings : List Said :=
  [.command 0xD4, .data 0xF3, .data 100, .command 0xD4, .data 0xE8, .data 0x03, .command 0xD4,
    .data 0xE6, .command 0xD4, .data 0xF4]

/-- The stories of `mouse_init`. -/
inductive MouseStory : List Said → Prop
  | unconfigured (dropped : List UInt8) : MouseStory (controllerOpening dropped)
  | configured (dropped : List UInt8) (config : UInt8) (replies : List UInt8) (mask : UInt8)
      (search : 0xFA ∉ replies.dropLast) :
      MouseStory (controllerOpening dropped ++
        [.heard config, .command 0x60, .data (mouseConfig config), .command 0xA8] ++
        mouseSettings ++ heardAll replies ++ [.command 0xAE, opened mouseIrq mask])

/-- The story of `keyboard_init` up to its reset of the keyboard. -/
def keyboardOpening (dropped : List UInt8) (config : UInt8) : List Said :=
  controllerOpening dropped ++
    [.heard config, .command 0x60, .data (keyboardConfig config), .command 0xAE, .data 0xFF]

/-- The story of an acknowledged reset. -/
def keyboardAcknowledged (dropped : List UInt8) (config : UInt8) (refused : List UInt8) :
    List Said :=
  keyboardOpening dropped config ++ heardAll (refused ++ [0xFA])

/-- The story of a passed self-test. -/
def keyboardTested (dropped : List UInt8) (config : UInt8) (refused failed : List UInt8) :
    List Said :=
  keyboardAcknowledged dropped config refused ++ heardAll (failed ++ [0xAA]) ++ [.data 0xF4]

/-- The stories of `keyboard_init`: one for each of its exits. -/
inductive KeyboardStory : List Said → Prop
  | busy : KeyboardStory []
  | unconfigured (dropped : List UInt8) : KeyboardStory (controllerOpening dropped)
  | unacknowledged (dropped : List UInt8) (config : UInt8) (refused : List UInt8)
      (search : 0xFA ∉ refused) :
      KeyboardStory (keyboardOpening dropped config ++ heardAll refused)
  | untested (dropped : List UInt8) (config : UInt8) (refused failed : List UInt8)
      (search : 0xFA ∉ refused) (test : 0xAA ∉ failed) :
      KeyboardStory (keyboardAcknowledged dropped config refused ++ heardAll failed)
  | unanswered (dropped : List UInt8) (config : UInt8) (refused failed ignored : List UInt8)
      (search : 0xFA ∉ refused) (test : 0xAA ∉ failed) (answer : 0xFA ∉ ignored) :
      KeyboardStory (keyboardTested dropped config refused failed ++ heardAll ignored)
  | enabled (dropped : List UInt8) (config : UInt8) (refused failed ignored : List UInt8)
      (mask : UInt8) (mouse : List Said) (search : 0xFA ∉ refused) (test : 0xAA ∉ failed)
      (answer : 0xFA ∉ ignored) (last : MouseStory mouse) :
      KeyboardStory (keyboardTested dropped config refused failed ++
        heardAll (ignored ++ [0xFA]) ++ [opened keyboardIrq mask] ++ mouse)

/-! ### Searches -/

section Drivers

variable {passes : Nat} {before : Bool}

theorem none_rejected {rejected : List UInt8}
    (all : ∀ value ∈ rejected, (fun _ : UInt8 => true) value = false) : rejected = [] := by
  apply List.eq_nil_iff_forall_not_mem.mpr
  intro value member
  exact Bool.noConfusion (all value member)

/-- The first byte is accepted if every byte is. -/
theorem searched_any {result : Option UInt8} {piece : List Said}
    (searched : Searched (fun _ => true) result piece) :
    piece = heardAll result.toList := by
  cases result with
  | none =>
      obtain ⟨rejected, all, rfl⟩ := searched
      rw [none_rejected all]
      rfl
  | some reply =>
      obtain ⟨rejected, all, -, rfl⟩ := searched
      rw [none_rejected all]
      rfl

theorem not_mem_of_isReply {wanted : UInt8} {rejected : List UInt8}
    (all : ∀ value ∈ rejected, isReply wanted value = false) : wanted ∉ rejected := by
  intro member
  have differs := all wanted member
  simp [isReply] at differs

/-- A search for one byte that found none. -/
theorem searched_none {wanted : UInt8} {piece : List Said}
    (searched : Searched (isReply wanted) none piece) :
    ∃ refused, wanted ∉ refused ∧ piece = heardAll refused := by
  obtain ⟨rejected, all, rfl⟩ := searched
  exact ⟨rejected, not_mem_of_isReply all, rfl⟩

/-- A search for one byte that found it. -/
theorem searched_some {wanted reply : UInt8} {piece : List Said}
    (searched : Searched (isReply wanted) (some reply) piece) :
    ∃ refused, wanted ∉ refused ∧ piece = heardAll (refused ++ [wanted]) := by
  obtain ⟨rejected, all, accepted, rfl⟩ := searched
  have same : reply = wanted := by simpa [isReply] using accepted
  exact ⟨rejected, not_mem_of_isReply all, by rw [same]⟩

/-- Found or not, the byte is none but the last. -/
theorem searched_last {wanted : UInt8} {result : Option UInt8} {piece : List Said}
    (searched : Searched (isReply wanted) result piece) :
    ∃ replies : List UInt8, wanted ∉ replies.dropLast ∧ piece = heardAll replies := by
  cases result with
  | none =>
      obtain ⟨refused, absent, rfl⟩ := searched_none searched
      exact ⟨refused, fun member => absent (List.dropLast_subset _ member), rfl⟩
  | some reply =>
      obtain ⟨refused, absent, rfl⟩ := searched_some searched
      refine ⟨refused ++ [wanted], ?_, rfl⟩
      rwa [List.dropLast_concat]

/-! ### Drivers -/

theorem tells_mouseParameters :
    Tells passes false false (fun _ piece => piece = mouseSettings) mouseParameters := by
  apply Tells.adding (tells_command _)
  apply Tells.adding (tells_data _)
  apply Tells.adding (tells_data _)
  apply Tells.adding (tells_command _)
  apply Tells.adding (tells_data _)
  apply Tells.adding (tells_data _)
  apply Tells.adding (tells_command _)
  apply Tells.adding (tells_data _)
  apply Tells.adding (tells_command _)
  apply (tells_data _).imp
  rintro _ _ rfl
  rfl

theorem tells_mouseStart :
    Tells passes false true (fun _ piece => ∃ (replies : List UInt8) (mask : UInt8),
      0xFA ∉ replies.dropLast ∧ piece = [.command 0xA8] ++ mouseSettings ++ heardAll replies ++
        [.command 0xAE, opened mouseIrq mask]) (mouseStart passes) := by
  apply Tells.adding (tells_command _)
  apply Tells.adding tells_mouseParameters
  apply Tells.followed (tells_pollReply _ _)
  intro streaming piece searched
  obtain ⟨replies, search, rfl⟩ := searched_last searched
  have ending : ∀ continued : Unit → List Said → Prop,
      (∀ mask, continued () [.command 0xAE, opened mouseIrq mask]) →
        Tells passes false true continued (do
          portByteOut statusPort 0xAE
          picClearMask mouseIrq
          say passes "[MOUSE] Interrupt enabled\n"
          asmSti
          say passes "[MOUSE] Initialization complete\n") := by
    intro continued ends
    apply Tells.adding (tells_command _)
    apply Tells.followed (tells_picClearMask _)
    rintro _ _ ⟨mask, rfl⟩
    apply Tells.silently (tells_say _)
    apply Tells.silently tells_asmSti
    apply (tells_say _).imp
    rintro _ _ rfl
    exact ends mask
  cases streaming with
  | none =>
      apply ending
      intro mask
      exact ⟨replies, mask, search, by simp⟩
  | some reply =>
      apply Tells.silently (tells_say _)
      apply ending
      intro mask
      exact ⟨replies, mask, search, by simp⟩

theorem tells_mouseInit : Tells passes before true (fun _ piece => MouseStory piece)
    (mouseInit passes) := by
  apply Tells.silently (tells_say _)
  apply Tells.silently tells_asmCli
  apply Tells.adding (tells_command _)
  apply Tells.adding (tells_command _)
  apply Tells.followed tells_flushOutput
  rintro _ _ ⟨dropped, rfl⟩
  apply Tells.adding (tells_command _)
  apply Tells.followed (tells_pollReply _ _)
  intro reply piece searched
  cases searched_any searched
  cases reply with
  | none =>
      apply (tells_giveUp _).imp
      rintro _ _ rfl
      exact .unconfigured dropped
  | some config =>
      apply Tells.adding (tells_command _)
      apply Tells.adding (tells_data _)
      apply Tells.silently (tells_say _)
      apply tells_mouseStart.imp
      rintro _ _ ⟨replies, mask, search, rfl⟩
      have story := MouseStory.configured dropped config replies mask search
      simpa [controllerOpening, heardAll] using story

/-- The end of `keyboard_init` opens the line and goes on with the mouse. -/
theorem tells_keyboardFinish :
    Tells passes false true (fun _ piece => ∃ mask mouse, MouseStory mouse ∧
      piece = [opened keyboardIrq mask] ++ mouse) (keyboardFinish passes) := by
  apply Tells.silently (tells_say _)
  apply Tells.followed (tells_picClearMask _)
  rintro _ _ ⟨mask, rfl⟩
  apply Tells.silently (tells_say _)
  apply Tells.silently (tells_say _)
  apply Tells.followed tells_mouseInit
  intro _ mouse story
  apply Tells.silently tells_asmSti
  apply (tells_say _).imp
  rintro _ _ rfl
  exact ⟨mask, mouse, story, by simp⟩

section Stages

variable {dropped : List UInt8} {config : UInt8} {refused failed : List UInt8}

theorem tells_keyboardScan (search : 0xFA ∉ refused) (test : 0xAA ∉ failed) :
    Tells passes false true
      (fun _ piece => KeyboardStory (keyboardAcknowledged dropped config refused ++
        heardAll (failed ++ [0xAA]) ++ piece)) (keyboardScan passes) := by
  apply Tells.adding (tells_data _)
  apply Tells.followed (tells_pollReply _ _)
  intro enabled piece searched
  cases enabled with
  | none =>
      obtain ⟨ignored, answer, rfl⟩ := searched_none searched
      apply (tells_giveUp _).imp
      rintro _ _ rfl
      have story := KeyboardStory.unanswered dropped config refused failed ignored search test
        answer
      simpa [keyboardTested] using story
  | some reply =>
      obtain ⟨ignored, answer, rfl⟩ := searched_some searched
      apply tells_keyboardFinish.imp
      rintro _ _ ⟨mask, mouse, last, rfl⟩
      have story := KeyboardStory.enabled dropped config refused failed ignored mask mouse search
        test answer last
      simpa [keyboardTested] using story

theorem tells_keyboardTest (search : 0xFA ∉ refused) :
    Tells passes false true
      (fun _ piece => KeyboardStory (keyboardAcknowledged dropped config refused ++ piece))
      (keyboardTest passes) := by
  apply Tells.followed (tells_pollReply _ _)
  intro tested piece searched
  cases tested with
  | none =>
      obtain ⟨failed, test, rfl⟩ := searched_none searched
      apply (tells_giveUp _).imp
      rintro _ _ rfl
      have story := KeyboardStory.untested dropped config refused failed search test
      simpa using story
  | some reply =>
      obtain ⟨failed, test, rfl⟩ := searched_some searched
      apply Tells.silently (tells_say _)
      apply (tells_keyboardScan search test).imp
      intro _ piece story
      simpa using story

theorem tells_keyboardReset :
    Tells passes false true
      (fun _ piece => KeyboardStory (controllerOpening dropped ++
        [.heard config, .command 0x60, .data (keyboardConfig config)] ++ piece))
      (keyboardReset passes) := by
  apply Tells.adding (tells_command _)
  apply Tells.adding (tells_data _)
  apply Tells.followed (tells_pollReply _ _)
  intro acknowledged piece searched
  cases acknowledged with
  | none =>
      obtain ⟨refused, search, rfl⟩ := searched_none searched
      apply (tells_giveUp _).imp
      rintro _ _ rfl
      have story := KeyboardStory.unacknowledged dropped config refused search
      simpa [keyboardOpening] using story
  | some reply =>
      obtain ⟨refused, search, rfl⟩ := searched_some searched
      apply Tells.silently (tells_say _)
      apply (tells_keyboardTest search).imp
      intro _ piece story
      simpa [keyboardOpening, keyboardAcknowledged] using story

end Stages

theorem tells_keyboardConfigure : Tells passes false true (fun _ piece => KeyboardStory piece)
    (keyboardConfigure passes) := by
  apply Tells.adding (tells_command _)
  apply Tells.adding (tells_command _)
  apply Tells.followed tells_flushOutput
  rintro _ _ ⟨dropped, rfl⟩
  apply Tells.adding (tells_command _)
  apply Tells.followed (tells_pollReply _ _)
  intro reply piece searched
  cases searched_any searched
  cases reply with
  | none =>
      apply (tells_giveUp _).imp
      rintro _ _ rfl
      exact .unconfigured dropped
  | some config =>
      apply Tells.adding (tells_command _)
      apply Tells.adding (tells_data _)
      apply Tells.silently (tells_say _)
      apply tells_keyboardReset.imp
      intro _ piece story
      simpa [controllerOpening, heardAll] using story

theorem tells_keyboardInit : Tells passes before true (fun _ piece => KeyboardStory piece)
    (keyboardInit passes) := by
  apply Tells.silently (tells_say _)
  apply Tells.silently tells_asmCli
  apply Tells.followed (tells_awaitRoom _)
  rintro timeout _ rfl
  change Tells passes false true (fun _ piece => KeyboardStory piece)
    (if timeout = 0 then giveUp passes "[KBD] Error: Initial controller timeout\n"
      else keyboardConfigure passes)
  split_ifs
  · apply (tells_giveUp _).imp
    rintro _ _ rfl
    exact .busy
  · exact tells_keyboardConfigure

end Drivers

/-! ### Conversations with a controller -/

section Conversations

variable {World : Type} (answer : (request : Request) → World → Reply request × World)
variable (passes : Nat) (world : World) (interrupts : Bool)

/-- What the onlooker remembers of a driver, at its end. -/
def witnessed {Result : Type} (driver : Driver Result) : Host :=
  run Host.note (Host.initial interrupts) (driver.converse answer world).log

/-- A driver that tells a language tells it to every controller. -/
theorem Tells.converse {Result : Type} {driver : Driver Result}
    {language : Result → List Said → Prop} (tells : Tells passes interrupts true language driver) :
    Throughout Host.note (fun host => host.proper = true) (Host.initial interrupts)
        (driver.converse answer world).log ∧
      ((driver.converse answer world).result = none →
        passes ≤ (witnessed answer world interrupts driver).waited) ∧
      ∀ result, (driver.converse answer world).result = some result →
        (witnessed answer world interrupts driver).interrupts = true ∧
          language result (witnessed answer world interrupts driver).story := by
  have ensures := tells (Host.initial interrupts) rfl rfl
  obtain ⟨safely, told, -⟩ :=
    Dialogue.converse_ensures (Host.monitor_respects answer) ensures world trivial
  refine ⟨safely, fun late => ?_, fun result finished => ?_⟩
  · rw [late] at told
    exact told
  · rw [finished] at told
    obtain ⟨-, flag, piece, same, spoken⟩ := told
    refine ⟨flag, ?_⟩
    have whole : (witnessed answer world interrupts driver).story = piece := same
    rw [whole]
    exact spoken

/-- `keyboard_init` against every controller: it reads a byte only behind a look at
a full buffer, writes to the controller only with interrupts disabled, returns
unless one of its waiting loops makes no progress, leaves interrupts enabled, and
tells one of its stories. -/
theorem keyboard_init_handshake :
    Throughout Host.note (fun host => host.proper = true) (Host.initial interrupts)
        ((keyboardInit passes).converse answer world).log ∧
      (((keyboardInit passes).converse answer world).result = none →
        passes ≤ (witnessed answer world interrupts (keyboardInit passes)).waited) ∧
      (((keyboardInit passes).converse answer world).result = some () →
        (witnessed answer world interrupts (keyboardInit passes)).interrupts = true ∧
          KeyboardStory (witnessed answer world interrupts (keyboardInit passes)).story) := by
  obtain ⟨safely, late, told⟩ := tells_keyboardInit.converse answer passes world interrupts
  exact ⟨safely, late, told ()⟩

/-- `mouse_init` against every controller. -/
theorem mouse_init_handshake :
    Throughout Host.note (fun host => host.proper = true) (Host.initial interrupts)
        ((mouseInit passes).converse answer world).log ∧
      (((mouseInit passes).converse answer world).result = none →
        passes ≤ (witnessed answer world interrupts (mouseInit passes)).waited) ∧
      (((mouseInit passes).converse answer world).result = some () →
        (witnessed answer world interrupts (mouseInit passes)).interrupts = true ∧
          MouseStory (witnessed answer world interrupts (mouseInit passes)).story) := by
  obtain ⟨safely, late, told⟩ := tells_mouseInit.converse answer passes world interrupts
  exact ⟨safely, late, told ()⟩

end Conversations

end NansOS.Boot
