import NansOS.Boot.Ports

/-! Owns the drivers of the keyboard controller as programs over port requests:
`keyboard_init` and `mouse_init`, which configure it and the devices behind it.
The loops of these functions are owned here too: they wait for room, drop what is
in the buffer, or look for a reply. -/

namespace NansOS.Boot

open NansOS.Foundation

/-- `KEYBOARD_DATA_PORT`. -/
abbrev dataPort : UInt16 := 0x60

/-- `KEYBOARD_STATUS_PORT`, which is also `KEYBOARD_COMMAND_PORT`. -/
abbrev statusPort : UInt16 := 0x64

/-- `KEYBOARD_IRQ`. -/
abbrev keyboardIrq : UInt8 := 1

/-- `MOUSE_IRQ`. -/
abbrev mouseIrq : UInt8 := 12

/-! ### Loops -/

/-- `while ((port_byte_in(KEYBOARD_STATUS_PORT) & 2) != 0 && timeout > 0)`, from a
value of `timeout`: its value behind the loop. -/
def awaitRoom : (timeout : Nat) → Driver Nat
  | 0 => do
      let _status ← portByteIn statusPort
      pure 0
  | timeout + 1 => do
      let status ← portByteIn statusPort
      if status &&& 2 ≠ 0 then awaitRoom timeout else pure (timeout + 1)

/-- The loop that flushes the output buffer. -/
def flushOutput : (passes : Nat) → Driver Unit
  | 0 => .unfinished
  | passes + 1 => do
      let status ← portByteIn statusPort
      if status &&& 1 ≠ 0 then do
        let _dropped ← portByteIn dataPort
        flushOutput passes
      else pure ()

/-- A loop that looks at the status `polls` times and reads a byte when there is
one, until it reads one that is accepted. -/
def pollReply (accepts : UInt8 → Bool) : (polls : Nat) → Driver (Option UInt8)
  | 0 => pure none
  | polls + 1 => do
      let status ← portByteIn statusPort
      if status &&& 1 ≠ 0 then do
        let reply ← portByteIn dataPort
        if accepts reply then pure (some reply) else pollReply accepts polls
      else pollReply accepts polls

/-- What `while (--timeout > 0)` comes to from 100000. -/
abbrev longPolls : Nat := 99999

/-- The byte is the one waited for. -/
def isReply (wanted reply : UInt8) : Bool := reply = wanted

/-! ### Initialization -/

/-- A message to the serial line. -/
def say (passes : Nat) (message : String) : Driver Unit :=
  serialWriteString passes com1Port (textBytes message)

/-- An error message, and interrupts on. -/
def giveUp (passes : Nat) (message : String) : Driver Unit := do
  say passes message
  asmSti

/-- The configuration byte that `mouse_init` writes back. -/
def mouseConfig (config : UInt8) : UInt8 :=
  (((config ||| 0x02) &&& ~~~0x20) ||| 0x01) &&& ~~~0x10

/-- The bytes that set sample rate, resolution and scaling, and start the
stream. -/
def mouseParameters : Driver Unit := do
  portByteOut statusPort 0xD4
  portByteOut dataPort 0xF3
  portByteOut dataPort 100
  portByteOut statusPort 0xD4
  portByteOut dataPort 0xE8
  portByteOut dataPort 0x03
  portByteOut statusPort 0xD4
  portByteOut dataPort 0xE6
  portByteOut statusPort 0xD4
  portByteOut dataPort 0xF4

/-- `mouse_init` behind its configuration step. -/
def mouseStart (passes : Nat) : Driver Unit := do
  portByteOut statusPort 0xA8
  mouseParameters
  let streaming ← pollReply (isReply 0xFA) longPolls
  if streaming.isSome then say passes "[MOUSE] Packet streaming enabled\n"
  portByteOut statusPort 0xAE
  picClearMask mouseIrq
  say passes "[MOUSE] Interrupt enabled\n"
  asmSti
  say passes "[MOUSE] Initialization complete\n"

/-- `mouse_init`. -/
def mouseInit (passes : Nat) : Driver Unit := do
  say passes "[MOUSE] Starting mouse initialization...\n"
  asmCli
  portByteOut statusPort 0xAD
  portByteOut statusPort 0xA7
  flushOutput passes
  portByteOut statusPort 0x20
  let reply ← pollReply (fun _ => true) longPolls
  match reply with
  | none => giveUp passes "[MOUSE] Error: Controller configuration failed\n"
  | some config => do
      portByteOut statusPort 0x60
      portByteOut dataPort (mouseConfig config)
      say passes "[MOUSE] Controller configured\n"
      mouseStart passes

/-- The configuration byte that `keyboard_init` writes back. -/
def keyboardConfig (config : UInt8) : UInt8 := (config ||| 1) &&& ~~~0x10 &&& ~~~0x40

/-- The end of `keyboard_init`, with the keyboard enabled. -/
def keyboardFinish (passes : Nat) : Driver Unit := do
  say passes "[KBD] Keyboard enabled\n"
  picClearMask keyboardIrq
  say passes "[DEBUG] Keyboard interrupt enabled\n"
  say passes "[DEBUG] Starting mouse initialization...\n"
  mouseInit passes
  asmSti
  say passes "[DEBUG] Keyboard initialization complete\n"

/-- `keyboard_init` behind the self-test. -/
def keyboardScan (passes : Nat) : Driver Unit := do
  portByteOut dataPort 0xF4
  let enabled ← pollReply (isReply 0xFA) longPolls
  match enabled with
  | none => giveUp passes "[KBD] Error: Keyboard enable failed\n"
  | some _ => keyboardFinish passes

/-- `keyboard_init` behind the acknowledgment of the reset. -/
def keyboardTest (passes : Nat) : Driver Unit := do
  let tested ← pollReply (isReply 0xAA) longPolls
  match tested with
  | none => giveUp passes "[KBD] Error: Keyboard self-test failed\n"
  | some _ => do
      say passes "[DEBUG] Keyboard self-test passed\n"
      keyboardScan passes

/-- `keyboard_init` behind its configuration step. -/
def keyboardReset (passes : Nat) : Driver Unit := do
  portByteOut statusPort 0xAE
  portByteOut dataPort 0xFF
  let acknowledged ← pollReply (isReply 0xFA) longPolls
  match acknowledged with
  | none => giveUp passes "[KBD] Error: Keyboard reset failed\n"
  | some _ => do
      say passes "[DEBUG] Keyboard reset acknowledged\n"
      keyboardTest passes

/-- `keyboard_init` behind its wait for the controller. -/
def keyboardConfigure (passes : Nat) : Driver Unit := do
  portByteOut statusPort 0xAD
  portByteOut statusPort 0xA7
  flushOutput passes
  portByteOut statusPort 0x20
  let reply ← pollReply (fun _ => true) longPolls
  match reply with
  | none => giveUp passes "[KBD] Error: Controller configuration failed\n"
  | some config => do
      portByteOut statusPort 0x60
      portByteOut dataPort (keyboardConfig config)
      say passes "[DEBUG] Keyboard controller configured\n"
      keyboardReset passes

/-- `keyboard_init`. -/
def keyboardInit (passes : Nat) : Driver Unit := do
  say passes "[DEBUG] Starting keyboard initialization...\n"
  asmCli
  let timeout ← awaitRoom 100000
  if timeout = 0 then giveUp passes "[KBD] Error: Initial controller timeout\n"
  else keyboardConfigure passes

end NansOS.Boot
