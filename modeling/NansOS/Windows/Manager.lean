import NansOS.Foundation.Run
import NansOS.Foundation.Slots
import NansOS.Kernel.StringOps

/-! Owns the window manager of `window.c`: its window list, its references to
the active and to the dragged window, the windows themselves, and every call
that changes them. It does not own drawing: `vga_init`, `vga_update_cursor` and
the painting calls write to the screen only, which nothing here reads.

Windows and terminal buffers are records at the addresses that `malloc`
returned for them; a call that allocates takes those results as arguments, with
`0` for a failure. Freeing a window leaves its record as it was. Sums of
coordinates are made in `int`, as the source makes them; what is stored in a
window is cut to 16 bits. -/

namespace NansOS.Windows

open NansOS.Foundation
open NansOS.Kernel

/-! ### Data model -/

/-- `MAX_WINDOWS`. -/
abbrev maxWindows : Nat := 16

/-- `WINDOW_FLAG_VISIBLE`. -/
abbrev flagVisible : UInt32 := 0x01

/-- `WINDOW_FLAG_MOVABLE`. -/
abbrev flagMovable : UInt32 := 0x02

/-- `WINDOW_FLAG_RESIZABLE`. -/
abbrev flagResizable : UInt32 := 0x04

/-- `WINDOW_FLAG_MINIMIZED`. -/
abbrev flagMinimized : UInt32 := 0x08

/-- `WINDOW_FLAG_MAXIMIZED`. -/
abbrev flagMaximized : UInt32 := 0x10

/-- `TERMINAL_BUFFER_SIZE`. -/
abbrev terminalBufferSize : Nat := 1024

/-- The functions that are stored in `on_paint`. -/
inductive PaintHandler where
  | terminalPaint
  | fileBrowserPaint
  | textEditorPaint
deriving DecidableEq

/-- The functions that are stored in `on_click`: there are none. -/
inductive ClickHandler where
deriving DecidableEq

/-- The functions that are stored in `on_key`. -/
inductive KeyHandler where
  | terminalKey
deriving DecidableEq

/-- `struct Window`. -/
structure Window where
  title : CString
  x : UInt16
  y : UInt16
  width : UInt16
  height : UInt16
  flags : UInt32
  content : UInt64
  onPaint : Option PaintHandler
  onClick : Option ClickHandler
  onKey : Option KeyHandler
deriving DecidableEq

/-- `struct TerminalBuffer`. -/
structure TerminalBuffer where
  data : Nat → UInt8
  cursor : Nat

/-- The static variables of `window.c`, with the records they point to. -/
structure Manager where
  windows : Nat → UInt64
  numWindows : Nat
  activeWindow : UInt64
  draggingWindow : UInt64
  dragOffsetX : Int
  dragOffsetY : Int
  records : UInt64 → Window
  buffers : UInt64 → TerminalBuffer

/-- A window is drawn and can be clicked. -/
def Window.Visible (window : Window) : Prop := window.flags &&& flagVisible ≠ 0

instance (window : Window) : Decidable window.Visible :=
  inferInstanceAs (Decidable (_ ≠ _))

/-- The text that `strncpy` leaves in a title of 32 bytes. -/
def titleOf (title : CString) : CString :=
  ⟨title.bytes.take 31, fun member => title.terminated (List.mem_of_mem_take member)⟩

namespace Manager

/-- `windows[0..num_windows)`. -/
def list (manager : Manager) : List UInt64 := slotList manager.windows manager.numWindows

/-- Assign fields of the window at an address. -/
def modify (manager : Manager) (window : UInt64) (change : Window → Window) : Manager :=
  { manager with
    records := Function.update manager.records window (change (manager.records window)) }

/-- The last entry of the list, `NULL` if it is empty. -/
def lastWindow (manager : Manager) : UInt64 :=
  if manager.numWindows > 0 then manager.windows (manager.numWindows - 1) else 0

/-! ### Operations -/

/-- `window_init`. The drag offsets keep their values. -/
def windowInit (manager : Manager) : Manager :=
  { manager with
    windows := fun index => if index < maxWindows then 0 else manager.windows index
    numWindows := 0
    activeWindow := 0
    draggingWindow := 0 }

/-- `window_bring_to_front`. -/
def windowBringToFront (manager : Manager) (window : UInt64) : Manager :=
  if window = 0 then manager
  else
    match findSlot manager.windows manager.numWindows window with
    | none => manager
    | some index =>
        { manager with
          windows := Function.update (shiftDown manager.windows index manager.numWindows)
            (manager.numWindows - 1) window
          activeWindow := window }

/-- The part of `window_create` that fills a window and adds it to the list. -/
def addWindow (manager : Manager) (allocated : UInt64) (record : Window) : Manager :=
  { manager with
    records := Function.update manager.records allocated record
    windows := Function.update manager.windows manager.numWindows allocated
    numWindows := manager.numWindows + 1 }

/-- The fields that `window_create` sets. -/
def createdRecord (title : CString) (x y width height : UInt16) : Window where
  title := titleOf title
  x := x
  y := y
  width := width
  height := height
  flags := flagVisible ||| flagMovable
  content := 0
  onPaint := none
  onClick := none
  onKey := none

/-- `window_create`: the address returned and the manager after it. -/
def windowCreate (manager : Manager) (title : CString) (x y width height : UInt16)
    (allocated : UInt64) : UInt64 × Manager :=
  if manager.numWindows ≥ maxWindows then (0, manager)
  else if allocated = 0 then (0, manager)
  else
    (allocated,
      (manager.addWindow allocated (createdRecord title x y width height)).windowBringToFront
        allocated)

/-- `window_destroy`. -/
def windowDestroy (manager : Manager) (window : UInt64) : Manager :=
  if window = 0 then manager
  else
    match findSlot manager.windows manager.numWindows window with
    | none => manager
    | some index =>
        let removed : Manager :=
          { manager with
            windows := Function.update (shiftDown manager.windows index manager.numWindows)
              (manager.numWindows - 1) 0
            numWindows := manager.numWindows - 1 }
        if manager.activeWindow = window then
          { removed with activeWindow := removed.lastWindow }
        else removed

/-- `window_show`. -/
def windowShow (manager : Manager) (window : UInt64) : Manager :=
  if window = 0 then manager
  else
    (manager.modify window fun record =>
      { record with flags := record.flags ||| flagVisible }).windowBringToFront window

/-- `window_hide`. -/
def windowHide (manager : Manager) (window : UInt64) : Manager :=
  if window = 0 then manager
  else
    let hidden := manager.modify window fun record =>
      { record with flags := record.flags &&& ~~~flagVisible }
    if hidden.activeWindow = window then { hidden with activeWindow := hidden.lastWindow }
    else hidden

/-- `window_move`. -/
def windowMove (manager : Manager) (window : UInt64) (x y : UInt16) : Manager :=
  if window = 0 then manager
  else manager.modify window fun record => { record with x := x, y := y }

/-- `window_resize`. -/
def windowResize (manager : Manager) (window : UInt64) (width height : UInt16) : Manager :=
  if window = 0 ∨ (manager.records window).flags &&& flagResizable = 0 then manager
  else manager.modify window fun record => { record with width := width, height := height }

/-- `window_minimize`. -/
def windowMinimize (manager : Manager) (window : UInt64) : Manager :=
  if window = 0 then manager
  else manager.modify window fun record =>
    { record with flags := (record.flags ||| flagMinimized) &&& ~~~flagMaximized }

/-- `window_maximize`. -/
def windowMaximize (manager : Manager) (window : UInt64) : Manager :=
  if window = 0 then manager
  else manager.modify window fun record =>
    { record with flags := (record.flags ||| flagMaximized) &&& ~~~flagMinimized }

/-- `window_restore`. -/
def windowRestore (manager : Manager) (window : UInt64) : Manager :=
  if window = 0 then manager
  else manager.modify window fun record =>
    { record with flags := record.flags &&& ~~~(flagMinimized ||| flagMaximized) }

/-! ### Mouse and keys -/

end Manager

/-- The click test of `window_handle_mouse`, in `int`. -/
def Window.Contains (window : Window) (x y : UInt16) : Prop :=
  x.toNat ≥ window.x.toNat ∧ x.toNat < window.x.toNat + window.width.toNat ∧
    y.toNat ≥ window.y.toNat ∧ y.toNat < window.y.toNat + window.height.toNat

instance (window : Window) (x y : UInt16) : Decidable (window.Contains x y) :=
  inferInstanceAs (Decidable (_ ∧ _))

/-- The title bar test. -/
def Window.InTitleBar (window : Window) (y : UInt16) : Prop :=
  y.toNat < window.y.toNat + 20

instance (window : Window) (y : UInt16) : Decidable (window.InTitleBar y) :=
  inferInstanceAs (Decidable (_ < _))

/-- The close button test, in `int`: the left edge may be negative. -/
def Window.OnCloseButton (window : Window) (x y : UInt16) : Prop :=
  (x.toNat : Int) ≥ window.x.toNat + window.width.toNat - 18 ∧
    (x.toNat : Int) < window.x.toNat + window.width.toNat - 4 ∧
    y.toNat ≥ window.y.toNat + 4 ∧ y.toNat < window.y.toNat + 18

instance (window : Window) (x y : UInt16) : Decidable (window.OnCloseButton x y) :=
  inferInstanceAs (Decidable (_ ∧ _))

/-- Bit 0 of the button mask. -/
def LeftButton (buttons : UInt8) : Prop := buttons &&& 0x01 ≠ 0

instance (buttons : UInt8) : Decidable (LeftButton buttons) :=
  inferInstanceAs (Decidable (_ ≠ _))

namespace Manager

/-- The window that the downward loop of `window_handle_mouse` stops at: the
last visible one that contains the point. -/
def windowAt (manager : Manager) (x y : UInt16) : Option UInt64 :=
  manager.list.reverse.find? fun window =>
    (manager.records window).Visible ∧ (manager.records window).Contains x y

/-- The start of a drag on a title bar. -/
def startDrag (manager : Manager) (window : UInt64) (x y : UInt16) : Manager :=
  { manager with
    draggingWindow := window
    dragOffsetX := (x.toNat : Int) - (manager.records window).x.toNat
    dragOffsetY := (y.toNat : Int) - (manager.records window).y.toNat }

/-- `window_handle_mouse`. -/
def windowHandleMouse (manager : Manager) (x y : UInt16) (buttons : UInt8) : Manager :=
  if manager.draggingWindow ≠ 0 then
    if LeftButton buttons then
      manager.windowMove manager.draggingWindow
        (UInt16.ofInt (x.toNat - manager.dragOffsetX))
        (UInt16.ofInt (y.toNat - manager.dragOffsetY))
    else { manager with draggingWindow := 0 }
  else
    match manager.windowAt x y with
    | none => manager
    | some window =>
        let record := manager.records window
        if record.InTitleBar y then
          let pressed :=
            if LeftButton buttons then
              (manager.startDrag window x y).windowBringToFront window
            else manager
          if record.OnCloseButton x y then pressed.windowDestroy window else pressed
        else
          match record.onClick with
          | none => manager
          | some handler => nomatch handler

/-- `terminal_key`. -/
def terminalKey (manager : Manager) (window : UInt64) (key : UInt8) : Manager :=
  let address := (manager.records window).content
  let buffer := manager.buffers address
  if address ≠ 0 ∧ buffer.cursor < terminalBufferSize - 1 then
    { manager with
      buffers := Function.update manager.buffers address
        { data := Function.update (Function.update buffer.data buffer.cursor key)
            (buffer.cursor + 1) 0
          cursor := buffer.cursor + 1 } }
  else manager

/-- The window whose key handler `window_handle_key` calls, if any. -/
def keyReceiver (manager : Manager) : Option (UInt64 × KeyHandler) :=
  if manager.activeWindow ≠ 0 then
    (manager.records manager.activeWindow).onKey.map fun handler =>
      (manager.activeWindow, handler)
  else none

/-- `window_handle_key`. -/
def windowHandleKey (manager : Manager) (key : UInt8) : Manager :=
  match manager.keyReceiver with
  | none => manager
  | some (window, .terminalKey) => manager.terminalKey window key

/-! ### Built-in windows -/

/-- A terminal buffer cleared by `memset`. -/
def emptyBuffer : TerminalBuffer := ⟨fun _ => 0, 0⟩

/-- The call of `window_create` that `window_create_terminal` starts with. -/
def createTerminalFrame (manager : Manager) (allocated : UInt64) : UInt64 × Manager :=
  manager.windowCreate ⟨[84, 101, 114, 109, 105, 110, 97, 108], by decide⟩ 100 100 400 300
    allocated

/-- `window_create_terminal`. The second allocation is the terminal buffer. -/
def windowCreateTerminal (manager : Manager) (allocated buffer : UInt64) : UInt64 × Manager :=
  let (window, created) := manager.createTerminalFrame allocated
  if window = 0 then (0, created)
  else if buffer = 0 then (0, created.windowDestroy window)
  else
    (window,
      { created with buffers := Function.update created.buffers buffer emptyBuffer }.modify
        window fun record =>
          { record with
            content := buffer
            onPaint := some .terminalPaint
            onKey := some .terminalKey })

/-- What `window_create_file_browser` and `window_create_text_editor` share: a
window with a paint function. -/
def createPainted (manager : Manager) (title : CString) (x y width height : UInt16)
    (paint : PaintHandler) (allocated : UInt64) : UInt64 × Manager :=
  let (window, created) := manager.windowCreate title x y width height allocated
  if window = 0 then (0, created)
  else (window, created.modify window fun record => { record with onPaint := some paint })

/-- `window_create_file_browser`. -/
def windowCreateFileBrowser (manager : Manager) (allocated : UInt64) : UInt64 × Manager :=
  manager.createPainted
    ⟨[70, 105, 108, 101, 32, 66, 114, 111, 119, 115, 101, 114], by decide⟩ 150 150 500 400
    .fileBrowserPaint allocated

/-- `window_create_text_editor`. -/
def windowCreateTextEditor (manager : Manager) (allocated : UInt64) : UInt64 × Manager :=
  manager.createPainted
    ⟨[84, 101, 120, 116, 32, 69, 100, 105, 116, 111, 114], by decide⟩ 200 200 600 450
    .textEditorPaint allocated

end Manager

/-! ### Runs -/

/-- One call into the window manager. -/
inductive Call where
  | create (title : CString) (x y width height : UInt16) (allocated : UInt64)
  | createTerminal (allocated buffer : UInt64)
  | createFileBrowser (allocated : UInt64)
  | createTextEditor (allocated : UInt64)
  | destroy (window : UInt64)
  | showWindow (window : UInt64)
  | hide (window : UInt64)
  | move (window : UInt64) (x y : UInt16)
  | resize (window : UInt64) (width height : UInt16)
  | bringToFront (window : UInt64)
  | minimize (window : UInt64)
  | maximize (window : UInt64)
  | restore (window : UInt64)
  | handleMouse (x y : UInt16) (buttons : UInt8)
  | handleKey (key : UInt8)

/-- The manager after one call. -/
def Manager.call (manager : Manager) : Call → Manager
  | .create title x y width height allocated =>
      (manager.windowCreate title x y width height allocated).2
  | .createTerminal allocated buffer => (manager.windowCreateTerminal allocated buffer).2
  | .createFileBrowser allocated => (manager.windowCreateFileBrowser allocated).2
  | .createTextEditor allocated => (manager.windowCreateTextEditor allocated).2
  | .destroy window => manager.windowDestroy window
  | .showWindow window => manager.windowShow window
  | .hide window => manager.windowHide window
  | .move window x y => manager.windowMove window x y
  | .resize window width height => manager.windowResize window width height
  | .bringToFront window => manager.windowBringToFront window
  | .minimize window => manager.windowMinimize window
  | .maximize window => manager.windowMaximize window
  | .restore window => manager.windowRestore window
  | .handleMouse x y buttons => manager.windowHandleMouse x y buttons
  | .handleKey key => manager.windowHandleKey key

end NansOS.Windows
