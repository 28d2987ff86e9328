import NansOS.Keyboard.Typing
import NansOS.Kernel.Setup
import NansOS.Windows.Ownership
import NansOS.Windows.Focus

/-! Owns the way of a key from the keyboard to the desktop: an interrupt delivers
characters to `keyboard_char`, which feeds the setup wizard until it is complete, then
sets the desktop up and hands every further character to the window manager. Nothing
else in the kernel calls the window manager with input: the mouse callback only
reports what it gets. -/

namespace NansOS.Windows

open NansOS.Foundation
open NansOS.Kernel

/-- What `malloc` returns to `window_init_gui`, `0` for a failure. -/
structure GuiMemory where
  terminal : UInt64
  buffer : UInt64
  fileBrowser : UInt64

namespace Manager

/-- What `window_init_gui` does with a window it has just created. -/
def showAt (manager : Manager) (window : UInt64) (x y : UInt16) : Manager :=
  if window ≠ 0 then (manager.windowShow window).windowMove window x y else manager

/-- `window_init_gui`. The mode that `vga_get_mode` returns is never `NULL`; drawing is
left out. -/
def windowInitGui (manager : Manager) (memory : GuiMemory) : Manager :=
  let (terminal, opened) := manager.windowCreateTerminal memory.terminal memory.buffer
  let placed := opened.showAt terminal 50 50
  let (fileBrowser, opened) := placed.windowCreateFileBrowser memory.fileBrowser
  opened.showAt fileBrowser 200 100

end Manager

/-- The variables of the wizard and of the window manager. -/
abbrev System := Setup × Manager

/-- `keyboard_char`, with all that it calls. -/
def keyboardCharacter (memory : GuiMemory) (system : System) (c : UInt8) : System :=
  let (setup, manager) := system
  if setup.setupComplete = false then
    let setup := handleSetupInput setup c
    if setup.setupComplete = true then (setup, manager.windowInit.windowInitGui memory)
    else (setup, manager)
  else (setup, manager.windowHandleKey c)

/-! ### Windows in a row -/

namespace Manager

variable {manager after : Manager} {order : List UInt64} {window allocated buffer : UInt64}

/-- The windows in the order of their creation, the last one active. -/
structure InRow (manager : Manager) (order : List UInt64) : Prop where
  bounded : manager.Bounded
  list : manager.list = order
  active : manager.activeWindow = order.getLastD 0

theorem inRow_init (manager : Manager) : manager.windowInit.InRow [] where
  bounded := manager.windowInit_bounded
  list := rfl
  active := rfl

theorem InRow.create (row : manager.InRow order) (short : order.length < maxWindows)
    (nonnull : allocated ≠ 0) (absent : allocated ∉ order) (title : CString)
    (x y width height : UInt16) :
    let result := manager.windowCreate title x y width height allocated
    result.1 = allocated ∧ result.2.InRow (order ++ [allocated]) ∧
      result.2.records = Function.update manager.records allocated
        (createdRecord title x y width height) := by
  have length := congrArg List.length row.list
  rw [Manager.list, slotList_length] at length
  have room : ¬ manager.numWindows ≥ maxWindows := by omega
  rcases create_spec row.bounded title x y width height allocated with
    failed | ⟨address, _, bounded, list, active, _, records⟩
  · rw [windowCreate, if_neg room, if_neg nonnull] at failed
    exact absurd (congrArg Prod.fst failed) nonnull
  · rw [row.list, arrange_enter_lift absent] at list
    refine ⟨address, ⟨bounded, list, ?_⟩, records⟩
    rw [active, List.getLastD_concat]

/-- Raising the last window leaves the row as it is. -/
theorem InRow.bringToFront (row : manager.InRow (order ++ [window])) (absent : window ∉ order) :
    (manager.windowBringToFront window).InRow (order ++ [window]) ∧
      (manager.windowBringToFront window).records = manager.records ∧
      (manager.windowBringToFront window).buffers = manager.buffers := by
  have ⟨raised, active⟩ := bringToFront_spec row.bounded window
  have last : window ∈ manager.list := by
    rw [row.list]
    exact List.mem_append_right _ (List.mem_singleton_self _)
  refine ⟨⟨raised.bounded, ?_, ?_⟩, raised.records, raised.buffers⟩
  · have same := arrange_enter_lift absent
    rw [arrange] at same
    rw [raised.list, row.list, same]
  · rw [active, if_pos last, List.getLastD_concat]

/-- Destroying the last window leaves the row before it. -/
theorem InRow.destroy (row : manager.InRow (order ++ [window])) (absent : window ∉ order) :
    (manager.windowDestroy window).InRow order := by
  have ⟨removed, active⟩ := destroy_spec row.bounded window
  have erased : manager.list.erase window = order := by
    rw [row.list, List.erase_append_right _ absent, List.erase_cons_head, List.append_nil]
  refine ⟨removed.bounded, removed.list.trans erased, ?_⟩
  have last : window ∈ manager.list ∧ manager.activeWindow = window := by
    rw [row.list, row.active, List.getLastD_concat]
    exact ⟨List.mem_append_right _ (List.mem_singleton_self _), rfl⟩
  rw [active, if_pos last, erased]

theorem InRow.modify (row : manager.InRow order) (window : UInt64) (change : Window → Window) :
    (manager.modify window change).InRow order where
  bounded := modify_bounded row.bounded window change
  list := row.list
  active := row.active

/-- Every window keeps its key function and its buffer, and every buffer its text. -/
structure KeepsKeys (manager after : Manager) : Prop where
  onKey : ∀ window, (after.records window).onKey = (manager.records window).onKey
  content : ∀ window, (after.records window).content = (manager.records window).content
  buffers : after.buffers = manager.buffers

theorem keepsKeys_modify (manager : Manager) (window : UInt64) {change : Window → Window}
    (onKey : ∀ record, (change record).onKey = record.onKey)
    (content : ∀ record, (change record).content = record.content) :
    manager.KeepsKeys (manager.modify window change) := by
  refine ⟨fun other => ?_, fun other => ?_, rfl⟩
  · by_cases same : other = window
    · rw [same, modify_records_self, onKey]
    · rw [modify_records_of_ne same]
  · by_cases same : other = window
    · rw [same, modify_records_self, content]
    · rw [modify_records_of_ne same]

theorem KeepsKeys.trans {middle : Manager} (first : manager.KeepsKeys middle)
    (second : middle.KeepsKeys after) : manager.KeepsKeys after where
  onKey := fun window => (second.onKey window).trans (first.onKey window)
  content := fun window => (second.content window).trans (first.content window)
  buffers := second.buffers.trans first.buffers

/-- Showing and placing the last window. -/
theorem InRow.showAt (row : manager.InRow (order ++ [window])) (absent : window ∉ order)
    (nonnull : window ≠ 0) (x y : UInt16) :
    (manager.showAt window x y).InRow (order ++ [window]) ∧
      manager.KeepsKeys (manager.showAt window x y) := by
  have flagged : manager.KeepsKeys (manager.modify window fun record =>
      { record with flags := record.flags ||| flagVisible }) :=
    keepsKeys_modify manager window (fun _ => rfl) fun _ => rfl
  have ⟨raised, records, buffers⟩ := (row.modify window fun record =>
    { record with flags := record.flags ||| flagVisible }).bringToFront absent
  have lifted : (manager.modify window fun record =>
      { record with flags := record.flags ||| flagVisible }).KeepsKeys
        ((manager.modify window fun record =>
          { record with flags := record.flags ||| flagVisible }).windowBringToFront window) :=
    ⟨fun _ => by rw [records], fun _ => by rw [records], buffers⟩
  simp only [Manager.showAt, windowMove, if_neg nonnull, windowShow, ite_not]
  exact ⟨raised.modify window _, (flagged.trans lifted).trans
    (keepsKeys_modify _ window (fun _ => rfl) fun _ => rfl)⟩

theorem InRow.createTerminalFrame (row : manager.InRow order) (short : order.length < maxWindows)
    (nonnull : allocated ≠ 0) (absent : allocated ∉ order) :
    (manager.createTerminalFrame allocated).1 = allocated ∧
      (manager.createTerminalFrame allocated).2.InRow (order ++ [allocated]) := by
  have ⟨address, created, _⟩ := row.create short nonnull absent
    ⟨[84, 101, 114, 109, 105, 110, 97, 108], by decide⟩ 100 100 400 300
  exact ⟨address, created⟩

/-- A terminal gets its buffer, cleared, and types into it. -/
theorem InRow.createTerminal (row : manager.InRow order) (short : order.length < maxWindows)
    (nonnull : allocated ≠ 0) (absent : allocated ∉ order) (held : buffer ≠ 0) :
    let result := manager.windowCreateTerminal allocated buffer
    result.1 = allocated ∧ result.2.InRow (order ++ [allocated]) ∧
      (result.2.records allocated).onKey = some .terminalKey ∧
      (result.2.records allocated).content = buffer ∧ result.2.buffers buffer = emptyBuffer := by
  have ⟨named, framed⟩ := row.createTerminalFrame short nonnull absent
  simp only [windowCreateTerminal, named, if_neg nonnull, if_neg held, modify_records_self]
  have cleared : InRow
      { (manager.createTerminalFrame allocated).2 with
        buffers := Function.update (manager.createTerminalFrame allocated).2.buffers buffer
          emptyBuffer } (order ++ [allocated]) :=
    ⟨framed.bounded.congr rfl rfl, framed.list, framed.active⟩
  exact ⟨trivial, cleared.modify _ _, trivial, trivial, Function.update_self _ _ _⟩

/-- Without a window or without a buffer there is no terminal. -/
theorem InRow.createTerminal_fails (row : manager.InRow order) (short : order.length < maxWindows)
    (absent : allocated ∉ order) (failed : ¬ (allocated ≠ 0 ∧ buffer ≠ 0)) :
    let result := manager.windowCreateTerminal allocated buffer
    result.1 = 0 ∧ result.2.InRow order := by
  by_cases null : allocated = 0
  · have none : manager.createTerminalFrame allocated = (0, manager) := by
      rw [Manager.createTerminalFrame, windowCreate, if_pos null, ite_self]
    simp only [windowCreateTerminal, none, if_true]
    exact ⟨trivial, row⟩
  · have noBuffer : buffer = 0 := by
      by_contra held
      exact failed ⟨null, held⟩
    have framed := row.createTerminalFrame short null absent
    simp only [windowCreateTerminal, framed.1, if_neg null, if_pos noBuffer]
    exact ⟨trivial, framed.2.destroy absent⟩

/-- A file browser has no key function; the other windows keep theirs. -/
theorem InRow.createFileBrowser (row : manager.InRow order) (short : order.length < maxWindows)
    (nonnull : allocated ≠ 0) (absent : allocated ∉ order) :
    let result := manager.windowCreateFileBrowser allocated
    result.1 = allocated ∧ result.2.InRow (order ++ [allocated]) ∧
      (result.2.records allocated).onKey = none ∧
      (∀ other, other ≠ allocated → result.2.records other = manager.records other) ∧
      result.2.buffers = manager.buffers := by
  have ⟨address, created, records⟩ := row.create short nonnull absent
    ⟨[70, 105, 108, 101, 32, 66, 114, 111, 119, 115, 101, 114], by decide⟩ 150 150 500 400
  simp only [windowCreateFileBrowser, createPainted, address, if_neg nonnull, modify_records_self]
  refine ⟨trivial, created.modify _ _, ?_, ?_, windowCreate_buffers _ _ _ _ _ _⟩
  · rw [records, Function.update_self]
    rfl
  · intro other different
    rw [modify_records_of_ne different, records, Function.update_of_ne different]

theorem createFileBrowser_fails (manager : Manager) :
    manager.windowCreateFileBrowser 0 = (0, manager) := by
  simp only [windowCreateFileBrowser, createPainted, windowCreate, if_true, ite_self]

end Manager

/-! ### The desktop -/

namespace GuiMemory

variable (memory : GuiMemory)

/-- Both allocations for the terminal succeed. -/
def HasTerminal : Prop := memory.terminal ≠ 0 ∧ memory.buffer ≠ 0

instance : Decidable memory.HasTerminal := inferInstanceAs (Decidable (_ ∧ _))

/-- The windows of the desktop, from behind to in front. -/
def windows : List UInt64 :=
  (if memory.HasTerminal then [memory.terminal] else []) ++
    if memory.fileBrowser ≠ 0 then [memory.fileBrowser] else []

/-- `malloc` returns no address that is in use. -/
def Fresh : Prop := memory.HasTerminal → memory.fileBrowser ≠ memory.terminal

instance : Decidable memory.Fresh := inferInstanceAs (Decidable (_ → _))

end GuiMemory

/-- The terminal's window types into the buffer, which holds the first 1023 keys typed. -/
structure Manager.Types (manager : Manager) (memory : GuiMemory) (typed : List UInt8) : Prop where
  onKey : (manager.records memory.terminal).onKey = some .terminalKey
  content : manager.content memory.terminal = memory.buffer
  shows : (manager.buffers memory.buffer).Shows typed

/-- The windows of the desktop are listed; keys go to the terminal if it is in front. -/
structure Desktop (memory : GuiMemory) (typed : List UInt8) (manager : Manager) : Prop where
  list : manager.list = memory.windows
  receiver : manager.keyReceiver =
    if memory.HasTerminal ∧ memory.fileBrowser = 0 then some (memory.terminal, .terminalKey)
    else none
  types : memory.HasTerminal → manager.Types memory typed

namespace Manager

variable {manager after : Manager} {memory : GuiMemory} {typed : List UInt8}

theorem Types.kept (types : manager.Types memory typed) (kept : manager.KeepsKeys after) :
    after.Types memory typed where
  onKey := (kept.onKey _).trans types.onKey
  content := (kept.content _).trans types.content
  shows := by
    rw [kept.buffers]
    exact types.shows

/-- The first half of `window_init_gui`. -/
theorem terminal_placed (memory : GuiMemory) (row : manager.InRow []) :
    let opened := manager.windowCreateTerminal memory.terminal memory.buffer
    let placed := opened.2.showAt opened.1 50 50
    placed.InRow (if memory.HasTerminal then [memory.terminal] else []) ∧
      (memory.HasTerminal → placed.Types memory []) := by
  intro opened placed
  by_cases has : memory.HasTerminal
  · have ⟨address, created, onKey, content, buffer⟩ :=
      row.createTerminal (by decide) has.1 List.not_mem_nil has.2
    have types : opened.2.Types memory [] := by
      refine ⟨onKey, content, ?_⟩
      rw [buffer]
      exact emptyBuffer_shows
    have ⟨shown, kept⟩ := created.showAt List.not_mem_nil has.1 50 50
    rw [if_pos has]
    simp only [placed, opened, address]
    exact ⟨shown, fun _ => types.kept kept⟩
  · have ⟨null, unchanged⟩ :=
      row.createTerminal_fails (by decide) List.not_mem_nil has
    rw [if_neg has]
    simp only [placed, opened, null, showAt]
    exact ⟨unchanged, fun present => absurd present has⟩

/-- A desktop of which the windows are in a row. -/
theorem InRow.desktop (row : manager.InRow memory.windows)
    (types : memory.HasTerminal → manager.Types memory typed)
    (deaf : memory.fileBrowser ≠ 0 → (manager.records memory.fileBrowser).onKey = none) :
    Desktop memory typed manager := by
  refine ⟨row.list, ?_, types⟩
  by_cases browser : memory.fileBrowser = 0
  · by_cases has : memory.HasTerminal
    · have front : manager.activeWindow = memory.terminal := by
        rw [row.active, GuiMemory.windows, if_pos has, if_neg (not_not.mpr browser)]
        rfl
      rw [if_pos ⟨has, browser⟩, keyReceiver, front, if_pos has.1, (types has).onKey]
      rfl
    · have none : manager.activeWindow = 0 := by
        rw [row.active, GuiMemory.windows, if_neg has, if_neg (not_not.mpr browser)]
        rfl
      rw [if_neg fun both => has both.1, keyReceiver, none]
      rfl
  · have front : manager.activeWindow = memory.fileBrowser := by
      rw [row.active, GuiMemory.windows, if_pos browser, List.getLastD_concat]
    rw [if_neg fun both => browser both.2, keyReceiver, front, deaf browser, Option.map_none,
      ite_self]

/-- `window_init_gui` sets the desktop up. -/
theorem windowInitGui_desktop (row : manager.InRow []) (fresh : memory.Fresh) :
    Desktop memory [] (manager.windowInitGui memory) := by
  have ⟨placed, types⟩ := terminal_placed memory row
  unfold windowInitGui
  dsimp only at placed types ⊢
  generalize (manager.windowCreateTerminal memory.terminal memory.buffer).2.showAt
    (manager.windowCreateTerminal memory.terminal memory.buffer).1 50 50 = middle at placed types ⊢
  by_cases browser : memory.fileBrowser = 0
  · rw [browser, createFileBrowser_fails]
    refine InRow.desktop ?_ types fun present => absurd browser present
    rw [GuiMemory.windows, if_neg (not_not.mpr browser), List.append_nil]
    exact placed
  · have absent : memory.fileBrowser ∉
        if memory.HasTerminal then [memory.terminal] else [] := by
      split
      · next has => exact fun member => fresh has (List.mem_singleton.mp member)
      · exact List.not_mem_nil
    have short : (if memory.HasTerminal then [memory.terminal] else []).length < maxWindows := by
      split
      · exact (by decide : 1 < 16)
      · exact (by decide : 0 < 16)
    have ⟨address, opened, deaf, others, buffers⟩ :=
      placed.createFileBrowser short browser absent
    have ⟨shown, kept⟩ := opened.showAt absent browser 200 100
    rw [address]
    refine InRow.desktop ?_ ?_ ?_
    · rw [GuiMemory.windows, if_pos browser]
      exact shown
    · intro has
      have different := (fresh has).symm
      refine Types.kept ⟨?_, ?_, ?_⟩ kept
      · rw [others _ different, (types has).onKey]
      · rw [content, others _ different]
        exact (types has).content
      · rw [buffers]
        exact (types has).shows
    · intro _
      rw [kept.onKey, deaf]

/-- One key on the desktop. -/
theorem desktop_key (desktop : Desktop memory typed manager) (key : UInt8) :
    Desktop memory (if memory.fileBrowser = 0 then typed ++ [key] else typed)
      (manager.windowHandleKey key) := by
  have receiver := desktop.receiver
  rw [windowHandleKey]
  by_cases heard : memory.HasTerminal ∧ memory.fileBrowser = 0
  · have types := desktop.types heard.1
    have filled : manager.content memory.terminal ≠ 0 := by
      rw [types.content]
      exact heard.1.2
    rw [if_pos heard] at receiver
    simp only [receiver]
    rw [terminalKey_eq filled, if_pos heard.2, types.content]
    refine ⟨desktop.list, desktop.receiver, fun _ => ⟨types.onKey, types.content, ?_⟩⟩
    dsimp only
    rw [Function.update_self]
    exact types.shows.push key
  · rw [if_neg heard] at receiver
    simp only [receiver]
    refine ⟨desktop.list, desktop.receiver, fun has => ?_⟩
    rw [if_neg fun null => heard ⟨has, null⟩]
    exact desktop.types has

/-- Any number of keys. -/
theorem desktop_keys (desktop : Desktop memory typed manager) (keys : List UInt8) :
    Desktop memory (if memory.fileBrowser = 0 then typed ++ keys else typed)
      (run windowHandleKey manager keys) := by
  induction keys generalizing manager typed with
  | nil => simpa using desktop
  | cons key rest inductionHypothesis =>
      have later := inductionHypothesis (desktop_key desktop key)
      rw [run_cons]
      split at later
      · next null =>
          rw [if_pos null]
          rwa [List.append_assoc, List.singleton_append] at later
      · next present =>
          rw [if_neg present]
          exact later

end Manager

/-! ### From boot -/

/-- `keyboard_char` is the wizard, which hands over to the window manager. -/
theorem keyboardCharacter_eq (memory : GuiMemory) :
    keyboardCharacter memory =
      handOver keyboardChar Setup.setupComplete
        (fun manager => manager.windowInit.windowInitGui memory) Manager.windowHandleKey := by
  funext ⟨setup, manager⟩ c
  simp only [keyboardCharacter, handOver, keyboardChar]
  cases complete : setup.setupComplete with
  | true => simp
  | false =>
      simp only [if_true, Bool.false_eq_true, if_false]
      split <;> rfl

/-- The system after some characters. -/
theorem run_keyboardCharacter (memory : GuiMemory) (before : Manager) (keys : List UInt8) :
    run (keyboardCharacter memory) (bootSetup, before) keys =
      (run keyboardChar bootSetup keys,
        (remaining setupScript keys).elim before fun typed =>
          run Manager.windowHandleKey (before.windowInit.windowInitGui memory) typed) := by
  have waiting : Waits setupScript bootSetup := ⟨rfl, rfl⟩
  rw [keyboardCharacter_eq]
  exact setup_follows.run_handOver (fun waits => waits.2) waiting before keys

/-- One keyboard interrupt, with the characters that it delivers. -/
def keyboardInterrupt (memory : GuiMemory) (machine : Keyboard.KeyboardState × System)
    (interrupt : Keyboard.Interrupt) : Keyboard.KeyboardState × System :=
  let (calls, state) :=
    Keyboard.keyboardHandler interrupt.callbacks interrupt.controller machine.1
  (state, run (keyboardCharacter memory) machine.2 (Keyboard.charsOf calls))

/-- The characters that interrupts deliver from boot on. -/
def textOf (interrupts : List Keyboard.Interrupt) : List UInt8 :=
  (run Keyboard.Typist.interrupt ⟨Keyboard.KeyboardState.zero, []⟩ interrupts).text

/-- The system sees of the interrupts the text they deliver. -/
theorem run_keyboardInterrupt (memory : GuiMemory) (state : Keyboard.KeyboardState)
    (text : List UInt8) (system : System) (interrupts : List Keyboard.Interrupt) :
    (run (keyboardInterrupt memory) (state, run (keyboardCharacter memory) system text)
        interrupts).2 =
      run (keyboardCharacter memory) system
        (run Keyboard.Typist.interrupt ⟨state, text⟩ interrupts).text := by
  induction interrupts generalizing state text with
  | nil => rfl
  | cons interrupt rest inductionHypothesis =>
      rw [run_cons, run_cons, keyboardInterrupt, Keyboard.Typist.interrupt]
      dsimp only
      rw [← run_append]
      exact inductionHypothesis _ _

/-- For every stream of keyboard interrupts from boot on: as long as the wizard is not
complete the window manager is untouched; behind the script the windows of the desktop
are listed, and its terminal holds the first 1023 keys typed since if there is no file
browser, and none of them otherwise. -/
theorem desktop_after_interrupts (memory : GuiMemory) (fresh : memory.Fresh) (before : Manager)
    (interrupts : List Keyboard.Interrupt) :
    let system :=
      (run (keyboardInterrupt memory) (Keyboard.KeyboardState.zero, (bootSetup, before))
        interrupts).2
    system.1 = setupAfter (textOf interrupts) ∧
      match remaining setupScript (textOf interrupts) with
      | none => system.2 = before
      | some typed => Desktop memory (if memory.fileBrowser = 0 then typed else []) system.2 := by
  have delivered := run_keyboardInterrupt memory Keyboard.KeyboardState.zero [] (bootSetup, before)
    interrupts
  rw [run_nil, run_keyboardCharacter] at delivered
  rw [delivered]
  refine ⟨rfl, ?_⟩
  change match remaining setupScript (textOf interrupts) with
    | none => (remaining setupScript (textOf interrupts)).elim _ _ = before
    | some typed => Desktop memory _ ((remaining setupScript (textOf interrupts)).elim _ _)
  cases remaining setupScript (textOf interrupts) with
  | none => rfl
  | some typed =>
      have stands := Manager.windowInitGui_desktop (Manager.inRow_init before) fresh
      exact Manager.desktop_keys stands typed

/-- A terminal and a file browser. -/
def fullMemory : GuiMemory := ⟨4096, 8192, 12288⟩

/-- `OK` typed behind a hasty script: the file browser is in front, and the terminal
stays empty. -/
theorem hasty_script_desktop :
    let interrupts := (Keyboard.streamOf
      (Keyboard.strokesFor false [10, 49, 49, 49, 49, 49, 10, 79, 75])).map Keyboard.quickInterrupt
    let system :=
      (run (keyboardInterrupt fullMemory) (Keyboard.KeyboardState.zero, (bootSetup, bootManager))
        interrupts).2
    system.1 = setupAfter (textOf interrupts) ∧
      match remaining setupScript (textOf interrupts) with
      | none => system.2 = bootManager
      | some typed =>
          Desktop fullMemory (if fullMemory.fileBrowser = 0 then typed else []) system.2 :=
  desktop_after_interrupts fullMemory (by decide) bootManager _

end NansOS.Windows
