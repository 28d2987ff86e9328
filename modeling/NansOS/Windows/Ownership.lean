import NansOS.Foundation.Ledger
import NansOS.Windows.References

/-! Owns what the window manager does with memory: which addresses each call gets
from `malloc`, accesses through a pointer and passes to `free`, in order, and which
keys it appends to which terminal buffer. The addresses that are allocated and not
yet freed are the listed windows with their terminal buffers, and what a terminal
buffer holds are the keys that were typed into it. Each part of a call preserves
this, so that every call does. -/

namespace NansOS.Windows

open NansOS.Foundation
open NansOS.Kernel

/-! ### Acts -/

/-- What a call does beyond its own variables. Clearing a buffer and typing into it
are accesses to it. -/
inductive Act where
  | allocate (address : UInt64)
  | access (address : UInt64)
  | release (address : UInt64)
  | clear (buffer : UInt64)
  | type (buffer : UInt64) (key : UInt8)
deriving DecidableEq

/-- What the act does with memory. -/
def Act.memory : Act → MemoryEvent UInt64
  | .allocate address => .allocate address
  | .access address => .access address
  | .release address => .release address
  | .clear buffer => .access buffer
  | .type buffer _ => .access buffer

/-- The keys typed into each buffer since it was cleared. -/
def Act.note (typed : UInt64 → List UInt8) : Act → UInt64 → List UInt8
  | .clear buffer => Function.update typed buffer []
  | .type buffer key => Function.update typed buffer (typed buffer ++ [key])
  | _ => typed

namespace Manager

/-- The `content` fields. -/
def content (manager : Manager) (window : UInt64) : UInt64 := (manager.records window).content

/-- The terminal buffer of a window, if it has one. -/
def bufferOf (manager : Manager) (window : UInt64) : List UInt64 :=
  if manager.content window = 0 then [] else [manager.content window]

/-- `window_destroy` reads the content of a listed window, and frees both. -/
def destroyActs (manager : Manager) (window : UInt64) : List Act :=
  if window = 0 then []
  else
    match findSlot manager.windows manager.numWindows window with
    | none => []
    | some _ =>
        .access window :: ((manager.bufferOf window).map .release ++ [.release window])

/-- `window_create` fills the window that it gets. -/
def createActs (manager : Manager) (allocated : UInt64) : List Act :=
  if manager.numWindows ≥ maxWindows then []
  else if allocated = 0 then []
  else [.allocate allocated, .access allocated]

/-- A created window gets its paint function. -/
def paintedActs (manager : Manager) (allocated : UInt64) : List Act :=
  manager.createActs allocated ++
    if manager.numWindows ≥ maxWindows then []
    else if allocated = 0 then []
    else [.access allocated]

/-- `window_create_terminal`. -/
def terminalActs (manager : Manager) (allocated buffer : UInt64) : List Act :=
  manager.createActs allocated ++
    let (window, created) := manager.createTerminalFrame allocated
    if window = 0 then []
    else if buffer = 0 then created.destroyActs window
    else [.allocate buffer, .clear buffer, .access window]

/-- A call that looks at a window behind a test for `NULL`. -/
def pointerActs (window : UInt64) : List Act := if window = 0 then [] else [.access window]

/-- The windows that the loop of `window_handle_mouse` looks at. -/
def lookedAt (manager : Manager) (x y : UInt16) : List UInt64 :=
  (manager.list.reverse.takeWhile fun window =>
    ¬ ((manager.records window).Visible ∧ (manager.records window).Contains x y)) ++
    (manager.windowAt x y).toList

/-- `window_handle_mouse`. -/
def mouseActs (manager : Manager) (x y : UInt16) (buttons : UInt8) : List Act :=
  if manager.draggingWindow ≠ 0 then
    if LeftButton buttons then [.access manager.draggingWindow] else []
  else
    (manager.lookedAt x y).map .access ++
      match manager.windowAt x y with
      | none => []
      | some window =>
          if (manager.records window).OnCloseButton x y then
            (manager.press window x y buttons).destroyActs window
          else []

/-- `window_handle_key`. -/
def keyActs (manager : Manager) (key : UInt8) : List Act :=
  if manager.activeWindow ≠ 0 then
    .access manager.activeWindow ::
      match (manager.records manager.activeWindow).onKey with
      | none => []
      | some .terminalKey => (manager.bufferOf manager.activeWindow).map fun buffer =>
          .type buffer key
  else []

/-- What a call does beyond the manager's variables, in order. -/
def acts (manager : Manager) : Call → List Act
  | .create _ _ _ _ _ allocated => manager.createActs allocated
  | .createTerminal allocated buffer => manager.terminalActs allocated buffer
  | .createFileBrowser allocated => manager.paintedActs allocated
  | .createTextEditor allocated => manager.paintedActs allocated
  | .destroy window => manager.destroyActs window
  | .showWindow window => pointerActs window
  | .hide window => pointerActs window
  | .move window _ _ => pointerActs window
  | .resize window _ _ => pointerActs window
  | .bringToFront _ => []
  | .minimize window => pointerActs window
  | .maximize window => pointerActs window
  | .restore window => pointerActs window
  | .handleMouse x y buttons => manager.mouseActs x y buttons
  | .handleKey key => manager.keyActs key

/-- What `window_update` accesses: every listed window, and the buffers that visible
terminals are painted from. -/
def updateActs (manager : Manager) : List Act :=
  manager.list.flatMap fun window =>
    .access window ::
      if (manager.records window).Visible ∧
          (manager.records window).onPaint = some .terminalPaint then
        (manager.bufferOf window).map .access
      else []

/-- The pointer that a call uses without looking for it is `NULL` or listed. -/
def UsesListed (manager : Manager) : Call → Prop
  | .showWindow window | .hide window | .move window _ _ | .resize window _ _ | .minimize window
  | .maximize window | .restore window => window = 0 ∨ window ∈ manager.list
  | _ => True

/-! ### What is owned -/

/-- A window and its terminal buffer. -/
def holding (content : UInt64 → UInt64) (window : UInt64) : List UInt64 :=
  window :: if content window = 0 then [] else [content window]

/-- The listed windows and their terminal buffers. -/
def owned (manager : Manager) : List UInt64 := manager.list.flatMap (holding manager.content)

end Manager

/-- The buffer holds the keys, as many as it has room for, and a NUL behind them. -/
structure TerminalBuffer.Shows (buffer : TerminalBuffer) (keys : List UInt8) : Prop where
  text : (List.range buffer.cursor).map buffer.data = keys.take (terminalBufferSize - 1)
  terminated : buffer.data buffer.cursor = 0

/-- The books of a manager: the addresses that are allocated, and the keys that
were typed. -/
structure Accounts where
  live : List UInt64
  typed : UInt64 → List UInt8

/-- The books after some acts. -/
def Accounts.after (accounts : Accounts) (acts : List Act) : Accounts where
  live := settle accounts.live (acts.map Act.memory)
  typed := acts.foldl Act.note accounts.typed

namespace Manager

/-- The manager owns what is allocated, and its terminals show what was typed. -/
structure Balanced (manager : Manager) (accounts : Accounts) : Prop where
  owned : accounts.live.Perm manager.owned
  distinct : accounts.live.Nodup
  texts : ∀ window ∈ manager.list, manager.content window ≠ 0 →
    (manager.buffers (manager.content window)).Shows (accounts.typed (manager.content window))

/-- Part of a call: with fresh addresses from `malloc`, everything that it accesses
and frees is allocated, and the books stay balanced. -/
def Preserves (manager : Manager) (acts : List Act) (after : Manager) : Prop :=
  ∀ accounts : Accounts, manager.Balanced accounts →
    Fresh accounts.live (acts.map Act.memory) →
      Clean accounts.live (acts.map Act.memory) ∧ after.Balanced (accounts.after acts)

variable {manager middle after : Manager}

theorem Preserves.trans {first second : List Act} (begins : manager.Preserves first middle)
    (ends : middle.Preserves second after) : manager.Preserves (first ++ second) after := by
  intro accounts balanced fresh
  rw [List.map_append, fresh_append] at fresh
  obtain ⟨clean, between⟩ := begins accounts balanced fresh.1
  obtain ⟨later, last⟩ := ends _ between fresh.2
  refine ⟨?_, ?_⟩
  · rw [List.map_append, clean_append]
    exact ⟨clean, later⟩
  · simpa [Accounts.after, List.foldl_append] using last

theorem mem_owned_of_listed {window : UInt64} (listed : window ∈ manager.list) :
    window ∈ manager.owned :=
  List.mem_flatMap.mpr ⟨window, listed, List.mem_cons_self⟩

theorem mem_owned_of_content {window : UInt64} (listed : window ∈ manager.list)
    (filled : manager.content window ≠ 0) : manager.content window ∈ manager.owned := by
  refine List.mem_flatMap.mpr ⟨window, listed, ?_⟩
  rw [holding, if_neg filled]
  exact List.mem_cons_of_mem _ List.mem_cons_self

theorem owned_congr (list : after.list.Perm manager.list)
    (content : after.content = manager.content) : after.owned.Perm manager.owned := by
  rw [owned, owned, content]
  exact list.flatMap_right _

/-- Listed windows are listed once, since what is allocated is. -/
theorem Balanced.list_nodup {accounts : Accounts} (balanced : manager.Balanced accounts) :
    manager.list.Nodup := by
  have within (list : List UInt64) : list.Sublist (list.flatMap (holding manager.content)) := by
    induction list with
    | nil => exact List.Sublist.refl _
    | cons window rest inductionHypothesis =>
        rw [List.flatMap_cons, holding]
        exact (inductionHypothesis.trans (List.sublist_append_right _ _)).cons_cons window
  exact (within manager.list).nodup (balanced.owned.nodup_iff.mp balanced.distinct)

/-! ### Parts of a call -/

theorem note_accesses (typed : UInt64 → List UInt8) (accesses : List UInt64) :
    (accesses.map Act.access).foldl Act.note typed = typed := by
  induction accesses with
  | nil => rfl
  | cons address rest inductionHypothesis => exact inductionHypothesis

/-- Looking at windows and rearranging them. -/
theorem preserves_kept (accesses : List UInt64)
    (within : ∀ address ∈ accesses, address ∈ manager.owned)
    (list : after.list.Perm manager.list) (content : after.content = manager.content)
    (buffers : after.buffers = manager.buffers) :
    manager.Preserves (accesses.map .access) after := by
  intro accounts balanced _
  have memory : (accesses.map Act.access).map Act.memory = accesses.map MemoryEvent.access := by
    rw [List.map_map]
    rfl
  rw [memory]
  refine ⟨clean_accesses fun address member => balanced.owned.mem_iff.mpr (within address member),
    ?_⟩
  rw [Accounts.after, memory, settle_accesses, note_accesses]
  refine ⟨balanced.owned.trans (owned_congr list content).symm, balanced.distinct, ?_⟩
  intro window listed filled
  rw [content] at filled ⊢
  rw [buffers]
  exact balanced.texts window (list.mem_iff.mp listed) filled

/-- A call that does nothing with memory. -/
theorem preserves_nothing (list : after.list.Perm manager.list)
    (content : after.content = manager.content) (buffers : after.buffers = manager.buffers) :
    manager.Preserves [] after :=
  preserves_kept [] (fun _ absent => absurd absent List.not_mem_nil) list content
    buffers

/-- A new window without content. -/
theorem preserves_entered {window : UInt64} (list : after.list.Perm (window :: manager.list))
    (content : after.content = Function.update manager.content window 0)
    (buffers : after.buffers = manager.buffers) :
    manager.Preserves [.allocate window, .access window] after := by
  intro accounts balanced fresh
  have unlisted : window ∉ manager.list := fun listed =>
    fresh.1 (balanced.owned.mem_iff.mpr (mem_owned_of_listed listed))
  have others : ∀ other ∈ manager.list, after.content other = manager.content other := by
    intro other listed
    have different : other ≠ window := by
      rintro rfl
      exact unlisted listed
    rw [content, Function.update_of_ne different]
  refine ⟨⟨List.mem_cons_self, trivial⟩, ?_, List.nodup_cons.mpr ⟨fresh.1, balanced.distinct⟩, ?_⟩
  · have same : manager.list.flatMap (holding after.content) = manager.owned := by
      apply List.flatMap_congr
      intro other listed
      rw [holding, holding, others other listed]
    have holds : holding after.content window = [window] := by
      rw [holding, content, Function.update_self, if_pos rfl]
    have entered : after.owned.Perm ([window] ++ manager.owned) := by
      rw [← same, ← holds]
      exact list.flatMap_right _
    exact (balanced.owned.cons window).trans entered.symm
  · intro other listed filled
    rcases List.mem_cons.mp (list.mem_iff.mp listed) with rfl | before
    · rw [content, Function.update_self] at filled
      exact absurd rfl filled
    · rw [others other before] at filled ⊢
      rw [buffers]
      exact balanced.texts other before filled

/-- A listed window that is freed with its content. -/
theorem preserves_left {window : UInt64} (listed : window ∈ manager.list)
    (list : after.list = manager.list.erase window) (content : after.content = manager.content)
    (buffers : after.buffers = manager.buffers) :
    manager.Preserves (.access window :: ((manager.bufferOf window).map .release ++
      [.release window])) after := by
  intro accounts balanced _
  have split : manager.owned.Perm (holding manager.content window ++ after.owned) := by
    rw [owned, owned, list, content]
    exact (List.perm_cons_erase listed).flatMap_right _
  have whole := balanced.owned.trans split
  have texts : ∀ other ∈ after.list, after.content other ≠ 0 →
      (after.buffers (after.content other)).Shows (accounts.typed (after.content other)) := by
    intro other kept filled
    rw [content] at filled ⊢
    rw [buffers]
    rw [list] at kept
    exact balanced.texts other (List.mem_of_mem_erase kept) filled
  have member : window ∈ accounts.live :=
    balanced.owned.mem_iff.mpr (mem_owned_of_listed listed)
  by_cases empty : manager.content window = 0
  · rw [holding, if_pos empty] at whole
    rw [bufferOf, if_pos empty]
    have rest := whole.erase window
    rw [List.singleton_append, List.erase_cons_head] at rest
    exact ⟨⟨member, member, trivial⟩, rest, balanced.distinct.erase window, texts⟩
  · rw [holding, if_neg empty] at whole
    rw [bufferOf, if_neg empty]
    have different : window ≠ manager.content window := by
      intro same
      have twice := whole.nodup_iff.mp balanced.distinct
      simp only [List.cons_append, List.nodup_cons, List.mem_cons] at twice
      exact twice.1 (Or.inl same)
    have rest := (whole.erase (manager.content window)).erase window
    rw [List.cons_append, List.erase_cons_tail (by simpa using different), List.singleton_append,
      List.erase_cons_head, List.erase_cons_head] at rest
    have held : manager.content window ∈ accounts.live :=
      balanced.owned.mem_iff.mpr (mem_owned_of_content listed empty)
    have remains : window ∈ accounts.live.erase (manager.content window) :=
      (List.mem_erase_of_ne different).mpr member
    exact ⟨⟨member, held, remains, trivial⟩, rest,
      (balanced.distinct.erase _).erase window, texts⟩

/-- An empty buffer shows that nothing has been typed. -/
theorem emptyBuffer_shows : emptyBuffer.Shows [] := ⟨rfl, rfl⟩

/-- A window gets a cleared buffer. -/
theorem preserves_filled {window buffer : UInt64} (listed : window ∈ manager.list)
    (empty : manager.content window = 0) (nonnull : buffer ≠ 0) (list : after.list = manager.list)
    (content : after.content = Function.update manager.content window buffer)
    (buffers : after.buffers = Function.update manager.buffers buffer emptyBuffer) :
    manager.Preserves [.allocate buffer, .clear buffer, .access window] after := by
  intro accounts balanced fresh
  have split := List.perm_cons_erase listed
  have others : ∀ other ∈ manager.list.erase window,
      after.content other = manager.content other := by
    intro other kept
    rw [content, Function.update_of_ne fun same =>
      balanced.list_nodup.not_mem_erase (same ▸ kept)]
  have member : window ∈ accounts.live :=
    balanced.owned.mem_iff.mpr (mem_owned_of_listed listed)
  refine ⟨⟨List.mem_cons_self, List.mem_cons_of_mem _ member, trivial⟩, ?_,
    List.nodup_cons.mpr ⟨fresh.1, balanced.distinct⟩, ?_⟩
  · have same : (manager.list.erase window).flatMap (holding after.content) =
        (manager.list.erase window).flatMap (holding manager.content) := by
      apply List.flatMap_congr
      intro other kept
      rw [holding, holding, others other kept]
    have before : manager.owned.Perm
        (window :: (manager.list.erase window).flatMap (holding manager.content)) := by
      have unfolded := split.flatMap_right (holding manager.content)
      rwa [List.flatMap_cons, holding, if_pos empty] at unfolded
    have later : after.owned.Perm (window :: buffer ::
        (manager.list.erase window).flatMap (holding manager.content)) := by
      have unfolded := split.flatMap_right (holding after.content)
      rw [List.flatMap_cons, same, holding, content, Function.update_self,
        if_neg nonnull] at unfolded
      rw [owned, list, content]
      exact unfolded
    calc buffer :: accounts.live
        |>.Perm (buffer :: manager.owned) := balanced.owned.cons buffer
      _ |>.Perm (buffer :: window :: _) := before.cons buffer
      _ |>.Perm (window :: buffer :: _) := List.Perm.swap _ _ _
      _ |>.Perm after.owned := later.symm
  · intro other kept filled
    rw [list] at kept
    by_cases same : other = window
    · subst same
      rw [content, Function.update_self, buffers, Function.update_self]
      change emptyBuffer.Shows (Function.update accounts.typed buffer [] buffer)
      rw [Function.update_self]
      exact emptyBuffer_shows
    · have before := others other ((List.mem_erase_of_ne same).mpr kept)
      rw [before] at filled ⊢
      have different : manager.content other ≠ buffer := by
        intro taken
        exact fresh.1 (balanced.owned.mem_iff.mpr (taken ▸ mem_owned_of_content kept filled))
      rw [buffers, Function.update_of_ne different]
      change TerminalBuffer.Shows _ (Function.update accounts.typed buffer [] _)
      rw [Function.update_of_ne different]
      exact balanced.texts other kept filled

end Manager

/-- A key that is typed, if there is room for it. -/
def TerminalBuffer.push (buffer : TerminalBuffer) (key : UInt8) : TerminalBuffer :=
  if buffer.cursor < terminalBufferSize - 1 then
    { data := Function.update (Function.update buffer.data buffer.cursor key) (buffer.cursor + 1) 0
      cursor := buffer.cursor + 1 }
  else buffer

/-- The cursor stands behind the text. -/
theorem TerminalBuffer.Shows.cursor {buffer : TerminalBuffer} {keys : List UInt8}
    (shows : buffer.Shows keys) : buffer.cursor = min (terminalBufferSize - 1) keys.length := by
  have lengths := congrArg List.length shows.text
  rwa [List.length_map, List.length_range, List.length_take] at lengths

theorem TerminalBuffer.Shows.push {buffer : TerminalBuffer} {keys : List UInt8}
    (shows : buffer.Shows keys) (key : UInt8) : (buffer.push key).Shows (keys ++ [key]) := by
  have cursor := shows.cursor
  rw [TerminalBuffer.push]
  by_cases room : buffer.cursor < terminalBufferSize - 1
  · rw [if_pos room]
    have short : keys.length < terminalBufferSize - 1 := by omega
    refine ⟨?_, Function.update_self _ _ _⟩
    have before : (List.range buffer.cursor).map
        (Function.update (Function.update buffer.data buffer.cursor key) (buffer.cursor + 1) 0) =
          (List.range buffer.cursor).map buffer.data := by
      apply List.map_congr_left
      intro index member
      have below := List.mem_range.mp member
      rw [Function.update_of_ne (by omega), Function.update_of_ne (by omega)]
    dsimp only
    rw [List.range_succ, List.map_append, before, shows.text, List.map_singleton,
      Function.update_of_ne (by omega), Function.update_self, List.take_of_length_le short.le,
      List.take_of_length_le (by rw [List.length_append]; exact short)]
  · rw [if_neg room]
    have full : terminalBufferSize - 1 ≤ keys.length := by omega
    refine ⟨?_, shows.terminated⟩
    rw [List.take_append_of_le_length full]
    exact shows.text

namespace Manager

variable {manager middle after : Manager}

/-- A key for a window with a buffer is pushed into it. -/
theorem terminalKey_eq {window : UInt64} (filled : manager.content window ≠ 0) (key : UInt8) :
    manager.terminalKey window key =
      { manager with
        buffers := Function.update manager.buffers (manager.content window)
          ((manager.buffers (manager.content window)).push key) } := by
  simp only [terminalKey, TerminalBuffer.push]
  by_cases room : (manager.buffers (manager.content window)).cursor < terminalBufferSize - 1
  · rw [if_pos ⟨filled, room⟩, if_pos room]
    rfl
  · rw [if_neg fun both => room both.2, if_neg room, Function.update_eq_self]

/-- A key for the buffer of a listed window. -/
theorem preserves_typed {window : UInt64} (listed : window ∈ manager.list)
    (filled : manager.content window ≠ 0) (key : UInt8) :
    manager.Preserves [.access window, .type (manager.content window) key]
      (manager.terminalKey window key) := by
  intro accounts balanced _
  have window_live : window ∈ accounts.live :=
    balanced.owned.mem_iff.mpr (mem_owned_of_listed listed)
  have buffer_live : manager.content window ∈ accounts.live :=
    balanced.owned.mem_iff.mpr (mem_owned_of_content listed filled)
  rw [terminalKey_eq filled]
  refine ⟨⟨window_live, buffer_live, trivial⟩, balanced.owned, balanced.distinct, ?_⟩
  intro other member some
  have before := balanced.texts other member some
  change TerminalBuffer.Shows (Function.update manager.buffers _ _ (manager.content other))
    (Function.update accounts.typed _ _ (manager.content other))
  by_cases same : manager.content other = manager.content window
  · rw [same, Function.update_self, Function.update_self]
    rw [same] at before
    exact before.push key
  · rw [Function.update_of_ne same, Function.update_of_ne same]
    exact before

/-! ### Calls -/

theorem content_congr (records : after.records = manager.records) :
    after.content = manager.content := by
  funext window
  rw [content, content, records]

theorem content_update {window : UInt64} {record : Window}
    (records : after.records = Function.update manager.records window record) :
    after.content = Function.update manager.content window record.content := by
  funext other
  rw [content, records]
  by_cases same : other = window
  · subst same
    rw [Function.update_self, Function.update_self]
  · rw [Function.update_of_ne same, Function.update_of_ne same]
    rfl

theorem content_modify (window : UInt64) (change : Window → Window) :
    (manager.modify window change).content =
      Function.update manager.content window (change (manager.records window)).content := by
  have records : (manager.modify window change).records =
      Function.update manager.records window (change (manager.records window)) := rfl
  exact content_update records

theorem modify_content (window : UInt64) {change : Window → Window}
    (same : ∀ record : Window, (change record).content = record.content) :
    (manager.modify window change).content = manager.content := by
  rw [content_modify, same]
  exact Function.update_eq_self _ _

theorem preserves_lifted {window : UInt64} (lifted : Rearranged manager after (.lift window)) :
    manager.Preserves [] after := by
  refine preserves_nothing ?_ (content_congr lifted.records) lifted.buffers
  rw [lifted.list]
  exact arrange_lift_perm _ _

/-- A call that looks at its window and rearranges. -/
theorem preserves_pointer {window : UInt64} (uses : window = 0 ∨ window ∈ manager.list)
    (list : after.list.Perm manager.list) (content : after.content = manager.content)
    (buffers : after.buffers = manager.buffers) :
    manager.Preserves (pointerActs window) after := by
  rw [pointerActs]
  split
  · exact preserves_nothing list content buffers
  · next nonnull =>
      have listed := uses.resolve_left nonnull
      refine preserves_kept [window] ?_ list content buffers
      intro address member
      rw [List.mem_singleton.mp member]
      exact mem_owned_of_listed listed

theorem preserves_assigned {refused : Prop} [Decidable refused] {window : UInt64}
    (uses : window = 0 ∨ window ∈ manager.list) {change : Window → Window}
    (same : ∀ record : Window, (change record).content = record.content) :
    manager.Preserves (pointerActs window)
      (if refused then manager else manager.modify window change) := by
  split
  · exact preserves_pointer uses (List.Perm.refl _) rfl rfl
  · exact preserves_pointer uses (List.Perm.refl _) (modify_content window same) rfl

theorem preserves_show (bounded : manager.Bounded) {window : UInt64}
    (uses : window = 0 ∨ window ∈ manager.list) :
    manager.Preserves (pointerActs window) (manager.windowShow window) := by
  rw [windowShow]
  split
  · exact preserves_pointer uses (List.Perm.refl _) rfl rfl
  · have shown : manager.Preserves (pointerActs window) (manager.modify window fun record =>
        { record with flags := record.flags ||| flagVisible }) :=
      preserves_pointer uses (List.Perm.refl _) (modify_content window fun _ => rfl) rfl
    rw [← List.append_nil (pointerActs window)]
    exact shown.trans (preserves_lifted (bringToFront_spec (modify_bounded bounded _ _) window).1)

theorem preserves_hide {window : UInt64} (uses : window = 0 ∨ window ∈ manager.list) :
    manager.Preserves (pointerActs window) (manager.windowHide window) := by
  have same : (manager.modify window fun record =>
      { record with flags := record.flags &&& ~~~flagVisible }).content = manager.content :=
    modify_content window fun _ => rfl
  simp only [windowHide]
  split
  · exact preserves_pointer uses (List.Perm.refl _) rfl rfl
  · split
    · exact preserves_pointer uses (List.Perm.refl _) same rfl
    · exact preserves_pointer uses (List.Perm.refl _) same rfl

theorem preserves_destroy (bounded : manager.Bounded) (window : UInt64) :
    manager.Preserves (manager.destroyActs window) (manager.windowDestroy window) := by
  by_cases member : window ∈ manager.list
  · have nonnull : window ≠ 0 := fun null => bounded.nonnull (null ▸ member)
    obtain ⟨index, below, found, erased⟩ := findSlot_listed member
    have left := (destroy_spec bounded window).1
    rw [destroyActs, if_neg nonnull, found]
    exact preserves_left member left.list (content_congr left.records) left.buffers
  · have none : manager.destroyActs window = [] := by
      rw [destroyActs, findSlot_unlisted member, ite_self]
    rw [none, windowDestroy_unlisted member]
    exact preserves_nothing (List.Perm.refl _) rfl rfl

theorem windowBringToFront_buffers (window : UInt64) :
    (manager.windowBringToFront window).buffers = manager.buffers := by
  rw [windowBringToFront]
  split
  · rfl
  · split <;> rfl

theorem windowCreate_buffers (title : CString) (x y width height : UInt16) (allocated : UInt64) :
    (manager.windowCreate title x y width height allocated).2.buffers = manager.buffers := by
  rw [windowCreate]
  split
  · rfl
  · split
    · rfl
    · exact windowBringToFront_buffers allocated

/-- A creation either fails and does nothing, or enters the window. -/
theorem preserves_create (bounded : manager.Bounded) (title : CString) (x y width height : UInt16)
    (allocated : UInt64) :
    manager.Preserves (manager.createActs allocated)
      (manager.windowCreate title x y width height allocated).2 := by
  rw [createActs]
  by_cases full : manager.numWindows ≥ maxWindows
  · rw [if_pos full, windowCreate, if_pos full]
    exact preserves_nothing (List.Perm.refl _) rfl rfl
  · by_cases failed : allocated = 0
    · rw [if_neg full, if_pos failed, windowCreate, if_neg full, if_pos failed]
      exact preserves_nothing (List.Perm.refl _) rfl rfl
    · rw [if_neg full, if_neg failed]
      rcases create_spec bounded title x y width height allocated with
        same | ⟨_, _, _, list, _, _, records⟩
      · rw [windowCreate, if_neg full, if_neg failed] at same
        exact absurd (congrArg Prod.fst same) failed
      · refine preserves_entered ?_ (content_update records) (windowCreate_buffers _ _ _ _ _ _)
        rw [list, arrange, arrange]
        exact (arrange_lift_perm _ _).trans (List.perm_append_singleton _ _)

theorem preserves_createPainted (bounded : manager.Bounded) (title : CString)
    (x y width height : UInt16) (paint : PaintHandler) (allocated : UInt64) :
    manager.Preserves (manager.paintedActs allocated)
      (manager.createPainted title x y width height paint allocated).2 := by
  rw [paintedActs]
  refine (preserves_create bounded title x y width height allocated).trans ?_
  simp only [createPainted]
  by_cases full : manager.numWindows ≥ maxWindows
  · rw [if_pos full, windowCreate, if_pos full]
    exact preserves_nothing (List.Perm.refl _) rfl rfl
  · by_cases failed : allocated = 0
    · rw [if_neg full, if_pos failed, windowCreate, if_neg full, if_pos failed]
      exact preserves_nothing (List.Perm.refl _) rfl rfl
    · rw [if_neg full, if_neg failed]
      rcases create_spec bounded title x y width height allocated with
        same | ⟨address, _, _, list, _⟩
      · rw [windowCreate, if_neg full, if_neg failed] at same
        exact absurd (congrArg Prod.fst same) failed
      · rw [address, if_neg failed]
        dsimp only
        refine preserves_kept [allocated] ?_ (List.Perm.refl _)
          (modify_content allocated fun _ => rfl) rfl
        intro other member
        rw [List.mem_singleton.mp member]
        apply mem_owned_of_listed
        rw [list, mem_arrange_lift]
        exact List.mem_append_right _ (List.mem_singleton_self _)

/-- A terminal without room for its buffer is destroyed again. -/
theorem preserves_createTerminal (bounded : manager.Bounded) (allocated buffer : UInt64) :
    manager.Preserves (manager.terminalActs allocated buffer)
      (manager.windowCreateTerminal allocated buffer).2 := by
  have created : manager.Preserves (manager.createActs allocated)
      (manager.createTerminalFrame allocated).2 := preserves_create bounded _ _ _ _ _ allocated
  rw [terminalActs]
  refine created.trans ?_
  simp only [windowCreateTerminal]
  by_cases failed : (manager.createTerminalFrame allocated).1 = 0
  · rw [if_pos failed, if_pos failed]
    exact preserves_nothing (List.Perm.refl _) rfl rfl
  · rw [if_neg failed, if_neg failed]
    rcases create_spec bounded _ _ _ _ _ allocated with
      same | ⟨address, _, kept, list, _, _, records⟩
    · exact absurd (congrArg Prod.fst same) failed
    · by_cases noBuffer : buffer = 0
      · rw [if_pos noBuffer, if_pos noBuffer]
        exact preserves_destroy kept _
      · rw [if_neg noBuffer, if_neg noBuffer]
        have frame : (manager.createTerminalFrame allocated).1 = allocated := address
        rw [frame]
        dsimp only
        refine preserves_filled ?_ ?_ noBuffer rfl ?_ rfl
        · rw [createTerminalFrame, list, mem_arrange_lift]
          exact List.mem_append_right _ (List.mem_singleton_self _)
        · change ((manager.createTerminalFrame allocated).2.records allocated).content = 0
          rw [createTerminalFrame, records, Function.update_self]
          rfl
        · exact content_modify _ _

/-- The loop of `window_handle_mouse` looks at listed windows. -/
theorem lookedAt_owned {x y : UInt16} :
    ∀ address ∈ manager.lookedAt x y, address ∈ manager.owned := by
  intro address member
  apply mem_owned_of_listed
  rcases List.mem_append.mp member with passed | stopped
  · exact List.mem_reverse.mp ((List.takeWhile_sublist _).subset passed)
  · exact (windowAt_spec (Option.mem_toList.mp stopped)).1

theorem press_preserves (bounded : manager.Bounded) (window : UInt64) (x y : UInt16)
    (buttons : UInt8) {accesses : List UInt64}
    (within : ∀ address ∈ accesses, address ∈ manager.owned) :
    manager.Preserves (accesses.map .access) (manager.press window x y buttons) ∧
      (manager.press window x y buttons).Bounded := by
  by_cases left : LeftButton buttons
  · obtain ⟨list, records, _, kept, _⟩ := press_spec bounded window x y left
    refine ⟨preserves_kept _ within ?_ (content_congr records) ?_, kept⟩
    · rw [list]
      exact arrange_lift_perm _ _
    · rw [press, if_pos left, windowBringToFront_buffers]
      rfl
  · rw [press, if_neg left]
    exact ⟨preserves_kept _ within (List.Perm.refl _) rfl rfl, bounded⟩

/-- A mouse event, while a window that is dragged is listed. -/
theorem preserves_mouse (bounded : manager.Bounded) (held : manager.Held) (x y : UInt16)
    (buttons : UInt8) :
    manager.Preserves (manager.mouseActs x y buttons) (manager.windowHandleMouse x y buttons) := by
  rw [mouseActs]
  by_cases dragging : manager.draggingWindow ≠ 0
  · rw [if_pos dragging, windowHandleMouse, if_pos dragging]
    have listed := held.dragging.resolve_left dragging
    by_cases left : LeftButton buttons
    · rw [if_pos left, if_pos left, windowMove, if_neg dragging]
      refine preserves_kept [manager.draggingWindow] ?_ (List.Perm.refl _)
        (modify_content _ fun _ => rfl) rfl
      intro address member
      rw [List.mem_singleton.mp member]
      exact mem_owned_of_listed listed
    · rw [if_neg left, if_neg left]
      exact preserves_nothing (List.Perm.refl _) rfl rfl
  · rw [if_neg dragging]
    have looks : manager.Preserves ((manager.lookedAt x y).map .access) manager :=
      preserves_kept _ lookedAt_owned (List.Perm.refl _) rfl rfl
    rcases manager.handleMouse_cases x y buttons with
      ⟨moving, _⟩ | ⟨moving, _⟩ | ⟨_, missed, same⟩ | ⟨_, window, hit, titleBar, acted⟩
    · exact absurd moving dragging
    · exact absurd moving dragging
    · rw [same]
      refine looks.trans ?_
      cases hit : manager.windowAt x y with
      | none => exact preserves_nothing (List.Perm.refl _) rfl rfl
      | some window =>
          dsimp only
          rw [if_neg fun close : Window.OnCloseButton _ x y =>
            missed window hit close.inTitleBar]
          exact preserves_nothing (List.Perm.refl _) rfl rfl
    · rw [acted, hit]
      obtain ⟨pressed, kept⟩ := press_preserves bounded window x y buttons
        (lookedAt_owned : ∀ address ∈ manager.lookedAt x y, address ∈ manager.owned)
      refine pressed.trans ?_
      dsimp only
      split
      · exact preserves_destroy kept window
      · exact preserves_nothing (List.Perm.refl _) rfl rfl

/-- A key, while the active window is listed. -/
theorem preserves_key (held : manager.Held) (key : UInt8) :
    manager.Preserves (manager.keyActs key) (manager.windowHandleKey key) := by
  rw [keyActs, windowHandleKey, keyReceiver]
  by_cases active : manager.activeWindow ≠ 0
  · rw [if_pos active, if_pos active]
    have listed := held.active.resolve_left active
    have looks : ∀ address ∈ [manager.activeWindow], address ∈ manager.owned := by
      intro address member
      rw [List.mem_singleton.mp member]
      exact mem_owned_of_listed listed
    cases (manager.records manager.activeWindow).onKey with
    | none => exact preserves_kept _ looks (List.Perm.refl _) rfl rfl
    | some handler =>
        cases handler
        dsimp only [Option.map_some]
        rw [bufferOf]
        by_cases empty : manager.content manager.activeWindow = 0
        · rw [if_pos empty, terminalKey, if_neg fun both => both.1 empty]
          exact preserves_kept _ looks (List.Perm.refl _) rfl rfl
        · rw [if_neg empty]
          exact preserves_typed listed empty key
  · rw [if_neg active, if_neg active]
    exact preserves_nothing (List.Perm.refl _) rfl rfl

/-- The step lemma: every call with listed windows, while the references are listed. -/
theorem call_preserves (bounded : manager.Bounded) (held : manager.Held) {next : Call}
    (uses : manager.UsesListed next) :
    manager.Preserves (manager.acts next) (manager.call next) := by
  cases next with
  | create title x y width height allocated => exact preserves_create bounded _ _ _ _ _ _
  | createTerminal allocated buffer => exact preserves_createTerminal bounded _ _
  | createFileBrowser allocated => exact preserves_createPainted bounded _ _ _ _ _ _ _
  | createTextEditor allocated => exact preserves_createPainted bounded _ _ _ _ _ _ _
  | destroy window => exact preserves_destroy bounded window
  | showWindow window => exact preserves_show bounded uses
  | hide window => exact preserves_hide uses
  | move window x y => exact preserves_assigned uses fun _ => rfl
  | resize window width height => exact preserves_assigned uses fun _ => rfl
  | bringToFront window => exact preserves_lifted (bringToFront_spec bounded window).1
  | minimize window => exact preserves_assigned uses fun _ => rfl
  | maximize window => exact preserves_assigned uses fun _ => rfl
  | restore window => exact preserves_assigned uses fun _ => rfl
  | handleMouse x y buttons => exact preserves_mouse bounded held x y buttons
  | handleKey key => exact preserves_key held key

/-- What `window_update` accesses is owned. -/
theorem updateActs_clean {accounts : Accounts} (balanced : manager.Balanced accounts) :
    Clean accounts.live (manager.updateActs.map Act.memory) := by
  have within : ∀ act ∈ manager.updateActs, ∃ address ∈ accounts.live, act = .access address := by
    intro act member
    obtain ⟨window, listed, part⟩ := List.mem_flatMap.mp member
    rcases List.mem_cons.mp part with rfl | painted
    · exact ⟨window, balanced.owned.mem_iff.mpr (mem_owned_of_listed listed), rfl⟩
    · split at painted
      · obtain ⟨buffer, filled, rfl⟩ := List.mem_map.mp painted
        rw [bufferOf] at filled
        split at filled
        · exact absurd filled List.not_mem_nil
        · next some =>
            rw [List.mem_singleton.mp filled]
            exact ⟨_, balanced.owned.mem_iff.mpr (mem_owned_of_content listed some), rfl⟩
      · exact absurd painted List.not_mem_nil
  generalize manager.updateActs = acts at within
  induction acts with
  | nil => trivial
  | cons act rest inductionHypothesis =>
      obtain ⟨address, live, rfl⟩ := within act List.mem_cons_self
      exact ⟨live, inductionHypothesis fun other member =>
        within other (List.mem_cons_of_mem _ member)⟩

end Manager

end NansOS.Windows
