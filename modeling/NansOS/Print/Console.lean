import NansOS.Foundation.Run
import NansOS.Kernel.StringOps

/-! Owns the text console of `print.c`: the cell buffer at `0xb8000`, the
cursor, the current colour and the four printing calls, together with the
effect of each loop on the buffer and on the list of stores made so far.

`buffer` is indexed in cells from `0xb8000` on and has no upper end: a store
past the last cell of the screen is made there, as in the source. `stores`
records every store with the row and the column it was computed from; no call
reads it. The cursor stays below 82, so the `size_t` counters are naturals. -/

namespace NansOS.Print

open NansOS.Foundation
open NansOS.Kernel

/-! ### Data model -/

/-- `NUM_COLS`. -/
abbrev numCols : Nat := 80

/-- `NUM_ROWS`. -/
abbrev numRows : Nat := 25

/-- The newline character. -/
abbrev newline : UInt8 := 10

/-- `struct Char`. -/
structure Cell where
  character : UInt8
  color : UInt8
deriving DecidableEq

/-- Which statement of the source makes a store: the assignment of
`print_char`, the copy of `print_newline`, or the loop of `clear_row`. -/
inductive Origin where
  | character
  | scroll
  | blank
deriving DecidableEq

/-- One store to the cell `col + NUM_COLS * row`. -/
structure Store where
  origin : Origin
  col : Nat
  row : Nat
deriving DecidableEq

/-- The cell index of a store. -/
def Store.index (entry : Store) : Nat := entry.col + numCols * entry.row

/-- The static variables of `print.c`, with the stores made so far, latest
first. -/
structure Console where
  buffer : Nat → Cell
  col : Nat
  row : Nat
  color : UInt8
  stores : List Store

/-- The console at boot, over what is then in video memory. -/
def initialConsole (buffer : Nat → Cell) : Console where
  buffer := buffer
  col := 0
  row := 0
  color := 15
  stores := []

namespace Console

/-! ### Operations -/

/-- One assignment to a cell of the buffer. -/
def store (console : Console) (origin : Origin) (col row : Nat) (cell : Cell) : Console :=
  { console with
    buffer := Function.update console.buffer (col + numCols * row) cell
    stores := ⟨origin, col, row⟩ :: console.stores }

/-- The loop over the first `count` columns that `clear_row` and the copy of
`print_newline` share: each assigns the cells of one row in turn. -/
def fillRow (origin : Origin) (row : Nat) (cells : Console → Nat → Cell) (console : Console)
    (count : Nat) : Console :=
  (List.range count).foldl
    (fun console col => console.store origin col row (cells console col)) console

/-- The blank cell in a colour. -/
def blankCell (color : UInt8) : Cell := ⟨32, color⟩

/-- `clear_row`. -/
def clearRow (console : Console) (row : Nat) : Console :=
  fillRow .blank row (fun _ _ => blankCell console.color) console numCols

/-- `print_clear`. -/
def printClear (console : Console) : Console :=
  (List.range numRows).foldl clearRow console

/-- The inner loop of the copy in `print_newline`: row `row` one row up. -/
def scrollRow (console : Console) (row : Nat) : Console :=
  fillRow .scroll (row - 1) (fun console col => console.buffer (col + numCols * row)) console
    numCols

/-- `print_newline`. -/
def printNewline (console : Console) : Console :=
  let started := { console with col := 0 }
  if started.row < numRows - 1 then
    { started with row := started.row + 1 }
  else
    ((List.range' 1 (numRows - 1)).foldl scrollRow started).clearRow (numRows - 1)

/-- `print_char`. -/
def printChar (console : Console) (character : UInt8) : Console :=
  if character = newline then
    console.printNewline
  else
    let wrapped := if console.col > numCols then console.printNewline else console
    let stored := wrapped.store .character wrapped.col wrapped.row ⟨character, wrapped.color⟩
    { stored with col := stored.col + 1 }

/-- The loop of `print_str` over the characters before the terminator. -/
def printChars (console : Console) (characters : List UInt8) : Console :=
  characters.foldl printChar console

/-- `print_str`. -/
def printStr (console : Console) (string : CString) : Console :=
  console.printChars string.bytes

/-- `print_set_color`. -/
def printSetColor (console : Console) (foreground background : UInt8) : Console :=
  { console with color := foreground + (background <<< 4) }

end Console

/-- One call into the console. -/
inductive Call where
  | char (character : UInt8)
  | str (string : CString)
  | clear
  | setColor (foreground background : UInt8)

/-- The console after one call. -/
def Console.call (console : Console) : Call → Console
  | .char character => console.printChar character
  | .str string => console.printStr string
  | .clear => console.printClear
  | .setColor foreground background => console.printSetColor foreground background

/-- The characters a call prints. -/
def Call.characters : Call → List UInt8
  | .char character => [character]
  | .str string => string.bytes
  | .clear => []
  | .setColor _ _ => []

namespace Console

variable (console : Console)

@[simp] theorem store_buffer (origin : Origin) (col row : Nat) (cell : Cell) :
    (console.store origin col row cell).buffer =
      Function.update console.buffer (col + 80 * row) cell := rfl

@[simp] theorem store_col (origin : Origin) (col row : Nat) (cell : Cell) :
    (console.store origin col row cell).col = console.col := rfl

@[simp] theorem store_row (origin : Origin) (col row : Nat) (cell : Cell) :
    (console.store origin col row cell).row = console.row := rfl

@[simp] theorem store_color (origin : Origin) (col row : Nat) (cell : Cell) :
    (console.store origin col row cell).color = console.color := rfl

/-! ### The loops -/

/-- What a loop that only stores leaves alone. -/
structure SameCursor (left right : Console) : Prop where
  col : left.col = right.col
  row : left.row = right.row
  color : left.color = right.color

theorem SameCursor.trans {first second third : Console} (left : SameCursor first second)
    (right : SameCursor second third) : SameCursor first third :=
  ⟨left.col.trans right.col, left.row.trans right.row, left.color.trans right.color⟩

theorem fillRow_succ (origin : Origin) (row : Nat) (cells : Console → Nat → Cell)
    (count : Nat) :
    fillRow origin row cells console (count + 1) =
      (fillRow origin row cells console count).store origin count row
        (cells (fillRow origin row cells console count) count) := by
  simp [fillRow, List.range_succ]

theorem fillRow_cursor (origin : Origin) (row : Nat) (cells : Console → Nat → Cell)
    (count : Nat) : SameCursor (fillRow origin row cells console count) console := by
  induction count with
  | zero => exact ⟨rfl, rfl, rfl⟩
  | succ count inductionHypothesis =>
      rw [fillRow_succ]
      exact ⟨inductionHypothesis.col, inductionHypothesis.row, inductionHypothesis.color⟩

/-- The row loop assigns its row and nothing else, provided the cells it
assigns do not depend on the row. -/
theorem fillRow_buffer (origin : Origin) (row : Nat) (cells : Console → Nat → Cell)
    (value : Nat → Cell)
    (stable : ∀ (other : Console) (col : Nat), col < 80 →
      (∀ index, index < 80 * row ∨ 80 * row + 80 ≤ index →
        other.buffer index = console.buffer index) → cells other col = value col)
    {count : Nat} (inside : count ≤ 80) (index : Nat) :
    (fillRow origin row cells console count).buffer index =
      if 80 * row ≤ index ∧ index < 80 * row + count then
        value (index - 80 * row)
      else console.buffer index := by
  induction count generalizing index with
  | zero =>
      rw [if_neg (by omega)]
      rfl
  | succ count inductionHypothesis =>
      have earlier := inductionHypothesis (by omega)
      have assigned : cells (fillRow origin row cells console count) count = value count := by
        apply stable _ _ (by omega)
        intro other outside
        rw [earlier, if_neg (by omega)]
      rw [fillRow_succ, store_buffer, assigned]
      by_cases last : index = count + 80 * row
      · subst last
        rw [Function.update_self, if_pos (by omega), Nat.add_sub_cancel]
      · rw [Function.update_of_ne last, earlier]
        by_cases within : 80 * row ≤ index ∧ index < 80 * row + count
        · rw [if_pos within, if_pos (by omega)]
        · rw [if_neg within, if_neg (by omega)]

theorem clearRow_cursor (row : Nat) : SameCursor (console.clearRow row) console :=
  fillRow_cursor _ _ _ _ _

theorem clearRow_buffer (row index : Nat) :
    (console.clearRow row).buffer index =
      if 80 * row ≤ index ∧ index < 80 * row + 80 then
        blankCell console.color
      else console.buffer index :=
  fillRow_buffer console .blank row _ (fun _ => blankCell console.color)
    (fun _ _ _ _ => rfl) le_rfl index

theorem scrollRow_cursor (row : Nat) : SameCursor (console.scrollRow row) console :=
  fillRow_cursor _ _ _ _ _

theorem scrollRow_buffer (row index : Nat) :
    (console.scrollRow (row + 1)).buffer index =
      if 80 * row ≤ index ∧ index < 80 * row + 80 then
        console.buffer (index + 80)
      else console.buffer index := by
  have copied := fillRow_buffer console .scroll row
    (fun console col => console.buffer (col + 80 * (row + 1)))
    (fun col => console.buffer (col + 80 * (row + 1)))
    (fun other col _ outside => outside _ (Or.inr (by omega))) le_rfl index
  simp only [scrollRow, numCols, Nat.add_sub_cancel]
  rw [copied]
  by_cases within : 80 * row ≤ index ∧ index < 80 * row + 80
  · rw [if_pos within, if_pos within]
    congr 1
    omega
  · rw [if_neg within, if_neg within]

/-- The copy of `print_newline` after its first `count` rows. -/
theorem scroll_spec (count : Nat) :
    SameCursor ((List.range' 1 count).foldl scrollRow console) console ∧
      ∀ index, ((List.range' 1 count).foldl scrollRow console).buffer index =
        if index < 80 * count then console.buffer (index + 80)
        else console.buffer index := by
  induction count with
  | zero => exact ⟨⟨rfl, rfl, rfl⟩, fun index => by simp⟩
  | succ count inductionHypothesis =>
      obtain ⟨cursor, copied⟩ := inductionHypothesis
      rw [List.range'_1_concat, List.foldl_append, Nat.add_comm 1 count, List.foldl_cons,
        List.foldl_nil]
      refine ⟨(scrollRow_cursor _ _).trans cursor, fun index => ?_⟩
      rw [scrollRow_buffer]
      by_cases within : 80 * count ≤ index ∧ index < 80 * count + 80
      · rw [if_pos within, copied, if_neg (by omega), if_pos (by omega)]
      · rw [if_neg within, copied]
        by_cases below : index < 80 * count
        · rw [if_pos below, if_pos (by omega)]
        · rw [if_neg below, if_neg (by omega)]

/-! ### The calls -/

/-- `print_newline` above the last row moves the cursor and nothing else. -/
theorem printNewline_above (above : console.row < 24) :
    console.printNewline = { console with col := 0, row := console.row + 1 } :=
  if_pos (show console.row < numRows - 1 from above)

/-- `print_newline` on the last row moves every row up by one and blanks the
last. -/
theorem printNewline_last (last : console.row = 24) :
    console.printNewline.col = 0 ∧ console.printNewline.row = console.row ∧
      console.printNewline.color = console.color ∧
      ∀ index, index < 80 * 25 → console.printNewline.buffer index =
        if index < 80 * 24 then console.buffer (index + 80)
        else blankCell console.color := by
  have unfolded : console.printNewline =
      ((List.range' 1 24).foldl scrollRow { console with col := 0 }).clearRow
        24 :=
    if_neg (show ¬ console.row < numRows - 1 by simp only [last, numRows]; omega)
  obtain ⟨scrolled, copied⟩ := scroll_spec { console with col := 0 } 24
  rw [unfolded]
  have cleared := (clearRow_cursor ((List.range' 1 24).foldl scrollRow
    { console with col := 0 }) 24).trans scrolled
  refine ⟨cleared.col, cleared.row, cleared.color, fun index inside => ?_⟩
  rw [clearRow_buffer, scrolled.color]
  by_cases lastRow : index < 80 * 24
  · rw [if_neg (by omega), if_pos lastRow, copied, if_pos lastRow]
  · rw [if_pos (by omega), if_neg lastRow]

theorem printNewline_row (inside : console.row < 25) :
    console.printNewline.row < 25 := by
  by_cases above : console.row < 24
  · rw [printNewline_above console above]
    simp only
    omega
  · obtain ⟨_, row, _⟩ := printNewline_last console (by omega)
    rw [row]
    exact inside

theorem printNewline_col (inside : console.row < 25) : console.printNewline.col = 0 := by
  by_cases above : console.row < 24
  · rw [printNewline_above console above]
  · exact (printNewline_last console (by omega)).1

@[simp] theorem printChar_newline : console.printChar newline = console.printNewline :=
  if_pos rfl

/-- A character on a row that is not overfull is stored under the cursor. -/
theorem printChar_stored {character : UInt8} (visible : character ≠ newline)
    (room : console.col ≤ 80) :
    console.printChar character =
      { console.store .character console.col console.row ⟨character, console.color⟩ with
        col := console.col + 1 } := by
  simp only [printChar, if_neg visible, numCols]
  rw [if_neg (by omega)]
  rfl

/-- A character on an overfull row is stored at the start of the next. -/
theorem printChar_wrapped {character : UInt8} (visible : character ≠ newline)
    (inside : console.row < 25) (overfull : console.col > 80) :
    console.printChar character =
      { console.printNewline.store .character 0 console.printNewline.row
          ⟨character, console.printNewline.color⟩ with col := 1 } := by
  simp only [printChar, if_neg visible, numCols, if_pos overfull, store_col,
    printNewline_col console inside]

@[simp] theorem printChars_nil : console.printChars [] = console := rfl

@[simp] theorem printChars_cons (character : UInt8) (rest : List UInt8) :
    console.printChars (character :: rest) = (console.printChar character).printChars rest :=
  rfl

theorem printChars_append (first second : List UInt8) :
    console.printChars (first ++ second) = (console.printChars first).printChars second :=
  List.foldl_append

theorem printChar_row (inside : console.row < 25) (character : UInt8) :
    (console.printChar character).row < 25 := by
  by_cases line : character = newline
  · subst line
    rw [printChar_newline]
    exact printNewline_row console inside
  · rw [printChar, if_neg line]
    by_cases wraps : console.col > 80
    · simp only [if_pos wraps, store_row]
      exact printNewline_row console inside
    · simp only [if_neg wraps, store_row]
      exact inside

/-- `print_clear` blanks the screen in the current colour and leaves the cursor
where it is. -/
theorem printClear_spec :
    SameCursor console.printClear console ∧
      ∀ index, console.printClear.buffer index =
        if index < 80 * 25 then blankCell console.color
        else console.buffer index := by
  have rows : ∀ count, SameCursor ((List.range count).foldl clearRow console) console ∧
      ∀ index, ((List.range count).foldl clearRow console).buffer index =
        if index < 80 * count then blankCell console.color
        else console.buffer index := by
    intro count
    induction count with
    | zero => exact ⟨⟨rfl, rfl, rfl⟩, fun index => by simp⟩
    | succ count inductionHypothesis =>
        obtain ⟨cursor, cleared⟩ := inductionHypothesis
        rw [List.range_succ, List.foldl_append, List.foldl_cons, List.foldl_nil]
        refine ⟨(clearRow_cursor _ _).trans cursor, fun index => ?_⟩
        rw [clearRow_buffer, cursor.color, cleared]
        by_cases below : index < 80 * count
        · rw [if_neg (by omega), if_pos below, if_pos (by omega)]
        · by_cases within : index < 80 * (count + 1)
          · rw [if_pos (by omega), if_pos within]
          · rw [if_neg (by omega), if_neg below, if_neg within]
  exact rows 25

end Console

end NansOS.Print
