import NansOS.Print.Console

/-! Owns what the console does with everything printed since boot: which stores
leave the screen, and what the screen shows after a text of any number of
lines. Both are read off the newline-separated lines of the characters printed,
whatever calls they were split over. -/

namespace NansOS.Print

open NansOS.Foundation
open NansOS.Kernel

/-! ### Stores -/

/-- The store is to a cell of the screen and, when it is a character's, to a
cell of the current row. -/
def Store.OnScreen (entry : Store) : Prop :=
  entry.index < numCols * numRows ∧ (entry.origin = .character → entry.col < numCols)

instance (entry : Store) : Decidable entry.OnScreen :=
  inferInstanceAs (Decidable (_ ∧ _))

/-- Every store made so far was on the screen. -/
def Console.StaysOnScreen (console : Console) : Prop :=
  ∀ entry ∈ console.stores, entry.OnScreen

instance (console : Console) : Decidable console.StaysOnScreen :=
  inferInstanceAs (Decidable (∀ entry ∈ console.stores, entry.OnScreen))

/-- The characters printed by a list of calls. -/
def printed (calls : List Call) : List UInt8 := calls.flatMap Call.characters

namespace Console

variable {console : Console}

theorem staysOnScreen_store {origin : Origin} {col row : Nat} {cell : Cell} :
    (console.store origin col row cell).StaysOnScreen ↔
      Store.OnScreen ⟨origin, col, row⟩ ∧ console.StaysOnScreen := by
  simp [StaysOnScreen, store]

theorem staysOnScreen_moved (col : Nat) :
    StaysOnScreen { console with col := col } ↔ console.StaysOnScreen :=
  Iff.rfl

/-- The row loops stay on the screen. -/
theorem staysOnScreen_fillRow {origin : Origin} {row : Nat} (inside : row < 25)
    (cells : Console → Nat → Cell) {count : Nat} (columns : count ≤ 80) :
    (fillRow origin row cells console count).StaysOnScreen ↔ console.StaysOnScreen := by
  induction count with
  | zero => rfl
  | succ count inductionHypothesis =>
      have here : Store.OnScreen ⟨origin, count, row⟩ := by
        simp only [Store.OnScreen, Store.index, numCols, numRows]
        omega
      rw [fillRow_succ, staysOnScreen_store, inductionHypothesis (by omega)]
      exact and_iff_right here

theorem staysOnScreen_foldl {step : Console → Nat → Console} {rows : List Nat}
    (each : ∀ row ∈ rows, ∀ console,
      (step console row).StaysOnScreen ↔ console.StaysOnScreen) :
    (rows.foldl step console).StaysOnScreen ↔ console.StaysOnScreen := by
  induction rows generalizing console with
  | nil => rfl
  | cons row rest inductionHypothesis =>
      rw [List.foldl_cons, inductionHypothesis fun other member => each other (by simp [member])]
      exact each row (by simp) console

theorem staysOnScreen_clearRow {row : Nat} (inside : row < 25) :
    (console.clearRow row).StaysOnScreen ↔ console.StaysOnScreen :=
  staysOnScreen_fillRow inside _ le_rfl

theorem staysOnScreen_printClear :
    console.printClear.StaysOnScreen ↔ console.StaysOnScreen := by
  apply staysOnScreen_foldl
  intro row member console
  exact staysOnScreen_clearRow (List.mem_range.mp member)

theorem staysOnScreen_printNewline (console : Console) :
    console.printNewline.StaysOnScreen ↔ console.StaysOnScreen := by
  rw [printNewline]
  by_cases above : console.row < numRows - 1
  · simp only [if_pos above]
    exact Iff.rfl
  · simp only [if_neg above]
    rw [staysOnScreen_clearRow (by decide), staysOnScreen_foldl]
    · exact Iff.rfl
    · intro row member console
      have bounds := List.mem_range'_1.mp member
      simp only [numRows] at bounds
      exact staysOnScreen_fillRow (by omega) _ le_rfl

/-- Only a character that meets the cursor just behind the last column is
stored off its row. -/
theorem staysOnScreen_printChar (inside : console.row < 25) (character : UInt8) :
    (console.printChar character).StaysOnScreen ↔
      (character ≠ newline → console.col ≠ 80) ∧ console.StaysOnScreen := by
  by_cases line : character = newline
  · subst line
    rw [printChar_newline, staysOnScreen_printNewline]
    simp
  · by_cases wraps : console.col > 80
    · have row := printNewline_row console inside
      have here : Store.OnScreen ⟨.character, 0, console.printNewline.row⟩ := by
        simp only [Store.OnScreen, Store.index, numCols, numRows]
        omega
      rw [printChar_wrapped console line inside wraps, staysOnScreen_moved,
        staysOnScreen_store, staysOnScreen_printNewline]
      have different : console.col ≠ 80 := by omega
      simp [here, different]
    · have here : Store.OnScreen ⟨.character, console.col, console.row⟩ ↔ console.col ≠ 80 := by
        simp only [Store.OnScreen, Store.index, numCols, numRows, true_implies]
        omega
      rw [printChar_stored console line (by omega), staysOnScreen_moved,
        staysOnScreen_store, here]
      simp [line]

end Console

/-- No character of the text meets a full row, when the cursor starts at `col`. -/
def Fits : Nat → List UInt8 → Prop
  | _, [] => True
  | col, character :: rest =>
      if character = newline then Fits 0 rest else col < 80 ∧ Fits (col + 1) rest

/-- A text fits exactly when its lines do, the first one behind the cursor. -/
theorem fits_iff {characters first : List UInt8} {others : List (List UInt8)} {col : Nat}
    (inside : col ≤ 80) (split : characters.splitOn newline = first :: others) :
    Fits col characters ↔ col + first.length ≤ 80 ∧ ∀ line ∈ others, line.length ≤ 80 := by
  induction characters generalizing col first others with
  | nil =>
      simp only [List.splitOn_nil, List.cons.injEq] at split
      obtain ⟨rfl, rfl⟩ := split
      simp [Fits, inside]
  | cons character rest inductionHypothesis =>
      obtain ⟨head, tail, splitRest⟩ := List.exists_cons_of_ne_nil
        (List.splitOn_ne_nil newline rest)
      rw [List.splitOn_cons_eq_if_modifyHead, splitRest] at split
      by_cases line : character = newline
      · rw [if_pos (by simpa using line)] at split
        obtain ⟨rfl, rfl⟩ := List.cons.inj split
        rw [Fits, if_pos line, inductionHypothesis (by omega) splitRest]
        simp [inside]
      · rw [if_neg (by simpa using line), List.modifyHead_cons] at split
        obtain ⟨rfl, rfl⟩ := List.cons.inj split
        rw [Fits, if_neg line, List.length_cons]
        by_cases room : col < 80
        · rw [inductionHypothesis (by omega) splitRest]
          constructor
          · rintro ⟨_, shorter, rest⟩
            exact ⟨by omega, rest⟩
          · rintro ⟨shorter, rest⟩
            exact ⟨room, by omega, rest⟩
        · constructor
          · rintro ⟨below, _⟩
            exact absurd below room
          · rintro ⟨shorter, _⟩
            omega

/-- `later` says of a console that it has stayed on the screen and that the
characters `rest`, printed next, stay there too. -/
structure Tracks (later : Console → Prop) (rest : List UInt8) : Prop where
  past : ∀ console : Console, console.row < 25 → later console → console.StaysOnScreen
  exact : ∀ console : Console, console.row < 25 → console.col ≤ 80 →
    (later console ↔ Fits console.col rest ∧ console.StaysOnScreen)

theorem Tracks.char {later : Console → Prop} {rest : List UInt8} (tracks : Tracks later rest)
    (character : UInt8) :
    Tracks (fun console => later (console.printChar character)) (character :: rest) := by
  constructor
  · intro console row holds
    have after := tracks.past _ (Console.printChar_row console row character) holds
    exact ((Console.staysOnScreen_printChar row character).mp after).2
  · intro console row col
    have nextRow := Console.printChar_row console row character
    rw [Fits]
    by_cases line : character = newline
    · subst line
      have nextCol := Console.printNewline_col console row
      rw [Console.printChar_newline] at nextRow ⊢
      rw [if_pos rfl, tracks.exact _ nextRow (by omega), nextCol,
        Console.staysOnScreen_printNewline]
    · rw [if_neg line]
      by_cases room : console.col < 80
      · have nextCol : (console.printChar character).col = console.col + 1 := by
          rw [Console.printChar_stored console line (by omega)]
        rw [tracks.exact _ nextRow (by omega), nextCol, Console.staysOnScreen_printChar row]
        have different : console.col ≠ 80 := by omega
        simp [room, different]
      · -- The cursor stands behind the last column: this character leaves its row.
        constructor
        · intro holds
          have here := (Console.staysOnScreen_printChar row character).mp
            (tracks.past _ nextRow holds)
          exact absurd (here.1 line) (by omega)
        · rintro ⟨⟨below, _⟩, _⟩
          exact absurd below room

theorem Tracks.chars {later : Console → Prop} {rest : List UInt8} (tracks : Tracks later rest)
    (characters : List UInt8) :
    Tracks (fun console => later (console.printChars characters)) (characters ++ rest) := by
  induction characters with
  | nil => exact tracks
  | cons character others inductionHypothesis => exact inductionHypothesis.char character

/-- Calls that print nothing do not touch the cursor and stay on the screen. -/
theorem tracks_calls (calls : List Call) :
    Tracks (fun console => (run Console.call console calls).StaysOnScreen) (printed calls) := by
  induction calls with
  | nil => exact ⟨fun _ _ stays => stays, fun _ _ _ => by simp [printed, Fits]⟩
  | cons call rest inductionHypothesis =>
      cases call with
      | char character => exact inductionHypothesis.char character
      | str string => exact inductionHypothesis.chars string.bytes
      | clear =>
          constructor
          · intro console row holds
            have cursor := (Console.printClear_spec console).1
            have after := inductionHypothesis.past console.printClear
              (cursor.row.trans_lt row) holds
            exact Console.staysOnScreen_printClear.mp after
          · intro console row col
            have cursor := (Console.printClear_spec console).1
            have exact := inductionHypothesis.exact console.printClear
              (cursor.row.trans_lt row) (cursor.col.trans_le col)
            rw [cursor.col, Console.staysOnScreen_printClear] at exact
            exact exact
      | setColor foreground background =>
          exact ⟨fun console => inductionHypothesis.past (console.printSetColor _ _),
            fun console => inductionHypothesis.exact (console.printSetColor _ _)⟩

/-- Every store is on the screen, and every character's store in its row,
exactly when no line of what is printed is longer than a row. -/
theorem stays_on_screen_iff (buffer : Nat → Cell) (calls : List Call) :
    (run Console.call (initialConsole buffer) calls).StaysOnScreen ↔
      ∀ line ∈ (printed calls).splitOn newline, line.length ≤ numCols := by
  obtain ⟨first, others, split⟩ := List.exists_cons_of_ne_nil
    (List.splitOn_ne_nil newline (printed calls))
  have origin : (initialConsole buffer).col = 0 := rfl
  have tracked := (tracks_calls calls).exact (initialConsole buffer) (Nat.zero_lt_succ 24)
    (Nat.zero_le 80)
  have started : (initialConsole buffer).StaysOnScreen := by
    simp [Console.StaysOnScreen, initialConsole]
  have fits := fits_iff (Nat.zero_le 80) split
  refine tracked.trans ?_
  rw [origin, fits, split]
  simp [started]

/-- An over-long line on the last row is stored behind the screen. -/
def overlongLine : CString :=
  ⟨List.replicate 24 newline ++ List.replicate 81 65, by decide⟩

theorem overlong_line_leaves_screen :
    ¬ (run Console.call (initialConsole fun _ => Console.blankCell 15)
      [.str overlongLine]).StaysOnScreen := by
  decide +kernel

/-! ### Lines -/

/-- A blank screen with the cursor in its first cell. -/
structure Console.Cleared (console : Console) : Prop where
  col : console.col = 0
  row : console.row = 0
  blank : ∀ index, index < numCols * numRows →
    console.buffer index = Console.blankCell console.color

/-- The character at a position of a line padded with blanks. -/
def padded (line : List UInt8) (col : Nat) : UInt8 := line.getD col 32

/-- The character in a cell of the screen that shows the last rows of `lines`,
from its first row on. -/
def shownCharacter (lines : List (List UInt8)) (row col : Nat) : UInt8 :=
  padded ((lines[lines.length - numRows + row]?).getD []) col

/-- The console shows the finished lines `done` and has printed `current` on
the row after them. -/
structure Shows (color : UInt8) (done : List (List UInt8)) (current : List UInt8)
    (console : Console) : Prop where
  col : console.col = current.length
  row : console.row = min done.length 24
  sameColor : console.color = color
  cells : ∀ row col, row < 25 → col < 80 →
    console.buffer (col + 80 * row) = ⟨shownCharacter (done ++ [current]) row col, color⟩

theorem Console.Cleared.shows {console : Console} (cleared : console.Cleared) :
    Shows console.color [] [] console := by
  refine ⟨cleared.col, cleared.row, rfl, fun row col rows cols => ?_⟩
  rw [cleared.blank _ (by simp only [numCols, numRows]; omega)]
  cases row with
  | zero => simp [shownCharacter, padded, Console.blankCell]
  | succ row => simp [shownCharacter, padded, Console.blankCell]

/-- An empty line at the end shows as the blank row it stands for. -/
theorem shownCharacter_concat_nil {lines : List (List UInt8)} (few : lines.length < 25)
    (row col : Nat) : shownCharacter (lines ++ [[]]) row col = shownCharacter lines row col := by
  have first : (lines ++ [[]]).length - 25 = 0 := by simp; omega
  have same : lines.length - 25 = 0 := by omega
  simp only [shownCharacter, first, same, Nat.zero_add]
  by_cases inside : row < lines.length
  · rw [List.getElem?_append_left inside]
  · rw [List.getElem?_append_right (by omega),
      List.getElem?_eq_none (by omega : lines.length ≤ row)]
    cases row - lines.length with
    | zero => rfl
    | succ _ => rfl

/-- With a full screen, one more line moves every row up. -/
theorem shownCharacter_concat {lines : List (List UInt8)} (many : 25 ≤ lines.length)
    (line : List UInt8) {row : Nat} (rows : row < 24) (col : Nat) :
    shownCharacter (lines ++ [line]) row col = shownCharacter lines (row + 1) col := by
  have shifted : (lines ++ [line]).length - 25 + row = lines.length - 25 + (row + 1) := by
    simp
    omega
  simp only [shownCharacter, shifted]
  rw [List.getElem?_append_left (by omega)]

theorem shownCharacter_last {done : List (List UInt8)} (many : 24 ≤ done.length)
    (line : List UInt8) (col : Nat) :
    shownCharacter (done ++ [line]) 24 col = padded line col := by
  have index : (done ++ [line]).length - 25 + 24 = done.length := by
    simp
    omega
  simp only [shownCharacter, index]
  rw [List.getElem?_concat_length, Option.getD_some]

theorem Shows.endLine {color : UInt8} {done : List (List UInt8)} {current : List UInt8}
    {console : Console} (shows : Shows color done current console) :
    Shows color (done ++ [current]) [] console.printNewline := by
  have length : (done ++ [current]).length = done.length + 1 := by simp
  by_cases above : done.length < 24
  · have row : console.row < 24 := by
      rw [shows.row]
      omega
    rw [Console.printNewline_above console row]
    refine ⟨rfl, ?_, shows.sameColor, fun row col rows cols => ?_⟩
    · rw [length]
      simp only [shows.row]
      omega
    · rw [shownCharacter_concat_nil (by omega)]
      exact shows.cells row col rows cols
  · have row : console.row = 24 := by
      rw [shows.row]
      omega
    obtain ⟨col, sameRow, sameColor, moved⟩ := Console.printNewline_last console row
    refine ⟨col, ?_, sameColor.trans shows.sameColor, fun row col rows cols => ?_⟩
    · rw [sameRow, length, row]
      omega
    · rw [moved _ (by omega), shows.sameColor]
      by_cases last : row < 24
      · rw [if_pos (by omega), shownCharacter_concat (by omega) [] last]
        exact shows.cells (row + 1) col (by omega) cols
      · obtain rfl : row = 24 := by omega
        rw [if_neg (by omega), shownCharacter_last (by omega)]
        simp [padded, Console.blankCell]

theorem padded_concat (line : List UInt8) (character : UInt8) {col : Nat}
    (other : col ≠ line.length) : padded (line ++ [character]) col = padded line col := by
  simp only [padded, List.getD_eq_getElem?_getD]
  by_cases inside : col < line.length
  · rw [List.getElem?_append_left inside]
  · rw [List.getElem?_eq_none (by simp; omega), List.getElem?_eq_none (by omega)]

/-- Only the row of the last line shows what is on that line. -/
theorem shownCharacter_elsewhere {done : List (List UInt8)} (line other : List UInt8)
    {row : Nat} (rows : row < 25) (elsewhere : row ≠ min done.length 24) (col : Nat) :
    shownCharacter (done ++ [line]) row col = shownCharacter (done ++ [other]) row col := by
  have index : done.length + 1 - 25 + row ≠ done.length := by omega
  simp only [shownCharacter, List.length_append, List.length_singleton]
  by_cases inside : done.length + 1 - 25 + row < done.length
  · rw [List.getElem?_append_left inside, List.getElem?_append_left inside]
  · rw [List.getElem?_eq_none (by simp; omega), List.getElem?_eq_none (by simp; omega)]

theorem shownCharacter_here (done : List (List UInt8)) (line : List UInt8) (col : Nat) :
    shownCharacter (done ++ [line]) (min done.length 24) col = padded line col := by
  have index : (done ++ [line]).length - 25 + min done.length 24 = done.length := by
    rw [List.length_append, List.length_singleton]
    omega
  simp only [shownCharacter, index]
  rw [List.getElem?_concat_length, Option.getD_some]

theorem Shows.char {color : UInt8} {done : List (List UInt8)} {current : List UInt8}
    {console : Console} (shows : Shows color done current console) {character : UInt8}
    (visible : character ≠ newline) (room : current.length < 80) :
    Shows color done (current ++ [character]) (console.printChar character) := by
  rw [Console.printChar_stored console visible (by rw [shows.col]; omega)]
  refine ⟨by simp [shows.col], shows.row, shows.sameColor, fun row col rows cols => ?_⟩
  simp only [Console.store_buffer, shows.col, shows.row, shows.sameColor]
  by_cases here : row = min done.length 24
  · subst here
    rw [shownCharacter_here]
    by_cases cursor : col = current.length
    · subst cursor
      rw [Function.update_self]
      simp [padded]
    · rw [Function.update_of_ne (by omega), padded_concat current character cursor,
        shows.cells _ col rows cols, shownCharacter_here]
  · rw [Function.update_of_ne (by omega), shows.cells row col rows cols,
      shownCharacter_elsewhere current (current ++ [character]) rows here]

/-- The part of a line still to be printed. -/
theorem Shows.chars {color : UInt8} {done : List (List UInt8)} {current rest : List UInt8}
    {console : Console} (shows : Shows color done current console)
    (visible : newline ∉ rest) (room : current.length + rest.length ≤ 80) :
    Shows color done (current ++ rest) (console.printChars rest) := by
  induction rest generalizing current console with
  | nil => simpa using shows
  | cons character rest inductionHypothesis =>
      have here : character ≠ newline := fun same => visible (by simp [same])
      have next := shows.char here (by simp at room; omega)
      have printed := inductionHypothesis next (fun member => visible (by simp [member]))
        (by simp at room ⊢; omega)
      simpa using printed

/-- The lines of a text, each followed by a newline but the last. -/
theorem Shows.lines {color : UInt8} {done lines : List (List UInt8)} {line : List UInt8}
    {console : Console} (shows : Shows color done [] console)
    (fits : ∀ entry ∈ line :: lines, newline ∉ entry ∧ entry.length ≤ 80) :
    Shows color (done ++ (line :: lines).dropLast) ((line :: lines).getLast (by simp))
      (console.printChars (List.intercalate [newline] (line :: lines))) := by
  induction lines generalizing done line console with
  | nil =>
      have here := fits line (by simp)
      have printed := shows.chars here.1 (by simpa using here.2)
      simpa using printed
  | cons second rest inductionHypothesis =>
      have here := fits line (by simp)
      have printed := (shows.chars here.1 (by simpa using here.2)).endLine
      have others : ∀ entry ∈ second :: rest, newline ∉ entry ∧ entry.length ≤ 80 :=
        fun entry member => fits entry (List.mem_cons_of_mem line member)
      have later := inductionHypothesis printed others
      rw [List.intercalate_cons_cons, List.append_assoc, List.singleton_append,
        Console.printChars_append, Console.printChars_cons, Console.printChar_newline]
      simpa using later

theorem printStr_pieces (console : Console) (pieces : List CString) :
    pieces.foldl Console.printStr console =
      console.printChars (pieces.map CString.bytes).flatten := by
  induction pieces generalizing console with
  | nil => rfl
  | cons piece rest inductionHypothesis =>
      rw [List.foldl_cons, inductionHypothesis, List.map_cons, List.flatten_cons,
        Console.printChars_append]
      rfl

/-- After a text of any number of lines, printed in any pieces, the screen shows
its last rows. -/
theorem screen_shows_lines {console : Console} (cleared : console.Cleared)
    {lines : List (List UInt8)} (nonempty : lines ≠ [])
    (fits : ∀ line ∈ lines, newline ∉ line ∧ line.length ≤ numCols)
    {pieces : List CString}
    (text : (pieces.map CString.bytes).flatten = List.intercalate [newline] lines)
    {row col : Nat} (rows : row < numRows) (cols : col < numCols) :
    (pieces.foldl Console.printStr console).buffer (col + numCols * row) =
      ⟨shownCharacter lines row col, console.color⟩ := by
  obtain ⟨line, rest, rfl⟩ := List.exists_cons_of_ne_nil nonempty
  have shown := (cleared.shows.lines fits).cells row col rows cols
  rw [List.nil_append, List.dropLast_append_getLast] at shown
  rw [printStr_pieces, text]
  exact shown

/-- Two lines printed in two calls that split the first of them. -/
theorem two_lines_shown :
    ([⟨[72], by decide⟩, ⟨[105, 10, 33], by decide⟩].foldl Console.printStr
      (initialConsole fun _ => Console.blankCell 15)).buffer (0 + numCols * 1) =
        ⟨shownCharacter [[72, 105], [33]] 1 0, 15⟩ :=
  screen_shows_lines ⟨rfl, rfl, fun _ _ => rfl⟩ (by decide) (by decide) rfl (by decide)
    (by decide)

end NansOS.Print
