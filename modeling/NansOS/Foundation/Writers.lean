import NansOS.Foundation.Run
import Mathlib.Data.List.Basic

/-! Owns writers that interrupt one another while they share a queue of limited
room. A writer looks whether the queue is empty and then puts one value into it,
and may be interrupted in between, so that several of them may have seen the queue
empty at once. The queue still loses nothing as long as no more writers are nested
than it has room for, and this bound is exact. What comes out of it then is each
text put whole into the stream, behind what had been put when its writer came. It
owns no program. -/

namespace NansOS.Foundation

universe u

variable {Value : Type u}

/-! ### Merged texts -/

/-- Texts one after the other, each put whole into the stream of those before. -/
inductive Merged : List (List Value) → List Value → Prop where
  | nothing : Merged [] []
  | insert {texts : List (List Value)} (text : List Value) {before after : List Value}
      (earlier : Merged texts (before ++ after)) :
      Merged (texts ++ [text]) (before ++ (text ++ after))

/-- Every text comes out in its own order. -/
theorem Merged.sublist {texts : List (List Value)} {stream text : List Value}
    (merged : Merged texts stream) (member : text ∈ texts) : text.Sublist stream := by
  induction merged with
  | nothing => exact absurd member List.not_mem_nil
  | insert last earlier inductionHypothesis =>
      rcases List.mem_append.mp member with before | same
      · exact (inductionHypothesis before).trans
          (List.Sublist.append_left (List.sublist_append_right _ _) _)
      · rw [List.mem_singleton.mp same]
        exact (List.sublist_append_left _ _).trans (List.sublist_append_right _ _)

/-- Nothing else comes out. -/
theorem Merged.perm {texts : List (List Value)} {stream : List Value}
    (merged : Merged texts stream) : stream.Perm texts.flatten := by
  induction merged with
  | nothing => exact .refl _
  | @insert texts text before after earlier inductionHypothesis =>
      rw [List.flatten_append, List.flatten_singleton]
      calc before ++ (text ++ after)
          |>.Perm (before ++ (after ++ text)) := List.Perm.append_left _ List.perm_append_comm
        _ |>.Perm ((before ++ after) ++ text) := by rw [List.append_assoc]
        _ |>.Perm (texts.flatten ++ text) := inductionHypothesis.append_right _

/-- A text put into a stream behind its first `place` values. -/
def putIn (stream : List Value) (placed : Nat × List Value) : List Value :=
  stream.take placed.1 ++ (placed.2 ++ stream.drop placed.1)

/-- Texts put together one after the other, each whole and at its place. -/
def putTogether (placed : List (Nat × List Value)) : List Value := placed.foldl putIn []

theorem putTogether_append (first second : List (Nat × List Value)) :
    putTogether (first ++ second) = second.foldl putIn (putTogether first) :=
  List.foldl_append

/-- Texts put together are merged. -/
theorem merged_putTogether (placed : List (Nat × List Value)) :
    Merged (placed.map Prod.snd) (putTogether placed) := by
  induction placed using List.reverseRecOn with
  | nil => exact .nothing
  | append_singleton earlier last inductionHypothesis =>
      rw [putTogether_append, List.map_append]
      apply Merged.insert
      rwa [List.take_append_drop]

/-! ### Writers and their line -/

/-- A writer looks for room for the next value of its text, or is about to put a
value that it has seen room for. -/
inductive Writer (Value : Type u) where
  | looking (rest : List Value)
  | writing (value : Value) (rest : List Value)

/-- The writer has seen the queue empty. -/
def Writer.isWriting : Writer Value → Bool
  | .looking _ => false
  | .writing _ _ => true

@[simp] theorem countP_looking (rest : List Value) (outer : List (Writer Value)) :
    (Writer.looking rest :: outer).countP Writer.isWriting = outer.countP Writer.isWriting :=
  List.countP_cons_of_neg nofun

@[simp] theorem countP_writing (value : Value) (rest : List Value) (outer : List (Writer Value)) :
    (Writer.writing value rest :: outer).countP Writer.isWriting =
      outer.countP Writer.isWriting + 1 :=
  List.countP_cons_of_pos rfl

/-- What the writer has still to put. -/
def Writer.pending : Writer Value → List Value
  | .looking rest => rest
  | .writing value rest => value :: rest

/-- The queue with what has come out of it, and the writers, the innermost first. -/
@[ext]
structure Line (Value : Type u) where
  queue : List Value
  sent : List Value
  lost : List Value
  stack : List (Writer Value)

/-- What happens next: the receiver takes a value, a writer interrupts the others,
or the innermost one goes on, or is over if it has put everything. -/
inductive LineAction (Value : Type u) where
  | transmit
  | interrupt (text : List Value)
  | proceed

/-- The text of the writer that the action starts. -/
@[simp] def LineAction.text? : LineAction Value → Option (List Value)
  | .transmit => none
  | .interrupt text => some text
  | .proceed => none

/-- The texts of the writers that the actions start. -/
def startedTexts (actions : List (LineAction Value)) : List (List Value) :=
  actions.filterMap LineAction.text?

@[simp] theorem startedTexts_cons (action : LineAction Value) (rest : List (LineAction Value)) :
    startedTexts (action :: rest) = action.text?.toList ++ startedTexts rest := by
  cases action <;> rfl

theorem startedTexts_append (first second : List (LineAction Value)) :
    startedTexts (first ++ second) = startedTexts first ++ startedTexts second :=
  List.filterMap_append

namespace Line

/-- Nothing has been sent. -/
def idle : Line Value where
  queue := []
  sent := []
  lost := []
  stack := []

/-- The receiver takes the first value. -/
def transmit (line : Line Value) : Line Value :=
  match line.queue with
  | [] => line
  | value :: queue =>
      { line with
        queue := queue
        sent := line.sent ++ [value] }

/-- A value goes into the queue, or is lost if there is no room. -/
def put (capacity : Nat) (value : Value) (line : Line Value) : Line Value :=
  if line.queue.length < capacity then { line with queue := line.queue ++ [value] }
  else { line with lost := line.lost ++ [value] }

/-- The innermost writer looks at the queue, puts its value, or is over. -/
def proceed (capacity : Nat) (line : Line Value) : Line Value :=
  match line.stack with
  | [] => line
  | .looking [] :: outer => { line with stack := outer }
  | .looking (value :: rest) :: outer =>
      if line.queue.isEmpty then { line with stack := .writing value rest :: outer } else line
  | .writing value rest :: outer =>
      { line.put capacity value with stack := .looking rest :: outer }

def step (capacity : Nat) (line : Line Value) : LineAction Value → Line Value
  | .transmit => line.transmit
  | .interrupt text => { line with stack := .looking text :: line.stack }
  | .proceed => line.proceed capacity

/-- No more writers are nested than `depth`. -/
def Shallow (depth : Nat) (line : Line Value) : Prop := line.stack.length ≤ depth

/-- What has been sent, is queued and is still to be put, the innermost first. -/
def stream (line : Line Value) : List Value :=
  line.sent ++ line.queue ++ line.stack.flatMap Writer.pending

/-- The number of values that have been put. -/
def place (line : Line Value) : Nat := line.sent.length + line.queue.length

variable {capacity depth : Nat} {line : Line Value}

/-! ### Room -/

/-- Nothing has been lost, and there is room for every writer that has seen the
queue empty. -/
structure Roomy (capacity : Nat) (line : Line Value) : Prop where
  lossless : line.lost = []
  room : line.queue.length + line.stack.countP Writer.isWriting ≤ capacity

theorem roomy_idle (capacity : Nat) : (idle : Line Value).Roomy capacity where
  lossless := rfl
  room := Nat.zero_le _

theorem Roomy.transmit (roomy : line.Roomy capacity) : line.transmit.Roomy capacity := by
  obtain ⟨queue, sent, lost, stack⟩ := line
  cases queue with
  | nil => exact roomy
  | cons value queue =>
      have room := roomy.room
      simp only [List.length_cons] at room
      refine ⟨roomy.lossless, ?_⟩
      change queue.length + stack.countP Writer.isWriting ≤ capacity
      omega

/-- A writer that has seen the queue empty finds room. -/
theorem Roomy.free {value : Value} {rest : List Value} {outer : List (Writer Value)}
    (roomy : line.Roomy capacity) (writing : line.stack = .writing value rest :: outer) :
    line.queue.length < capacity := by
  have room := roomy.room
  rw [writing, countP_writing] at room
  omega

/-- A look at an empty queue leaves room for all writers there are; a value that is
put takes the room of its writer. -/
theorem Roomy.proceed (roomy : line.Roomy capacity) (shallow : line.Shallow capacity) :
    (line.proceed capacity).Roomy capacity := by
  obtain ⟨queue, sent, lost, stack⟩ := line
  match stack, roomy, shallow with
  | [], roomy, _ => exact roomy
  | .looking [] :: outer, roomy, _ =>
      have room := roomy.room
      rw [countP_looking] at room
      exact ⟨roomy.lossless, room⟩
  | .looking (value :: rest) :: outer, roomy, shallow =>
      cases queue with
      | cons first later => exact roomy
      | nil =>
          have bound := outer.countP_le_length (p := Writer.isWriting)
          simp only [Shallow, List.length_cons] at shallow
          refine ⟨roomy.lossless, ?_⟩
          change 0 + (Writer.writing value rest :: outer).countP Writer.isWriting ≤ capacity
          rw [countP_writing]
          omega
  | .writing value rest :: outer, roomy, _ =>
      have free : queue.length < capacity := roomy.free rfl
      have room : queue.length + (Writer.writing value rest :: outer).countP Writer.isWriting ≤
        capacity := roomy.room
      rw [countP_writing] at room
      refine ⟨?_, ?_⟩
      · simp only [Line.proceed, put, if_pos free]
        exact roomy.lossless
      · simp only [Line.proceed, put, if_pos free, List.length_append, List.length_singleton]
        rw [countP_looking]
        omega

theorem Roomy.step (roomy : line.Roomy capacity) (shallow : line.Shallow capacity)
    (action : LineAction Value) : (line.step capacity action).Roomy capacity := by
  cases action with
  | transmit => exact roomy.transmit
  | interrupt text => exact ⟨roomy.lossless, by simpa [Line.step] using roomy.room⟩
  | proceed => exact roomy.proceed shallow

/-- With room for its writers, what is on the line changes by a new text only, which
comes after what has been put and before what the others have still to put. -/
theorem stream_step (roomy : line.Roomy capacity) (action : LineAction Value) :
    (line.step capacity action).stream =
      (action.text?.map (line.place, ·)).toList.foldl putIn line.stream := by
  cases action with
  | interrupt text =>
      have handed : line.place = (line.sent ++ line.queue).length := List.length_append.symm
      change line.sent ++ line.queue ++ (text ++ line.stack.flatMap Writer.pending) =
        putIn line.stream (line.place, text)
      rw [putIn, stream, handed, List.take_left, List.drop_left]
  | transmit =>
      rw [LineAction.text?]
      obtain ⟨queue, sent, lost, stack⟩ := line
      cases queue with
      | nil => rfl
      | cons value queue => simp [Line.step, Line.transmit, stream]
  | proceed =>
      rw [LineAction.text?]
      obtain ⟨queue, sent, lost, stack⟩ := line
      match stack, roomy with
      | [], _ => rfl
      | .looking [] :: outer, _ => rfl
      | .looking (value :: rest) :: outer, _ =>
          cases queue with
          | nil => rfl
          | cons first later => rfl
      | .writing value rest :: outer, roomy =>
          have free : queue.length < capacity := roomy.free rfl
          simp [Line.step, Line.proceed, put, if_pos free, stream, Writer.pending]

/-! ### The bound is exact -/

/-- Writers of one value that interrupt one another, each behind its look at the
queue, and then put their values one after the other. -/
def crowd (value : Value) (count : Nat) : List (LineAction Value) :=
  (List.replicate count [LineAction.interrupt [value], .proceed]).flatten ++
    (List.replicate count [LineAction.proceed, .proceed]).flatten

/-- Writers that have seen the queue empty and wait for the inner ones. -/
def crowded (value : Value) (count : Nat) (line : Line Value) : Line Value :=
  { line with stack := List.replicate count (.writing value []) ++ line.stack }

theorem run_interrupts (value : Value) (count : Nat) (empty : line.queue = []) :
    run (step capacity) line
        (List.replicate count [LineAction.interrupt [value], .proceed]).flatten =
      crowded value count line := by
  induction count with
  | zero => rfl
  | succ count inductionHypothesis =>
      rw [List.replicate_succ', List.flatten_append, run_append, inductionHypothesis]
      simp only [List.flatten_singleton, run_cons, run_nil, step, Line.proceed, crowded, empty,
        List.isEmpty_nil, if_true, List.replicate_succ, List.cons_append]

/-- What is lost stays lost. -/
theorem lost_step (line : Line Value) (action : LineAction Value) (some : line.lost ≠ []) :
    (line.step capacity action).lost ≠ [] := by
  obtain ⟨queue, sent, lost, stack⟩ := line
  cases action with
  | transmit => cases queue <;> exact some
  | interrupt text => exact some
  | proceed =>
      match stack with
      | [] => exact some
      | .looking [] :: outer => exact some
      | .looking (value :: rest) :: outer => cases queue <;> exact some
      | .writing value rest :: outer =>
          simp only [step, Line.proceed, put]
          split_ifs
          · exact some
          · simp

theorem lost_run (line : Line Value) (actions : List (LineAction Value)) (some : line.lost ≠ []) :
    (run (step capacity) line actions).lost ≠ [] := by
  induction actions generalizing line with
  | nil => exact some
  | cons action rest inductionHypothesis =>
      exact inductionHypothesis _ (lost_step line action some)

/-- One value of the crowd. -/
theorem run_put (value : Value) (count : Nat) :
    run (step capacity) (crowded value (count + 1) line) [.proceed, .proceed] =
      crowded value count (line.put capacity value) := by
  simp only [run_cons, run_nil, step, crowded, List.replicate_succ, List.cons_append, Line.proceed,
    put]
  split_ifs <;> rfl

theorem run_puts (value : Value) (count : Nat) (overfull : capacity < line.queue.length + count)
    (room : line.queue.length ≤ capacity) :
    (run (step capacity) (crowded value count line)
      (List.replicate count [LineAction.proceed, .proceed]).flatten).lost ≠ [] := by
  induction count generalizing line with
  | zero => exact absurd overfull (by omega)
  | succ count inductionHypothesis =>
      rw [List.replicate_succ, List.flatten_cons, run_append, run_put]
      by_cases free : line.queue.length < capacity
      · apply inductionHypothesis
        · simp only [put, if_pos free, List.length_append, List.length_singleton]
          omega
        · simp only [put, if_pos free, List.length_append, List.length_singleton]
          omega
      · apply lost_run
        simp [crowded, put, if_neg free]

/-- A crowd beyond the room there is loses a value. -/
theorem crowd_loses (capacity : Nat) (value : Value) :
    (run (step capacity) idle (crowd value (capacity + 1))).lost ≠ [] := by
  rw [crowd, run_append, run_interrupts value _ rfl]
  exact run_puts value _ (by simp [idle]) (Nat.zero_le _)

/-- The only step that nests the writers deeper is an interrupt. -/
theorem stack_step (line : Line Value) (action : LineAction Value) :
    (line.step capacity action).stack.length ≤
      line.stack.length + action.text?.toList.length := by
  obtain ⟨queue, sent, lost, stack⟩ := line
  cases action with
  | transmit => cases queue <;> exact Nat.le_refl _
  | interrupt text => exact Nat.le_refl _
  | proceed =>
      match stack with
      | [] => exact Nat.le_refl _
      | .looking [] :: outer => exact Nat.le_succ _
      | .looking (value :: rest) :: outer => cases queue <;> exact Nat.le_refl _
      | .writing value rest :: outer => exact Nat.le_refl _

/-- Writers are nested no deeper than there have been interrupts. -/
theorem shallow_run {actions : List (LineAction Value)}
    (bounded : line.stack.length + (startedTexts actions).length ≤ depth) :
    Throughout (step capacity) (Shallow depth) line actions := by
  induction actions generalizing line with
  | nil => exact bounded
  | cons action rest inductionHypothesis =>
      rw [startedTexts_cons, List.length_append] at bounded
      refine ⟨Nat.le_trans (Nat.le_add_right _ _) bounded, inductionHypothesis ?_⟩
      exact Nat.le_trans (Nat.add_le_add_right (stack_step line action) _) (by omega)

theorem startedTexts_interrupts (value : Value) (count : Nat) :
    (startedTexts (List.replicate count
      [LineAction.interrupt [value], .proceed]).flatten).length = count := by
  induction count with
  | zero => rfl
  | succ count inductionHypothesis => simp [List.replicate_succ, inductionHypothesis]

theorem startedTexts_puts (count : Nat) :
    startedTexts (List.replicate count [LineAction.proceed, .proceed]).flatten =
      ([] : List (List Value)) := by
  induction count with
  | zero => rfl
  | succ count inductionHypothesis => exact inductionHypothesis

theorem startedTexts_crowd (value : Value) (count : Nat) :
    (startedTexts (crowd value count)).length = count := by
  rw [crowd, startedTexts_append, startedTexts_puts, List.append_nil, startedTexts_interrupts]

end Line

end NansOS.Foundation
