import ScimBridge.Proofs.Filter.Query

/-!
# Writing a filter turn by turn

A filter is rendered by a loop that works off a stack of pieces: a turn takes the first piece and
writes it, or puts the pieces that it is made of in its place. The loop ends, after a number of turns
that the tree gives, and leaves the text that recursion on the tree gives (`render_recursive`).

1. `Piece.finish_turn`, `Piece.turns_turn`: one turn, whatever else is left, changes nothing of what
   is written in the end and takes one from the number of turns.
2. `Writing.run?_map_finish`, `Writing.run?_turns`: the same of any number of turns, by induction.
-/

namespace ScimBridge

namespace Filter

/-! ## One turn -/

/-- What stands between two turns: what is written, and the pieces that are left. -/
structure Writing where
  written : String
  pieces : List Piece

variable (table : PathTable)

/-- The turn of a piece: what it leaves of what was written before and of the pieces behind. -/
def Piece.turn (written : String) (rest : List Piece) : Piece → Writing
  | .text s => ⟨written ++ s, rest⟩
  | .node (.present path) => ⟨written ++ presenceText table path, rest⟩
  | .node (.compare path op value) => ⟨written ++ comparisonText table path op value, rest⟩
  | .node (.and l r) =>
    ⟨written, .text "(" :: .node l :: .text " and " :: .node r :: .text ")" :: rest⟩
  | .node (.or l r) =>
    ⟨written, .text "(" :: .node l :: .text " or " :: .node r :: .text ")" :: rest⟩
  | .node (.not inner) =>
    if inner.isChain then ⟨written, .text "!" :: .node inner :: rest⟩
    else ⟨written, .text "!(" :: .node inner :: .text ")" :: rest⟩

/-- How many turns a filter takes: one for itself, and those of what is put in its place. -/
def turns : Filter → Nat
  | .present _ => 1
  | .compare _ _ _ => 1
  | .and l r => l.turns + r.turns + 4
  | .or l r => l.turns + r.turns + 4
  | .not inner => if inner.isChain then inner.turns + 2 else inner.turns + 3

/-- How many turns a piece takes. -/
def Piece.turns : Piece → Nat
  | .text _ => 1
  | .node f => f.turns

/-- How many turns all pieces take. -/
def allTurns : List Piece → Nat
  | [] => 0
  | p :: rest => p.turns + allTurns rest

theorem turns_pos (f : Filter) : 0 < f.turns := by
  cases f with
  | present path | compare path op value => exact Nat.one_pos
  | and l r | or l r => exact Nat.succ_pos _
  | not inner =>
    unfold turns
    split <;> exact Nat.succ_pos _

theorem Piece.turns_pos (p : Piece) : 0 < p.turns := by
  cases p with
  | text s => exact Nat.one_pos
  | node f => exact Filter.turns_pos f

namespace Writing

/-- The beginning of the loop: nothing is written, and the whole filter is left. -/
def start (f : Filter) : Writing := ⟨"", [.node f]⟩

/-- The next turn, as long as a piece is left. -/
def next? : Writing → Option Writing
  | ⟨_, []⟩ => none
  | ⟨written, p :: rest⟩ => some (p.turn table written rest)

/-- What is written in the end. -/
def finish (w : Writing) : String := write table w.written w.pieces

/-- How many turns are left. -/
def turns (w : Writing) : Nat := allTurns w.pieces

theorem turns_start (f : Filter) : (start f).turns = f.turns := rfl

end Writing

/-- A turn changes nothing of what is written in the end. -/
theorem Piece.finish_turn (written : String) (p : Piece) (rest : List Piece) :
    (p.turn table written rest).finish table = write table written (p :: rest) := by
  cases p with
  | text s => rw [write]; rfl
  | node f =>
    cases f with
    | present path | compare path op value | and l r | or l r => rw [write]; rfl
    | not inner =>
      rw [write, turn]
      split <;> rfl

/-- A turn is one of those that are left. -/
theorem Piece.turns_turn (written : String) (p : Piece) (rest : List Piece) :
    (p.turn table written rest).turns + 1 = Writing.turns ⟨written, p :: rest⟩ := by
  unfold Writing.turns
  cases p with
  | text s => exact Nat.add_comm _ _
  | node f =>
    cases f with
    | present path | compare path op value => exact Nat.add_comm _ _
    | and l r | or l r =>
      simp only [turn, allTurns, turns, Filter.turns]
      omega
    | not inner =>
      simp only [turn, allTurns, turns, Filter.turns]
      split
      all_goals
        simp only [allTurns, turns]
        omega

/-! ## The loop -/

namespace Writing

/-- What stands after a number of turns, unless the loop ends before. -/
def run? : Nat → Writing → Option Writing
  | 0, w => some w
  | n + 1, w => (w.next? table).bind (run? n)

variable {table}

/-- Any number of turns changes nothing of what is written in the end, and each is one of the turns
that were left. -/
theorem of_run? {n : Nat} {w w' : Writing} (h : run? table n w = some w') :
    w'.finish table = w.finish table ∧ w'.turns + n = w.turns := by
  -- the turns behind the first one begin at what it leaves, so the beginning is kept general
  induction n generalizing w with
  | zero =>
    cases h
    exact ⟨rfl, rfl⟩
  | succ n ih =>
    obtain ⟨written, pieces⟩ := w
    cases pieces with
    | nil => cases h
    | cons p rest =>
      obtain ⟨hfinish, hturns⟩ := ih (w := p.turn table written rest) h
      refine ⟨hfinish.trans (p.finish_turn table written rest), ?_⟩
      rw [← p.turns_turn table written rest, ← hturns, Nat.add_assoc]

/-- No turn is missing, and none is made after the last one that was left. -/
theorem isSome_run?_iff {n : Nat} {w : Writing} : (run? table n w).isSome ↔ n ≤ w.turns := by
  induction n generalizing w with
  | zero => exact iff_of_true rfl (Nat.zero_le _)
  | succ n ih =>
    obtain ⟨written, pieces⟩ := w
    cases pieces with
    | nil => exact iff_of_false Bool.false_ne_true (Nat.not_succ_le_zero n)
    | cons p rest =>
      rw [← p.turns_turn table written rest, Nat.add_le_add_iff_right]
      exact ih (w := p.turn table written rest)

/-- Where no turn is left, no piece is left and all is written. -/
theorem eq_finish_of_turns {w : Writing} (h : w.turns = 0) : w = ⟨w.finish table, []⟩ := by
  obtain ⟨written, pieces⟩ := w
  cases pieces with
  | nil =>
    rw [finish, write]
  | cons p rest =>
    exact absurd h (Nat.ne_of_gt (Nat.add_pos_left p.turns_pos (allTurns rest)))

/-- The loop makes the turns that are left and no more, and up to its end it changes nothing of what
is written then. -/
theorem run?_map_finish (n : Nat) (w : Writing) :
    (run? table n w).map (finish table) = if n ≤ w.turns then some (w.finish table) else none := by
  by_cases hn : n ≤ w.turns
  · have hsome : (run? table n w).isSome := isSome_run?_iff.2 hn
    obtain ⟨w', hw'⟩ := Option.isSome_iff_exists.1 hsome
    rw [if_pos hn, hw', Option.map_some, (of_run? hw').1]
  · have hnone : run? table n w = none := by
      rwa [← Option.not_isSome_iff_eq_none, isSome_run?_iff]
    rw [if_neg hn, hnone, Option.map_none]

/-- After all its turns the loop has come to its end. -/
theorem run?_turns (w : Writing) : run? table w.turns w = some ⟨w.finish table, []⟩ := by
  have hsome : (run? table w.turns w).isSome := isSome_run?_iff.2 w.turns.le_refl
  obtain ⟨w', hw'⟩ := Option.isSome_iff_exists.1 hsome
  obtain ⟨hfinish, hturns⟩ := of_run? hw'
  rw [hw', ← hfinish]
  exact congrArg some (eq_finish_of_turns (Nat.add_eq_right.1 hturns))

end Writing

/-- **The loop writes what recursion gives.** Whatever the tree and the table, the loop that writes a
filter piece by piece makes as many turns as the tree gives and no more, has no piece left then, and
the text that is written is that of the recursion on the tree. After every turn before the last, too,
the pieces that are left complete what is written to that text. -/
theorem render_recursive (f : Filter) :
    render table f = f.queryText table ∧
    (∀ n, (Writing.run? table n (.start f)).map (Writing.finish table) =
      if n ≤ f.turns then some (f.queryText table) else none) ∧
    Writing.run? table f.turns (.start f) = some ⟨f.queryText table, []⟩ := by
  have hrender : (Writing.start f).finish table = f.queryText table := render_eq table f
  refine ⟨hrender, fun n => ?_, ?_⟩
  · rw [Writing.run?_map_finish, Writing.turns_start, hrender]
  · rw [← Writing.turns_start, Writing.run?_turns, hrender]

end Filter

end ScimBridge
