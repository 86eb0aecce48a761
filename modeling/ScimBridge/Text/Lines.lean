/-!
# Lines of a text

A text that is shown to somebody is cut into lines at every line end that Unicode knows. The last
line need not have an end, and an end at the end of the text begins no further line.

Main statement: no line holds a line end.
-/

namespace ScimBridge

/-- The characters that end a line. -/
def isLineEnd (c : Char) : Bool :=
  let n := c.toNat
  (10 ≤ n && n ≤ 13) || (28 ≤ n && n ≤ 30) || n == 0x85 || n == 0x2028 || n == 0x2029

/-- The lines of a text. A carriage return and a line feed are one end. -/
def cutLines : List Char → List (List Char)
  | [] => []
  | '\r' :: '\n' :: rest => [] :: cutLines rest
  | c :: rest =>
    if isLineEnd c then [] :: cutLines rest
    else match cutLines rest with
      | [] => [[c]]
      | line :: lines => (c :: line) :: lines

theorem not_isLineEnd_of_mem_cutLines {cs line : List Char} (h : line ∈ cutLines cs) {c : Char}
    (hc : c ∈ line) : isLineEnd c = false := by
  fun_induction cutLines cs generalizing line with
  | case1 => simp at h
  | case2 rest ih =>
    rcases List.mem_cons.1 h with rfl | h
    · simp at hc
    · exact ih h hc
  | case3 c rest _ he ih =>
    rcases List.mem_cons.1 h with rfl | h
    · simp at hc
    · exact ih h hc
  | case4 d rest _ he hn ih =>
    simp only [List.mem_singleton] at h
    subst h
    simp only [List.mem_singleton] at hc
    subst hc
    simpa using he
  | case5 d rest _ he first others hl ih =>
    rcases List.mem_cons.1 h with rfl | h
    · rcases List.mem_cons.1 hc with rfl | hc
      · simpa using he
      · exact ih (hl ▸ List.mem_cons_self ..) hc
    · exact ih (hl ▸ List.mem_cons_of_mem _ h) hc

/-- The lines that are seen where some lines are printed one after the other. -/
def seenLines (printed : List String) : List String :=
  (cutLines (printed.flatMap fun line => line.toList ++ ['\n'])).map String.ofList

end ScimBridge
