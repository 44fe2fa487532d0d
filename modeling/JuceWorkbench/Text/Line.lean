import JuceWorkbench.Text.Blank

/-! Lines. A line break is a line feed, a carriage return, the two together, or one of
the eight other characters that end a line in Unicode text. `lines` keeps each break with
its line, so nothing is lost: `flatten_lines`. -/

namespace JuceWorkbench.Text

def isLineBreak (c : Char) : Bool :=
  let n := c.toNat
  (10 ≤ n && n ≤ 13) || (28 ≤ n && n ≤ 30) || n == 0x85 || n == 0x2028 || n == 0x2029

def prepend (piece : List Char) : List (List Char) → List (List Char)
  | [] => [piece]
  | line :: more => (piece ++ line) :: more

/-- The lines of a text, each with the break that ends it. A carriage return followed by a
line feed is one break. -/
def lines : List Char → List (List Char)
  | [] => []
  | '\r' :: '\n' :: rest => ['\r', '\n'] :: lines rest
  | c :: rest => if isLineBreak c then [c] :: lines rest else prepend [c] (lines rest)

theorem flatten_prepend (piece : List Char) (more : List (List Char)) :
    (prepend piece more).flatten = piece ++ more.flatten := by
  cases more <;> simp [prepend]

theorem flatten_lines (text : List Char) : (lines text).flatten = text := by
  fun_induction lines text with
  | case1 => rfl
  | case2 rest ih => simp [ih]
  | case3 c rest _ _ ih => simp [ih]
  | case4 c rest _ _ ih => simp [flatten_prepend, ih]

def lineBody (line : List Char) : List Char :=
  match line.reverse with
  | '\n' :: '\r' :: rest => rest.reverse
  | c :: rest => if isLineBreak c then rest.reverse else line
  | [] => []

def lineBodies (text : List Char) : List (List Char) := (lines text).map lineBody

/-- Each carriage return, with the line feed behind it if there is one, becomes a line feed. -/
def unifyBreaks : List Char → List Char
  | [] => []
  | '\r' :: '\n' :: rest => '\n' :: unifyBreaks rest
  | c :: rest => (if c = '\r' then '\n' else c) :: unifyBreaks rest

theorem not_mem_unifyBreaks (text : List Char) : '\r' ∉ unifyBreaks text := by
  fun_induction unifyBreaks text with
  | case1 => simp
  | case2 rest ih => simp [ih]
  | case3 c rest _ ih => by_cases h : c = '\r' <;> simp [h, ih, eq_comm]

/-- The lines of a text that end at line feeds only, each with its line feed. -/
def feedLines : List Char → List (List Char)
  | [] => []
  | c :: rest => if c = '\n' then [c] :: feedLines rest else prepend [c] (feedLines rest)

/-- The line ending that new lines of a document take: that of the first line that ends in
a line feed, a carriage return or both, and a line feed when no line does. -/
def newlineOf : List (List Char) → List Char
  | [] => ['\n']
  | line :: more =>
    match line.reverse with
    | '\n' :: '\r' :: _ => ['\r', '\n']
    | '\n' :: _ => ['\n']
    | '\r' :: _ => ['\r']
    | _ => newlineOf more

end JuceWorkbench.Text
