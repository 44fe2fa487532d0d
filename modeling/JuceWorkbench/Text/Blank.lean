/-! White space as Unicode has it, and the trimming of a text at either end.
A text is a list of code points, so that lengths and positions count code points. -/

namespace JuceWorkbench.Text

/-- White space: the ASCII controls from tab to carriage return and the four
separators, the space, next line, and the Unicode spaces. -/
def isBlank (c : Char) : Bool :=
  let n := c.toNat
  (9 ≤ n && n ≤ 13) || (28 ≤ n && n ≤ 32) || n == 0x85 || n == 0xa0 || n == 0x1680 ||
    (0x2000 ≤ n && n ≤ 0x200a) || n == 0x2028 || n == 0x2029 || n == 0x202f ||
    n == 0x205f || n == 0x3000

def trimLeft (text : List Char) : List Char := text.dropWhile isBlank

def trimRight (text : List Char) : List Char := (text.reverse.dropWhile isBlank).reverse

def trim (text : List Char) : List Char := trimRight (trimLeft text)

def margin (text : List Char) : List Char := text.takeWhile isBlank

theorem margin_append_trimLeft (text : List Char) : margin text ++ trimLeft text = text := by
  simp [margin, trimLeft]

theorem margin_blank (text : List Char) : ∀ c ∈ margin text, isBlank c = true := by
  intro c hc
  unfold margin at hc
  induction text with
  | nil => simp at hc
  | cons a rest ih =>
    rw [List.takeWhile_cons] at hc
    split at hc
    · rcases List.mem_cons.1 hc with rfl | h
      · assumption
      · exact ih h
    · simp at hc

/-- ASCII letters in lower case; every other code point stays. -/
def asciiLower (text : List Char) : List Char := text.map Char.toLower

def contains : List Char → List Char → Bool
  | [], part => part.isEmpty
  | c :: rest, part => part.isPrefixOf (c :: rest) || contains rest part

/-- Replaces each occurrence of `old`, from the left and without overlap, by `new`. An
empty `old` occurs nowhere. -/
def replaceAll (old new : List Char) : List Char → List Char
  | [] => []
  | c :: rest =>
    if old ≠ [] ∧ old.isPrefixOf (c :: rest) then
      new ++ replaceAll old new (rest.drop (old.length - 1))
    else c :: replaceAll old new rest
  termination_by text => text.length
  decreasing_by all_goals (simp; try omega)

def splitOn (separator : Char) : List Char → List (List Char)
  | [] => [[]]
  | c :: rest =>
    if c = separator then [] :: splitOn separator rest
    else match splitOn separator rest with
      | [] => [[c]]
      | piece :: pieces => (c :: piece) :: pieces

theorem splitOn_ne_nil (separator : Char) (text : List Char) : splitOn separator text ≠ [] := by
  cases text with
  | nil => simp [splitOn]
  | cons c rest =>
    unfold splitOn
    split
    · simp
    · split <;> simp

/-- The pieces of a text between the occurrences of a separator of several characters, found
from the left and without overlap. An empty separator occurs nowhere. -/
def splitText (separator : List Char) : List Char → List (List Char)
  | [] => [[]]
  | c :: rest =>
    if separator ≠ [] ∧ separator.isPrefixOf (c :: rest) then
      [] :: splitText separator (rest.drop (separator.length - 1))
    else match splitText separator rest with
      | [] => [[c]]
      | piece :: pieces => (c :: piece) :: pieces
  termination_by text => text.length
  decreasing_by all_goals (simp; try omega)

def occurrences (separator text : List Char) : Nat := (splitText separator text).length - 1

def joinWith (separator : List Char) : List (List Char) → List Char
  | [] => []
  | [piece] => piece
  | piece :: pieces => piece ++ separator ++ joinWith separator pieces

theorem joinWith_splitOn (separator : Char) (text : List Char) :
    joinWith [separator] (splitOn separator text) = text := by
  induction text with
  | nil => rfl
  | cons c rest ih =>
    unfold splitOn
    split
    · rename_i same
      subst same
      cases pieces : splitOn c rest with
      | nil => exact absurd pieces (splitOn_ne_nil c rest)
      | cons piece more => rw [joinWith, ← pieces, ih]; rfl; simp
    · cases pieces : splitOn separator rest with
      | nil => exact absurd pieces (splitOn_ne_nil separator rest)
      | cons piece more =>
        rw [pieces] at ih
        cases more with
        | nil => simp_all [joinWith]
        | cons next more => simp only [joinWith, List.cons_append] at ih ⊢; rw [ih]

end JuceWorkbench.Text
