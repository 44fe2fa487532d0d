import JuceWorkbench.Text.Blank

/-! Names that may have been meant by an unknown one. How alike two texts are is measured by
what they share: their longest common piece, and what the texts share in front of it and
behind it. -/

namespace JuceWorkbench.CommandLine

def sharedStart : List Char → List Char → Nat
  | a :: more, b :: rest => if a = b then sharedStart more rest + 1 else 0
  | _, _ => 0

structure SharedPiece where
  first : Nat
  second : Nat
  length : Nat
  deriving DecidableEq, Repr

/-- The longest piece that two texts share; of several the one that stands first in the first
text, and then in the second. -/
def longestShared (first second : List Char) : SharedPiece :=
  let places := (List.range first.length).flatMap fun i =>
    (List.range second.length).map fun j =>
      SharedPiece.mk i j (sharedStart (first.drop i) (second.drop j))
  places.foldl (fun best piece => if best.length < piece.length then piece else best) ⟨0, 0, 0⟩

def sharedCount (first second : List Char) : Nat :=
  match longestShared first second with
  | ⟨i, j, length⟩ =>
    if 0 < length ∧ i < first.length then
      sharedCount (first.take i) (second.take j) + length +
        sharedCount (first.drop (i + length)) (second.drop (j + length))
    else 0
  termination_by first.length
  decreasing_by
  · simp only [List.length_take]; omega
  · simp only [List.length_drop]; omega

structure Likeness where
  name : String
  shared : Nat
  total : Nat
  deriving DecidableEq, Repr

def Likeness.of (word name : String) : Likeness :=
  { name, shared := sharedCount name.toList word.toList, total := name.length + word.length }

/-- Whether six tenths of both texts are shared, or more. -/
def Likeness.isClose (likeness : Likeness) : Bool := 3 * likeness.total ≤ 10 * likeness.shared

/-- Whether one name goes before another: it shares more, or as much and comes later in the
order of names. -/
def Likeness.goesBefore (a b : Likeness) : Bool :=
  b.shared * a.total < a.shared * b.total ||
    (b.shared * a.total == a.shared * b.total && decide (b.name ≤ a.name))

def maxSuggestions : Nat := 3

def suggestions (word : String) (names : List String) : List String :=
  let close := (names.map (Likeness.of word)).filter (·.isClose)
  ((close.mergeSort Likeness.goesBefore).take maxSuggestions).map (·.name)
    |>.mergeSort fun a b => decide (a ≤ b)

end JuceWorkbench.CommandLine
