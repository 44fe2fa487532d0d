import JuceWorkbench.Text.Word

/-! Whether a build script already lists an entry. An entry is listed where it stands alone:
no word character, dot, slash or hyphen directly before it, no word character or dot
directly behind it. So `Processor.cpp` is not listed by `PluginProcessor.cpp`. -/

namespace JuceWorkbench.Script

def joinsBefore (c : Char) : Bool := Text.isWord c || c == '.' || c == '/' || c == '-'

def joinsBehind (c : Char) : Bool := Text.isWord c || c == '.'

/-- Whether `entry` stands alone at the front of `rest`, which follows `before`. -/
def standsAt (entry : List Char) (before : Option Char) (rest : List Char) : Bool :=
  entry.isPrefixOf rest && !before.any joinsBefore &&
    !(rest.drop entry.length).head?.any joinsBehind

def listedAfter (entry : List Char) (before : Option Char) : List Char → Bool
  | [] => standsAt entry before []
  | c :: rest => standsAt entry before (c :: rest) || listedAfter entry (some c) rest

def isListed (document entry : List Char) : Bool := listedAfter entry none document

theorem listedAfter_iff (entry : List Char) (before : Option Char) (text : List Char) :
    listedAfter entry before text = true ↔
      ∃ front rest, text = front ++ rest ∧
        standsAt entry (front.getLast?.or before) rest = true := by
  induction text generalizing before with
  | nil =>
    constructor
    · intro here
      exact ⟨[], [], rfl, here⟩
    · rintro ⟨front, rest, same, found⟩
      obtain ⟨rfl, rfl⟩ := List.append_eq_nil_iff.1 same.symm
      exact found
  | cons c text ih =>
    simp only [listedAfter, Bool.or_eq_true, ih]
    constructor
    · rintro (here | ⟨front, rest, rfl, later⟩)
      · exact ⟨[], c :: text, rfl, by simpa using here⟩
      · refine ⟨c :: front, rest, rfl, ?_⟩
        cases front with
        | nil => simpa using later
        | cons d front => simpa [List.getLast?_cons] using later
    · rintro ⟨front, rest, same, found⟩
      cases front with
      | nil =>
        left
        simp only [List.nil_append] at same
        rw [same]
        simpa using found
      | cons d front =>
        obtain ⟨rfl, rfl⟩ := List.cons.inj same
        right
        refine ⟨front, rest, rfl, ?_⟩
        cases front with
        | nil => simpa using found
        | cons e front => simpa [List.getLast?_cons] using found

end JuceWorkbench.Script
