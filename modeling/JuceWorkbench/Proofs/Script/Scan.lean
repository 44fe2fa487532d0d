import JuceWorkbench.Script.Scan

/-! What the scans of a script find, as a cut of the script at the line found. A block stays
open over some lines when the depth is positive behind each of them: `StaysOpen`. -/

namespace JuceWorkbench.Script

theorem exists_cut_of_getElem? {lines : List (List Char)} {index : Nat} {line : List Char}
    (there : lines[index]? = some line) :
    ∃ above below, lines = above ++ line :: below ∧ above.length = index := by
  obtain ⟨inside, same⟩ := List.getElem?_eq_some_iff.1 there
  refine ⟨lines.take index, lines.drop (index + 1), ?_, ?_⟩
  · rw [← same, ← List.drop_eq_getElem_cons inside, List.take_append_drop]
  · exact List.length_take_of_le (Nat.le_of_lt inside)

theorem findIdx?_eq_some_iff_cut (wanted : List Char → Bool) (lines : List (List Char))
    (index : Nat) :
    lines.findIdx? wanted = some index ↔
      ∃ above line below, lines = above ++ line :: below ∧ above.length = index ∧
        wanted line = true ∧ ∀ other ∈ above, wanted other = false := by
  constructor
  · intro found
    obtain ⟨inside, hit, missed⟩ := List.findIdx?_eq_some_iff_getElem.1 found
    refine ⟨lines.take index, lines[index], lines.drop (index + 1), by simp,
      List.length_take_of_le (Nat.le_of_lt inside), hit, ?_⟩
    intro other member
    obtain ⟨place, bound, rfl⟩ := List.mem_iff_getElem.1 member
    rw [List.getElem_take]
    simpa using missed place (by simp at bound; omega)
  · rintro ⟨above, line, below, rfl, rfl, hit, missed⟩
    have none : above.findIdx? wanted = none := List.findIdx?_eq_none_iff.2 missed
    rw [List.findIdx?_append, none, List.findIdx?_cons, if_pos hit]
    simp

theorem findFrom?_zero (wanted : List Char → Bool) (lines : List (List Char)) :
    findFrom? wanted lines 0 = lines.findIdx? wanted := by
  simp [findFrom?]

theorem findFrom?_append (wanted : List Char → Bool) (above rest : List (List Char)) :
    findFrom? wanted (above ++ rest) above.length =
      (rest.findIdx? wanted).map (above.length + ·) := by
  rw [findFrom?, List.drop_left]

/-! The depth of parentheses. -/

def depthAfter (depth : Int) : List (List Char) → Int
  | [] => depth
  | line :: more => depthAfter (depth + parenBalance line) more

/-- The depth is positive behind each line. -/
def StaysOpen (depth : Int) : List (List Char) → Prop
  | [] => True
  | line :: more => 0 < depth + parenBalance line ∧ StaysOpen (depth + parenBalance line) more

theorem depthAfter_append (depth : Int) (front back : List (List Char)) :
    depthAfter depth (front ++ back) = depthAfter (depthAfter depth front) back := by
  induction front generalizing depth with
  | nil => rfl
  | cons line front ih => exact ih _

theorem staysOpen_append (depth : Int) (front back : List (List Char)) :
    StaysOpen depth (front ++ back) ↔
      StaysOpen depth front ∧ StaysOpen (depthAfter depth front) back := by
  induction front generalizing depth with
  | nil => simp [StaysOpen, depthAfter]
  | cons line front ih => simp only [List.cons_append, StaysOpen, depthAfter, ih, and_assoc]

theorem StaysOpen.positive {depth : Int} {line : List Char} {more : List (List Char)}
    (stays : StaysOpen depth (line :: more)) : 0 < depthAfter depth (line :: more) := by
  induction more generalizing depth line with
  | nil => exact stays.1
  | cons next more ih => exact ih stays.2

theorem depthAfter_of_flat (depth : Int) (lines : List (List Char))
    (flat : ∀ line ∈ lines, parenBalance line = 0) : depthAfter depth lines = depth := by
  induction lines generalizing depth with
  | nil => rfl
  | cons line lines ih =>
    have zero := flat line List.mem_cons_self
    rw [depthAfter, zero, Int.add_zero]
    exact ih depth fun other member => flat other (List.mem_cons_of_mem line member)

theorem staysOpen_of_flat (depth : Int) (lines : List (List Char)) (positive : 0 < depth)
    (flat : ∀ line ∈ lines, parenBalance line = 0) : StaysOpen depth lines := by
  induction lines generalizing depth with
  | nil => trivial
  | cons line lines ih =>
    have zero := flat line List.mem_cons_self
    rw [StaysOpen, zero, Int.add_zero]
    exact ⟨positive, ih depth positive fun other member => flat other (List.mem_cons_of_mem line member)⟩

theorem closesAfter?_eq_some_iff (depth : Int) (lines : List (List Char)) (n : Nat) :
    closesAfter? depth lines = some n ↔
      ∃ inner last below, lines = inner ++ last :: below ∧ inner.length = n ∧
        StaysOpen depth inner ∧ depthAfter depth inner + parenBalance last ≤ 0 := by
  induction lines generalizing depth n with
  | nil => simp [closesAfter?]
  | cons line more ih =>
    rw [closesAfter?]
    by_cases closes : depth + parenBalance line ≤ 0
    · rw [if_pos closes]
      constructor
      · intro zero
        obtain rfl := Option.some.inj zero
        exact ⟨[], line, more, rfl, rfl, trivial, closes⟩
      · rintro ⟨inner, last, below, same, rfl, stays, -⟩
        cases inner with
        | nil => rfl
        | cons first inner =>
          obtain ⟨rfl, -⟩ := List.cons.inj same
          have unclosed := stays.1
          omega
    · rw [if_neg closes, Option.map_eq_some_iff]
      constructor
      · rintro ⟨m, found, rfl⟩
        obtain ⟨inner, last, below, rfl, rfl, stays, ends⟩ := (ih _ _).1 found
        exact ⟨line :: inner, last, below, rfl, rfl, ⟨by omega, stays⟩, ends⟩
      · rintro ⟨inner, last, below, same, rfl, stays, ends⟩
        cases inner with
        | nil =>
          obtain ⟨rfl, -⟩ := List.cons.inj same
          exact absurd ends closes
        | cons first inner =>
          obtain ⟨rfl, rfl⟩ := List.cons.inj same
          exact ⟨inner.length, (ih _ _).2 ⟨inner, last, below, rfl, rfl, stays.2, ends⟩, rfl⟩

end JuceWorkbench.Script
