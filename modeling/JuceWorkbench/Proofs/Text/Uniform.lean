import JuceWorkbench.Proofs.Text.Line

/-! Texts with line breaks of one kind. Lines that end alike, the last one perhaps without an ending,
are the lines of the text they make up (`IsUniform.lines_flatten`), so lines of the same kind can be
put among them without joining any two. -/

namespace JuceWorkbench.Text

/-- Every line break of the text is `newline`. -/
def BreaksBy (newline text : List Char) : Prop :=
  ∀ line ∈ lines text, ∃ body ending, line = body ++ ending ∧
    (∀ c ∈ body, isLineBreak c = false) ∧ (ending = [] ∨ ending = newline)

def EndsBy (newline line : List Char) : Prop :=
  ∃ body, line = body ++ newline ∧ ∀ c ∈ body, isLineBreak c = false

/-- Lines that all end in `newline`, the last one perhaps without it. -/
inductive IsUniform (newline : List Char) : List (List Char) → Prop
  | nil : IsUniform newline []
  | last {body : List Char} (clean : ∀ c ∈ body, isLineBreak c = false) (filled : body ≠ []) :
      IsUniform newline [body]
  | ended {line : List Char} {more : List (List Char)} (ends : EndsBy newline line)
      (rest : IsUniform newline more) : IsUniform newline (line :: more)

variable {newline : List Char}

theorem breaks_of_mem_endings (known : newline ∈ endings) : ∀ c ∈ newline, isLineBreak c = true := by
  have all : endings.all (·.all isLineBreak) = true := by decide
  exact List.all_eq_true.1 (List.all_eq_true.1 all newline known)

theorem ne_nil_of_mem_endings (known : newline ∈ endings) : newline ≠ [] := by
  rintro rfl
  exact absurd known (by decide)

theorem EndsBy.ne_nil {line : List Char} (ends : EndsBy newline line) (known : newline ∈ endings) :
    line ≠ [] := by
  obtain ⟨body, rfl, -⟩ := ends
  exact List.append_ne_nil_of_right_ne_nil body (ne_nil_of_mem_endings known)

namespace IsUniform

theorem head?_ne_feed {list : List (List Char)} (uniform : IsUniform ['\r'] list) :
    list.flatten.head? ≠ some '\n' := by
  have start (body rest : List Char) (clean : ∀ c ∈ body, isLineBreak c = false)
      (apart : rest.head? ≠ some '\n') : (body ++ rest).head? ≠ some '\n' := by
    cases body with
    | nil => exact apart
    | cons c body =>
      intro feed
      have plain := clean c List.mem_cons_self
      rw [Option.some.inj feed] at plain
      exact absurd plain (by decide)
  cases uniform with
  | nil => simp
  | last clean filled => simpa using start _ [] clean (by simp)
  | ended ends rest =>
    obtain ⟨body, rfl, clean⟩ := ends
    rw [List.flatten_cons, List.append_assoc]
    exact start _ _ clean (by simp)

theorem lines_flatten {list : List (List Char)} (uniform : IsUniform newline list)
    (known : newline ∈ endings) : lines list.flatten = list := by
  induction uniform with
  | nil => rfl
  | last clean filled => simpa using lines_body clean filled
  | ended ends rest ih =>
    obtain ⟨body, rfl, clean⟩ := ends
    rw [List.flatten_cons, lines_ended_append body newline _ clean known, ih]
    rintro rfl
    exact rest.head?_ne_feed

theorem breaksBy {list : List (List Char)} (uniform : IsUniform newline list)
    (known : newline ∈ endings) : BreaksBy newline list.flatten := by
  unfold BreaksBy
  rw [uniform.lines_flatten known]
  induction uniform with
  | nil => simp
  | last clean filled => simpa using ⟨_, [], by simp, clean, Or.inl rfl⟩
  | ended ends rest ih =>
    obtain ⟨body, rfl, clean⟩ := ends
    exact List.forall_mem_cons.2 ⟨⟨body, newline, rfl, clean, Or.inr rfl⟩, ih⟩

theorem prepend {line : List Char} {more : List (List Char)} {c : Char}
    (uniform : IsUniform newline (line :: more)) (plain : isLineBreak c = false) :
    IsUniform newline ((c :: line) :: more) := by
  cases uniform with
  | last clean filled => exact .last (List.forall_mem_cons.2 ⟨plain, clean⟩) (List.cons_ne_nil _ _)
  | ended ends rest =>
    obtain ⟨body, rfl, clean⟩ := ends
    exact .ended ⟨c :: body, rfl, List.forall_mem_cons.2 ⟨plain, clean⟩⟩ rest

theorem append {above rest : List (List Char)} (ended : ∀ line ∈ above, EndsBy newline line)
    (uniform : IsUniform newline rest) : IsUniform newline (above ++ rest) := by
  induction above with
  | nil => exact uniform
  | cons line above ih =>
    exact .ended (ended line List.mem_cons_self)
      (ih fun other member => ended other (List.mem_cons_of_mem line member))

theorem endsBy_of_append {above rest : List (List Char)} (uniform : IsUniform newline (above ++ rest))
    (more : rest ≠ []) : (∀ line ∈ above, EndsBy newline line) ∧ IsUniform newline rest := by
  induction above with
  | nil => exact ⟨by simp, uniform⟩
  | cons line above ih =>
    generalize whole : above ++ rest = list at ih
    rw [List.cons_append, whole] at uniform
    cases uniform with
    | last => exact absurd (List.append_eq_nil_iff.1 whole).2 more
    | ended ends tail => exact ⟨List.forall_mem_cons.2 ⟨ends, (ih tail).1⟩, (ih tail).2⟩

theorem insert {above rest added : List (List Char)} (uniform : IsUniform newline (above ++ rest))
    (more : rest ≠ []) (ended : ∀ line ∈ added, EndsBy newline line) :
    IsUniform newline (above ++ added ++ rest) := by
  obtain ⟨front, back⟩ := uniform.endsBy_of_append more
  exact back.append (List.forall_mem_append.2 ⟨front, ended⟩)

theorem newlineOf {list : List (List Char)} (uniform : IsUniform newline list) (known : newline ∈ endings)
    (broken : ∃ line ∈ list, ∃ c ∈ line, isLineBreak c = true) : newlineOf list = newline := by
  cases uniform with
  | nil => simp at broken
  | last clean filled =>
    obtain ⟨line, member, c, inside, breaks⟩ := broken
    rw [List.mem_singleton.1 member] at inside
    rw [clean c inside] at breaks
    cases breaks
  | ended ends rest =>
    obtain ⟨body, rfl, clean⟩ := ends
    refine newlineOf_ended body newline _ ?_ known
    intro returns
    exact absurd (clean _ (List.mem_of_getLast? returns)) (by decide)

end IsUniform

/-- A line break that is a line of its own is the line break of the text. -/
theorem eq_of_line {line : List Char} (filled : line ≠ []) (breaks : ∀ c ∈ line, isLineBreak c = true)
    (parts : ∃ body ending, line = body ++ ending ∧ (∀ c ∈ body, isLineBreak c = false) ∧
      (ending = [] ∨ ending = newline)) : line = newline := by
  obtain ⟨body, ending, rfl, clean, which⟩ := parts
  obtain rfl : body = [] := by
    cases body with
    | nil => rfl
    | cons c body => exact absurd (breaks c (by simp)) (by simp [clean c List.mem_cons_self])
  exact which.resolve_left filled

theorem BreaksBy.isUniform {text : List Char} (breaks : BreaksBy newline text) (known : newline ∈ endings) :
    IsUniform newline (lines text) := by
  unfold BreaksBy at breaks
  fun_induction lines text with
  | case1 => exact .nil
  | case2 rest ih =>
    obtain ⟨first, more⟩ := List.forall_mem_cons.1 breaks
    exact .ended ⟨[], eq_of_line (by simp) (List.all_eq_true.1 (by decide)) first, by simp⟩ (ih more)
  | case3 c rest notPair broken ih =>
    obtain ⟨first, more⟩ := List.forall_mem_cons.1 breaks
    exact .ended ⟨[], eq_of_line (by simp) (by simpa using broken) first, by simp⟩ (ih more)
  | case4 c rest notPair plain ih =>
    rw [Bool.not_eq_true] at plain
    cases split : lines rest with
    | nil => exact .last (by simpa using plain) (by simp)
    | cons line more =>
      rw [split] at breaks ih
      obtain ⟨⟨body, ending, same, clean, which⟩, others⟩ := List.forall_mem_cons.1 breaks
      refine (ih (List.forall_mem_cons.2 ⟨?_, others⟩)).prepend plain
      cases body with
      | nil =>
        -- the character is no part of a line break
        rcases which with rfl | rfl
        · cases same
        · have member : c ∈ ending := by rw [← List.nil_append ending, ← same]; simp
          rw [breaks_of_mem_endings known c member] at plain
          cases plain
      | cons d body =>
        obtain ⟨rfl, rfl⟩ := List.cons.inj same
        exact ⟨body, ending, rfl, (List.forall_mem_cons.1 clean).2, which⟩

end JuceWorkbench.Text
