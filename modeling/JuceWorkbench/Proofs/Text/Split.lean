import JuceWorkbench.Text.Blank

/-! Texts taken apart at a separator, and put together again. -/

namespace JuceWorkbench.Text

theorem map_ofList_toList (words : List String) :
    (words.map String.toList).map String.ofList = words := by
  have same : String.ofList ∘ String.toList = id := by
    funext word
    exact String.ofList_toList
  rw [List.map_map, same, List.map_id]

variable {separator : Char} {text : List Char}

theorem splitOn_append_separator (separator : Char) (a b : List Char) :
    splitOn separator (a ++ separator :: b) = splitOn separator a ++ splitOn separator b := by
  induction a with
  | nil => simp [splitOn]
  | cons c rest ih =>
    by_cases same : c = separator
    · simp [splitOn, same, ih]
    · cases pieces : splitOn separator rest with
      | nil => exact absurd pieces (splitOn_ne_nil separator rest)
      | cons piece more => simp [splitOn, same, ih, pieces]

theorem splitOn_of_not_mem (apart : separator ∉ text) : splitOn separator text = [text] := by
  induction text with
  | nil => rfl
  | cons c rest ih =>
    rw [List.mem_cons, not_or] at apart
    rw [splitOn, if_neg (Ne.symm apart.1), ih apart.2]

theorem splitOn_append_of_not_mem (text : List Char) {more : List Char} (apart : separator ∉ more) :
    ∃ front last, splitOn separator text = front ++ [last] ∧
      splitOn separator (text ++ more) = front ++ [last ++ more] := by
  induction text with
  | nil => exact ⟨[], [], rfl, splitOn_of_not_mem apart⟩
  | cons c rest ih =>
    obtain ⟨front, last, pieces, longer⟩ := ih
    by_cases same : c = separator
    · refine ⟨[] :: front, last, ?_, ?_⟩
      · rw [splitOn, if_pos same, pieces, List.cons_append]
      · rw [List.cons_append, splitOn, if_pos same, longer, List.cons_append]
    · cases front with
      | nil =>
        refine ⟨[], c :: last, ?_, ?_⟩
        · rw [splitOn, if_neg same, pieces]
          rfl
        · rw [List.cons_append, splitOn, if_neg same, longer]
          rfl
      | cons first front =>
        refine ⟨(c :: first) :: front, last, ?_, ?_⟩
        · rw [splitOn, if_neg same, pieces]
          rfl
        · rw [List.cons_append, splitOn, if_neg same, longer]
          rfl

theorem not_mem_of_mem_splitOn {piece : List Char} (member : piece ∈ splitOn separator text) :
    separator ∉ piece := by
  induction text generalizing piece with
  | nil =>
    rw [splitOn, List.mem_singleton] at member
    rw [member]
    exact List.not_mem_nil
  | cons c rest ih =>
    unfold splitOn at member
    split at member
    · rcases List.mem_cons.1 member with rfl | later
      · exact List.not_mem_nil
      · exact ih later
    · rename_i other
      split at member
      · rw [List.mem_singleton] at member
        rw [member, List.mem_singleton]
        exact Ne.symm other
      · rename_i first more pieces
        rw [pieces] at ih
        rcases List.mem_cons.1 member with rfl | later
        · rw [List.mem_cons, not_or]
          exact ⟨Ne.symm other, ih List.mem_cons_self⟩
        · exact ih (List.mem_cons_of_mem _ later)

theorem splitOn_joinWith {pieces : List (List Char)} (filled : pieces ≠ [])
    (apart : ∀ piece ∈ pieces, separator ∉ piece) :
    splitOn separator (joinWith [separator] pieces) = pieces := by
  induction pieces with
  | nil => exact absurd rfl filled
  | cons piece more ih =>
    cases more with
    | nil => exact splitOn_of_not_mem (apart piece List.mem_cons_self)
    | cons next more =>
      have further := ih (List.cons_ne_nil next more) fun other later =>
        apart other (List.mem_cons_of_mem piece later)
      rw [joinWith, List.append_assoc, List.singleton_append, splitOn_append_separator,
        splitOn_of_not_mem (apart piece List.mem_cons_self), further, List.singleton_append]
      exact List.cons_ne_nil _ _

end JuceWorkbench.Text
