import JuceWorkbench.Proofs.Text.Blank

/-! The words of a text, its parts between white space. Everything about them follows from what
one character of white space does: `words_break`. -/

namespace JuceWorkbench.Text

def pieces : List Char → List (List Char)
  | [] => [[]]
  | c :: rest =>
    if isBlank c then [] :: pieces rest
    else match pieces rest with
      | [] => [[c]]
      | piece :: more => (c :: piece) :: more

def words (text : List Char) : List (List Char) := (pieces text).filter (!·.isEmpty)

theorem pieces_ne_nil (text : List Char) : pieces text ≠ [] := by
  cases text with
  | nil => simp [pieces]
  | cons c rest =>
    unfold pieces
    split
    · simp
    · split <;> simp

theorem pieces_break (front back : List Char) (c : Char) (blank : isBlank c = true) :
    pieces (front ++ c :: back) = pieces front ++ pieces back := by
  induction front with
  | nil => simp [pieces, blank]
  | cons d front ih =>
    rw [List.cons_append, pieces, pieces, ih]
    split
    · rfl
    · cases split : pieces front with
      | nil => exact absurd split (pieces_ne_nil front)
      | cons piece more => rfl

theorem words_break (front back : List Char) (c : Char) (blank : isBlank c = true) :
    words (front ++ c :: back) = words front ++ words back := by
  rw [words, pieces_break front back c blank, List.filter_append]
  rfl

theorem words_append (front back : List Char)
    (apart : ∀ c, front.getLast? = some c → isBlank c = true) :
    words (front ++ back) = words front ++ words back := by
  rcases List.eq_nil_or_concat front with rfl | ⟨init, c, rfl⟩
  · rfl
  · rw [List.concat_eq_append] at apart ⊢
    have blank := apart c List.getLast?_concat
    have none : words ([] : List Char) = [] := rfl
    rw [List.append_assoc, List.singleton_append, words_break _ _ c blank,
      words_break _ _ c blank, none, List.append_nil]

theorem words_blank (text : List Char) (blank : ∀ c ∈ text, isBlank c = true) : words text = [] := by
  induction text with
  | nil => rfl
  | cons c text ih =>
    have step := words_break [] text c (blank c List.mem_cons_self)
    rw [List.nil_append] at step
    rw [step, ih fun d member => blank d (List.mem_cons_of_mem c member)]
    rfl

theorem pieces_dark (word : List Char) (dark : ∀ c ∈ word, isBlank c = false) :
    pieces word = [word] := by
  induction word with
  | nil => rfl
  | cons c word ih =>
    rw [pieces, ih fun d member => dark d (List.mem_cons_of_mem c member),
      dark c List.mem_cons_self]
    rfl

theorem words_padded (front word back : List Char) (filled : word ≠ [])
    (dark : ∀ c ∈ word, isBlank c = false) (blankFront : ∀ c ∈ front, isBlank c = true)
    (blankBack : ∀ c ∈ back, isBlank c = true) : words (front ++ word ++ back) = [word] := by
  have single : words word = [word] := by
    rw [words, pieces_dark word dark]
    simp [filled]
  rw [List.append_assoc, words_append front _ fun c last =>
    blankFront c (List.mem_of_getLast? last), words_blank front blankFront, List.nil_append]
  cases back with
  | nil => rw [List.append_nil, single]
  | cons c back =>
    rw [words_break word back c (blankBack c List.mem_cons_self), single,
      words_blank back fun d member => blankBack d (List.mem_cons_of_mem c member)]
    rfl

/-! Where a word stands. -/

theorem pieces_stand (text first : List Char) (more : List (List Char))
    (split : pieces text = first :: more) :
    (∃ back, text = first ++ back ∧ ∀ c, back.head? = some c → isBlank c = true) ∧
      ∀ piece ∈ more, ∃ front c back, text = front ++ c :: piece ++ back ∧ isBlank c = true ∧
        ∀ d, back.head? = some d → isBlank d = true := by
  induction text generalizing first more with
  | nil =>
    obtain ⟨rfl, rfl⟩ := List.cons.inj split
    exact ⟨⟨[], rfl, by simp⟩, by simp⟩
  | cons c text ih =>
    cases rest : pieces text with
    | nil => exact absurd rest (pieces_ne_nil text)
    | cons piece others =>
      obtain ⟨⟨back, same, apart⟩, later⟩ := ih piece others rest
      have deeper : ∀ other ∈ others, ∃ front d back, c :: text = front ++ d :: other ++ back ∧
          isBlank d = true ∧ ∀ e, back.head? = some e → isBlank e = true := by
        intro other member
        obtain ⟨front, d, back, here, blank, behind⟩ := later other member
        exact ⟨c :: front, d, back, by rw [here]; rfl, blank, behind⟩
      rw [pieces, rest] at split
      by_cases blank : isBlank c = true
      · rw [if_pos blank] at split
        obtain ⟨rfl, rfl⟩ := List.cons.inj split
        refine ⟨⟨c :: text, rfl, ?_⟩, ?_⟩
        · intro d head
          exact Option.some.inj head ▸ blank
        · intro other member
          rcases List.mem_cons.1 member with rfl | inner
          · exact ⟨[], c, back, by rw [same]; rfl, blank, apart⟩
          · exact deeper other inner
      · rw [if_neg blank] at split
        obtain ⟨rfl, rfl⟩ := List.cons.inj split
        exact ⟨⟨back, by rw [same]; rfl, apart⟩, deeper⟩

/-- A word stands between white space or at an end of the text. -/
theorem exists_of_mem_words (text word : List Char) (member : word ∈ words text) :
    ∃ front back, text = front ++ word ++ back ∧
      (∀ c, front.getLast? = some c → isBlank c = true) ∧
      ∀ c, back.head? = some c → isBlank c = true := by
  have piece := (List.mem_filter.1 member).1
  cases split : pieces text with
  | nil => exact absurd split (pieces_ne_nil text)
  | cons first more =>
    obtain ⟨⟨back, same, apart⟩, later⟩ := pieces_stand text first more split
    rw [split] at piece
    rcases List.mem_cons.1 piece with rfl | inner
    · exact ⟨[], back, same, by simp, apart⟩
    · obtain ⟨front, c, back, here, blank, behind⟩ := later word inner
      refine ⟨front ++ [c], back, by simp [here], ?_, behind⟩
      intro d last
      rw [List.getLast?_concat] at last
      exact Option.some.inj last ▸ blank

end JuceWorkbench.Text
