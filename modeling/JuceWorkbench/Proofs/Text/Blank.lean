import JuceWorkbench.Text.Line
import JuceWorkbench.Text.Word

/-! White space at the ends of a text, and texts that occur inside it. A text that neither
starts nor ends in white space is found inside a padded text only where it is found in the
text without the padding: `infix_padded_iff`. -/

namespace JuceWorkbench.Text

def blankCodes : List Nat :=
  [9, 10, 11, 12, 13, 28, 29, 30, 31, 32, 0x85, 0xa0, 0x1680, 0x2000, 0x2001, 0x2002, 0x2003,
    0x2004, 0x2005, 0x2006, 0x2007, 0x2008, 0x2009, 0x200a, 0x2028, 0x2029, 0x202f, 0x205f, 0x3000]

theorem toNat_mem_blankCodes (c : Char) (blank : isBlank c = true) : c.toNat ∈ blankCodes := by
  simp only [isBlank, Bool.or_eq_true, Bool.and_eq_true, decide_eq_true_eq, beq_iff_eq] at blank
  simp only [blankCodes, List.mem_cons, List.not_mem_nil, or_false]
  omega

theorem isWord_of_isBlank (c : Char) (blank : isBlank c = true) : isWord c = false := by
  have table : ∀ n ∈ blankCodes, isWord (Char.ofNat n) = false := by decide +kernel
  have known := table c.toNat (toNat_mem_blankCodes c blank)
  rwa [Char.ofNat_toNat] at known

theorem forall_eq_false_of_any {wanted : Char → Bool} {text : List Char}
    (none : text.any wanted = false) : ∀ c ∈ text, wanted c = false := by
  intro c member
  rw [Bool.eq_false_iff]
  exact List.any_eq_false.1 none c member

theorem isBlank_of_isLineBreak (c : Char) (breaks : isLineBreak c = true) : isBlank c = true := by
  simp only [isLineBreak, Bool.or_eq_true, Bool.and_eq_true, decide_eq_true_eq,
    beq_iff_eq] at breaks
  simp only [isBlank, Bool.or_eq_true, Bool.and_eq_true, decide_eq_true_eq, beq_iff_eq]
  omega

/-! Trimming. -/

theorem trimLeft_append_of_blank (front text : List Char) (blank : ∀ c ∈ front, isBlank c = true) :
    trimLeft (front ++ text) = trimLeft text :=
  List.dropWhile_append_of_pos blank

theorem trimRight_append_of_blank (text back : List Char) (blank : ∀ c ∈ back, isBlank c = true) :
    trimRight (text ++ back) = trimRight text := by
  unfold trimRight
  rw [List.reverse_append, List.dropWhile_append_of_pos]
  intro c member
  exact blank c (List.mem_reverse.1 member)

theorem exists_blank_append_trimRight (text : List Char) :
    ∃ back, text = trimRight text ++ back ∧ ∀ c ∈ back, isBlank c = true := by
  refine ⟨(text.reverse.takeWhile isBlank).reverse, ?_, ?_⟩
  · unfold trimRight
    rw [← List.reverse_append, List.takeWhile_append_dropWhile, List.reverse_reverse]
  · intro c member
    exact margin_blank text.reverse c (List.mem_reverse.1 member)

structure IsTrimmed (text : List Char) : Prop where
  head : ∃ c rest, text = c :: rest ∧ isBlank c = false
  last : ∃ front c, text = front ++ [c] ∧ isBlank c = false

theorem IsTrimmed.ne_nil {text : List Char} (trimmed : IsTrimmed text) : text ≠ [] := by
  obtain ⟨c, rest, rfl, -⟩ := trimmed.head
  exact List.cons_ne_nil c rest

theorem IsTrimmed.reverse {text : List Char} (trimmed : IsTrimmed text) :
    IsTrimmed text.reverse where
  head := by
    obtain ⟨front, c, rfl, dark⟩ := trimmed.last
    exact ⟨c, front.reverse, by simp, dark⟩
  last := by
    obtain ⟨c, rest, rfl, dark⟩ := trimmed.head
    exact ⟨rest.reverse, c, by simp, dark⟩

theorem IsTrimmed.trimLeft {text : List Char} (trimmed : IsTrimmed text) (back : List Char) :
    Text.trimLeft (text ++ back) = text ++ back := by
  obtain ⟨c, rest, rfl, dark⟩ := trimmed.head
  simp [Text.trimLeft, dark]

theorem IsTrimmed.trimRight {text : List Char} (trimmed : IsTrimmed text) :
    Text.trimRight text = text := by
  obtain ⟨front, c, rfl, dark⟩ := trimmed.last
  simp [Text.trimRight, dark]

theorem isTrimmed_trim (text : List Char) (dark : trim text ≠ []) : IsTrimmed (trim text) := by
  have notBlank : ∀ front c rest, List.dropWhile isBlank front = c :: rest → isBlank c = false := by
    intro front c rest same
    have kept := List.head?_dropWhile_not isBlank front
    rw [same] at kept
    simpa using kept
  constructor
  · cases left : trimLeft text with
    | nil => exact absurd (by simp [trim, left, trimRight]) dark
    | cons c rest =>
      have first := notBlank text c rest left
      obtain ⟨back, split, blank⟩ := exists_blank_append_trimRight (c :: rest)
      unfold trim at dark ⊢
      rw [left] at dark ⊢
      cases right : trimRight (c :: rest) with
      | nil => exact absurd right dark
      | cons d more =>
        rw [right] at split
        exact ⟨d, more, rfl, by rw [← (List.cons.inj split).1]; exact first⟩
  · cases right : (trimLeft text).reverse.dropWhile isBlank with
    | nil => exact absurd (by simp [trim, trimRight, right]) dark
    | cons c rest =>
      exact ⟨rest.reverse, c, by simp [trim, trimRight, right], notBlank _ c rest right⟩

theorem trim_padded (front body back : List Char) (trimmed : IsTrimmed body)
    (blankFront : ∀ c ∈ front, isBlank c = true) (blankBack : ∀ c ∈ back, isBlank c = true) :
    trim (front ++ body ++ back) = body := by
  rw [trim, List.append_assoc, trimLeft_append_of_blank _ _ blankFront, trimmed.trimLeft,
    trimRight_append_of_blank _ _ blankBack, trimmed.trimRight]

theorem IsTrimmed.trim {text : List Char} (trimmed : IsTrimmed text) : Text.trim text = text := by
  have padded := trim_padded [] text [] trimmed (by simp) (by simp)
  rwa [List.nil_append, List.append_nil] at padded

/-- A text is its margin, what trimming leaves, and white space behind. -/
theorem exists_padding (text : List Char) :
    ∃ front back, text = front ++ trim text ++ back ∧ (∀ c ∈ front, isBlank c = true) ∧
      ∀ c ∈ back, isBlank c = true := by
  obtain ⟨back, split, blank⟩ := exists_blank_append_trimRight (trimLeft text)
  refine ⟨margin text, back, ?_, margin_blank text, blank⟩
  rw [trim, List.append_assoc, ← split, margin_append_trimLeft]

/-! Occurrences. -/

theorem contains_iff (text part : List Char) : contains text part = true ↔ part <:+: text := by
  induction text with
  | nil => simp [contains]
  | cons c rest ih => simp [contains, ih, List.infix_cons_iff]

theorem infix_joinWith (separator piece : List Char) (pieces : List (List Char))
    (member : piece ∈ pieces) : piece <:+: joinWith separator pieces := by
  induction pieces with
  | nil => cases member
  | cons first more ih =>
    cases more with
    | nil =>
      rw [List.mem_singleton.1 member]
      exact List.infix_rfl
    | cons second more =>
      rw [joinWith]
      · rcases List.mem_cons.1 member with rfl | later
        · exact ⟨[], separator ++ joinWith separator (second :: more), by simp⟩
        · exact (ih later).trans (List.suffix_append _ _).isInfix
      · exact List.cons_ne_nil second more

theorem infix_of_blank_append (part front text : List Char) (trimmed : IsTrimmed part)
    (blank : ∀ c ∈ front, isBlank c = true) (found : part <:+: front ++ text) : part <:+: text := by
  induction front with
  | nil => exact found
  | cons c front ih =>
    rcases List.infix_cons_iff.1 found with start | later
    · obtain ⟨d, rest, rfl, dark⟩ := trimmed.head
      have same : d = c := (List.cons_prefix_cons.1 start).1
      rw [same, blank c List.mem_cons_self] at dark
      cases dark
    · exact ih (fun d member => blank d (List.mem_cons_of_mem c member)) later

theorem infix_of_append_blank (part text back : List Char) (trimmed : IsTrimmed part)
    (blank : ∀ c ∈ back, isBlank c = true) (found : part <:+: text ++ back) : part <:+: text := by
  rw [← List.reverse_infix] at found ⊢
  rw [List.reverse_append] at found
  exact infix_of_blank_append _ _ _ trimmed.reverse
    (fun c member => blank c (List.mem_reverse.1 member)) found

theorem infix_padded_iff (part front body back : List Char) (trimmed : IsTrimmed part)
    (blankFront : ∀ c ∈ front, isBlank c = true) (blankBack : ∀ c ∈ back, isBlank c = true) :
    part <:+: front ++ body ++ back ↔ part <:+: body := by
  constructor
  · intro found
    exact infix_of_blank_append _ _ _ trimmed blankFront
      (infix_of_append_blank _ _ _ trimmed blankBack found)
  · intro found
    exact found.trans (List.infix_append front body back)

end JuceWorkbench.Text
