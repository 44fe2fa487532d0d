import JuceWorkbench.Proofs.Script.Registration

/-! Entries among longer names. An entry counts as listed where no character beside it joins it to
its surroundings, and white space joins nothing, so each line of a script can be looked at alone. A
longer name lists the entry too if it holds it between characters that do not join. -/

namespace JuceWorkbench.Script

structure IsSourceName (name : List Char) : Prop where
  ends : ".cpp".toList <:+ name
  dark : ∀ c ∈ name, Text.isBlank c = false

def openingLines : List (List Char) := ["target_sources(app".toList, "    PRIVATE".toList]

def listing (margin : List Char) (names : List (List Char)) : List Char :=
  ((openingLines ++ names.map (margin ++ ·) ++ [[')']]).map (· ++ ['\n'])).flatten

/-- A longer name holds the entry, and the characters beside it there do not join it to the rest. -/
def HoldsApart (entry name : List Char) : Prop :=
  ∃ front back, name = front ++ entry ++ back ∧ (front ≠ [] ∨ back ≠ []) ∧
    front.getLast?.any joinsBefore = false ∧ back.head?.any joinsBehind = false

section Lines

variable {entry : List Char} (dark : ∀ c ∈ entry, Text.isBlank c = false) (filled : entry ≠ [])
include filled

theorem not_isListed_nil : ¬isListed [] entry = true := by
  rw [isListed_iff_append]
  rintro ⟨front, back, empty, -⟩
  have none := (List.append_eq_nil_iff.1 (List.append_eq_nil_iff.1 empty.symm).1).2
  exact filled none

include dark

theorem isListed_lines_iff (lines : List (List Char)) :
    isListed (lines.map (· ++ ['\n'])).flatten entry = true ↔ ∃ line ∈ lines, isListed line entry = true := by
  induction lines with
  | nil => simpa using not_isListed_nil filled
  | cons line lines ih =>
    calc
      _ ↔ isListed (line ++ '\n' :: (lines.map (· ++ ['\n'])).flatten) entry = true := by simp
      _ ↔ isListed line entry = true ∨ isListed (lines.map (· ++ ['\n'])).flatten entry = true :=
        isListed_break dark line _ (by decide)
      _ ↔ _ := by simp [ih]

theorem isListed_margin_iff {margin : List Char} (blank : ∀ c ∈ margin, Text.isBlank c = true)
    (name : List Char) : isListed (margin ++ name) entry = true ↔ isListed name entry = true := by
  induction margin with
  | nil => rfl
  | cons c margin ih =>
    rw [List.cons_append, ← List.nil_append (c :: (margin ++ name)),
      isListed_break dark [] _ (blank c List.mem_cons_self),
      ih fun d member => blank d (List.mem_cons_of_mem c member)]
    exact or_iff_right (not_isListed_nil filled)

end Lines

theorem isListed_iff_holdsApart (name entry : List Char) :
    isListed name entry = true ↔ name = entry ∨ HoldsApart entry name := by
  rw [isListed_iff_append]
  constructor
  · rintro ⟨front, back, split, before, behind⟩
    by_cases whole : front = [] ∧ back = []
    · left
      rw [split, whole.1, whole.2]
      simp
    · refine Or.inr ⟨front, back, split, ?_, before, behind⟩
      exact Decidable.not_and_iff_not_or_not.1 whole
  · rintro (rfl | ⟨front, back, split, -, before, behind⟩)
    · exact ⟨[], [], by simp, rfl, rfl⟩
    · exact ⟨front, back, split, before, behind⟩

section Listing

variable {margin entry : List Char} {names : List (List Char)}

theorem IsSourceName.ne_nil (own : IsSourceName entry) : entry ≠ [] := by
  rintro rfl
  exact absurd own.ends (by decide)

theorem IsSourceName.isBare (own : IsSourceName entry) : IsBare entry := by
  constructor
  · constructor
    · obtain ⟨c, rest, split⟩ := List.exists_cons_of_ne_nil own.ne_nil
      exact ⟨c, rest, split, own.dark c (by rw [split]; exact List.mem_cons_self)⟩
    · obtain ⟨stem, split⟩ := own.ends
      exact ⟨stem ++ ".cp".toList, 'p', by rw [← split]; simp, by decide⟩
  · intro c member
    rw [Bool.eq_false_iff]
    intro breaks
    exact Bool.eq_false_iff.1 (own.dark c member) (Text.isBlank_of_isLineBreak c breaks)

theorem IsSourceName.not_isListed (own : IsSourceName entry) {line : List Char} (dotless : '.' ∉ line) :
    ¬isListed line entry = true := by
  rw [isListed_iff_append]
  rintro ⟨front, back, rfl, -⟩
  obtain ⟨stem, split⟩ := own.ends
  apply dotless
  rw [← split]
  simp

theorem isListed_listing_iff (own : IsSourceName entry) (blank : ∀ c ∈ margin, Text.isBlank c = true) :
    isListed (listing margin names) entry = true ↔ ∃ name ∈ names, isListed name entry = true := by
  rw [listing, isListed_lines_iff own.dark own.ne_nil]
  have dotless : ∀ line ∈ [')'] :: openingLines, '.' ∉ line := by decide
  constructor
  · rintro ⟨line, member, listed⟩
    rw [List.append_assoc, List.mem_append, List.mem_append, List.mem_map, List.mem_singleton] at member
    rcases member with opening | ⟨name, member, rfl⟩ | rfl
    · exact absurd listed (own.not_isListed (dotless line (List.mem_cons_of_mem _ opening)))
    · exact ⟨name, member, (isListed_margin_iff own.dark own.ne_nil blank name).1 listed⟩
    · exact absurd listed (own.not_isListed (dotless [')'] List.mem_cons_self))
  · rintro ⟨name, member, listed⟩
    refine ⟨margin ++ name, ?_, (isListed_margin_iff own.dark own.ne_nil blank name).2 listed⟩
    exact List.mem_append_left _ (List.mem_append_right _ (List.mem_map_of_mem member))

theorem present_iff (document : List Char) (own : IsSourceName entry) :
    (∃ injection ∈ inject document entry, injection.strategy = .present) ↔
      isListed document entry = true := by
  rw [inject_of_isEntry document own.isBare.isEntry, own.isBare.trimmed.trim]
  constructor
  · rintro ⟨injection, done, present⟩
    obtain rfl := Option.some.inj done
    exact listed_of_present present
  · intro listed
    exact ⟨_, rfl, by rw [place_of_listed listed]⟩

/-- The entry is taken for one of the names exactly when it is one, unless one of them is longer and
holds it apart. -/
theorem present_listing_iff (own : IsSourceName entry) (blank : ∀ c ∈ margin, Text.isBlank c = true) :
    ((∃ injection ∈ inject (listing margin names) entry, injection.strategy = .present) ↔
        entry ∈ names) ↔
      entry ∈ names ∨ ∀ name ∈ names, ¬HoldsApart entry name := by
  have present : (∃ injection ∈ inject (listing margin names) entry, injection.strategy = .present) ↔
      entry ∈ names ∨ ∃ name ∈ names, HoldsApart entry name := by
    rw [present_iff _ own, isListed_listing_iff own blank]
    constructor
    · rintro ⟨name, member, listed⟩
      rcases (isListed_iff_holdsApart name entry).1 listed with rfl | holds
      · exact Or.inl member
      · exact Or.inr ⟨name, member, holds⟩
    · rintro (member | ⟨name, member, holds⟩)
      · exact ⟨entry, member, (isListed_iff_holdsApart entry entry).2 (Or.inl rfl)⟩
      · exact ⟨name, member, (isListed_iff_holdsApart name entry).2 (Or.inr holds)⟩
  rw [present]
  by_cases member : entry ∈ names
  · simp [member]
  · simp [member]

end Listing

theorem present_listing_iff_editor :
    IsSourceName "Editor.cpp".toList ∧ (∀ c ∈ "        ".toList, Text.isBlank c = true) ∧
      ¬∃ injection ∈ inject (listing "        ".toList ["sub/Editor.cpp".toList, "MyEditor.cpp".toList])
        "Editor.cpp".toList, injection.strategy = .present := by
  have own : IsSourceName "Editor.cpp".toList := by
    refine ⟨⟨"Editor".toList, by decide⟩, Text.forall_eq_false_of_any (by decide)⟩
  have blank : ∀ c ∈ "        ".toList, Text.isBlank c = true := List.all_eq_true.1 (by decide)
  have unlisted : ∀ name ∈ ["sub/Editor.cpp".toList, "MyEditor.cpp".toList],
      ¬isListed name "Editor.cpp".toList = true := by decide
  have same := (present_listing_iff own blank).2 (Or.inr fun name member holds =>
    unlisted name member ((isListed_iff_holdsApart name _).2 (Or.inr holds)))
  exact ⟨own, blank, fun present => absurd (same.1 present) (by decide)⟩

/-- A plus sign joins nothing, nor does a hyphen behind the entry. -/
theorem present_for_longer_name :
    (∃ injection ∈ inject (listing "        ".toList ["a+b.cpp".toList]) "b.cpp".toList,
        injection.strategy = .present) ∧ "b.cpp".toList ∉ ["a+b.cpp".toList] ∧
      (∃ injection ∈ inject (listing "        ".toList ["a.cpp-old.cpp".toList]) "a.cpp".toList,
        injection.strategy = .present) ∧ "a.cpp".toList ∉ ["a.cpp-old.cpp".toList] := by
  decide

end JuceWorkbench.Script
