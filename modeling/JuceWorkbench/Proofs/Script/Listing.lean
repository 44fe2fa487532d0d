import JuceWorkbench.Proofs.Text.Line
import JuceWorkbench.Script.Listing

/-! A listed entry stays listed when a document grows at the boundaries of its lines. White
space joins an entry to nothing, and an entry without line breaks cannot reach over the
boundary at which the text comes in: `isListed_insert`. -/

namespace JuceWorkbench.Script

theorem joinsBefore_of_isBlank (c : Char) (blank : Text.isBlank c = true) :
    joinsBefore c = false := by
  have points : ∀ d ∈ ['.', '/', '-'], Text.isBlank d = false :=
    Text.forall_eq_false_of_any (by decide)
  have apart : ∀ d ∈ ['.', '/', '-'], c ≠ d := by
    rintro d member rfl
    rw [points c member] at blank
    cases blank
  simp [joinsBefore, Text.isWord_of_isBlank c blank, apart]

theorem joinsBehind_of_isBlank (c : Char) (blank : Text.isBlank c = true) :
    joinsBehind c = false := by
  have wider := joinsBefore_of_isBlank c blank
  simp only [joinsBefore, Bool.or_eq_false_iff] at wider
  simp [joinsBehind, wider.1.1]

theorem isListed_iff_append (document entry : List Char) :
    isListed document entry = true ↔
      ∃ front back, document = front ++ entry ++ back ∧
        front.getLast?.any joinsBefore = false ∧ back.head?.any joinsBehind = false := by
  unfold isListed
  rw [listedAfter_iff]
  constructor
  · rintro ⟨front, rest, rfl, stands⟩
    simp only [standsAt, Option.or_none, Bool.and_eq_true, Bool.not_eq_true'] at stands
    obtain ⟨⟨starts, before⟩, behind⟩ := stands
    obtain ⟨back, rfl⟩ := List.isPrefixOf_iff_prefix.1 starts
    refine ⟨front, back, (List.append_assoc ..).symm, before, ?_⟩
    rwa [List.drop_left] at behind
  · rintro ⟨front, back, rfl, before, behind⟩
    refine ⟨front, entry ++ back, List.append_assoc .., ?_⟩
    have starts : entry.isPrefixOf (entry ++ back) = true :=
      List.isPrefixOf_iff_prefix.2 (List.prefix_append entry back)
    simp [standsAt, starts, before, behind]

theorem isListed_between (front entry back : List Char)
    (before : ∀ c, front.getLast? = some c → Text.isBlank c = true)
    (behind : ∀ c, back.head? = some c → Text.isBlank c = true) :
    isListed (front ++ entry ++ back) entry = true := by
  rw [isListed_iff_append]
  refine ⟨front, back, rfl, ?_, ?_⟩
  · cases last : front.getLast? with
    | none => rfl
    | some c => exact joinsBefore_of_isBlank c (before c last)
  · cases first : back.head? with
    | none => rfl
    | some c => exact joinsBehind_of_isBlank c (behind c first)

theorem isListed_break {entry : List Char} (dark : ∀ c ∈ entry, Text.isBlank c = false)
    (above below : List Char) {c : Char} (blank : Text.isBlank c = true) :
    isListed (above ++ c :: below) entry = true ↔
      isListed above entry = true ∨ isListed below entry = true := by
  have outside : c ∉ entry := by
    intro member
    rw [dark c member] at blank
    cases blank
  simp only [isListed_iff_append]
  constructor
  · rintro ⟨front, back, same, before, behind⟩
    rcases List.append_eq_append_iff.1 same with ⟨rest, start, tail⟩ | ⟨rest, rfl, rfl⟩
    · cases rest with
      | nil => exact Or.inl ⟨front, [], by simpa using start.symm, before, rfl⟩
      | cons d rest =>
        obtain ⟨rfl, rfl⟩ := List.cons.inj tail
        right
        rcases List.append_eq_append_iff.1 start with ⟨more, -, inside⟩ | ⟨more, rfl, inside⟩
        · exact absurd (by rw [inside]; simp) outside
        · cases more with
          | nil =>
            rw [List.nil_append] at inside
            exact absurd (inside ▸ List.mem_cons_self) outside
          | cons e more =>
            obtain ⟨rfl, rfl⟩ := List.cons.inj inside
            refine ⟨more, back, rfl, ?_, behind⟩
            cases last : more.getLast? with
            | none => rfl
            | some d => simpa [List.getLast?_append, List.getLast?_cons, last] using before
    · left
      refine ⟨front, rest, rfl, before, ?_⟩
      cases rest with
      | nil => rfl
      | cons d rest => exact behind
  · rintro (⟨front, back, rfl, before, behind⟩ | ⟨front, back, rfl, before, behind⟩)
    · refine ⟨front, back ++ c :: below, by simp, before, ?_⟩
      cases back with
      | nil => exact joinsBehind_of_isBlank c blank
      | cons d back => exact behind
    · refine ⟨above ++ c :: front, back, by simp, ?_, behind⟩
      rw [List.getLast?_append, List.getLast?_cons]
      cases last : front.getLast? with
      | none => exact joinsBefore_of_isBlank c blank
      | some d => rwa [last] at before

theorem isListed_append (document entry tail : List Char)
    (behind : ∀ c, tail.head? = some c → Text.isBlank c = true)
    (listed : isListed document entry = true) : isListed (document ++ tail) entry = true := by
  rw [isListed_iff_append] at listed ⊢
  obtain ⟨front, back, rfl, before, after⟩ := listed
  refine ⟨front, back ++ tail, List.append_assoc .., before, ?_⟩
  cases back with
  | cons c back => exact after
  | nil =>
    cases first : tail.head? with
    | none => simp [first]
    | some c => simpa [first] using joinsBehind_of_isBlank c (behind c first)

theorem last_not_joinsBefore (text : List Char) (complete : Text.Complete text) :
    text.getLast?.any joinsBefore = false := by
  cases last : text.getLast? with
  | none => rfl
  | some c =>
    exact joinsBefore_of_isBlank c (Text.isBlank_of_isLineBreak c (complete c last))

/-- An entry on one line that is listed stays listed when complete lines come in between two
lines. -/
theorem isListed_insert (above added below entry : List Char)
    (clean : ∀ c ∈ entry, Text.isLineBreak c = false) (completeAbove : Text.Complete above)
    (completeAdded : Text.Complete added) (listed : isListed (above ++ below) entry = true) :
    isListed (above ++ added ++ below) entry = true := by
  rw [isListed_iff_append] at listed ⊢
  obtain ⟨front, back, same, before, behind⟩ := listed
  rw [List.append_assoc] at same
  by_cases starts : above <+: front
  · -- the entry starts behind the boundary
    obtain ⟨inner, rfl⟩ := starts
    have rest : below = inner ++ (entry ++ back) := by simpa using same
    refine ⟨above ++ added ++ inner, back, by simp [rest], ?_, behind⟩
    rw [List.getLast?_append] at before ⊢
    cases last : inner.getLast? with
    | some c => simpa [last] using before
    | none =>
      have shut := last_not_joinsBefore (above ++ added) (completeAbove.append completeAdded)
      simpa using shut
  · -- the entry starts in front of the boundary, and so it ends there
    rcases List.append_eq_append_iff.1 same with ⟨inner, rfl, -⟩ | ⟨inner, rfl, rest⟩
    · exact absurd (List.prefix_append above inner) starts
    · have filled : inner ≠ [] := by
        rintro rfl
        exact starts (by simp)
      have notInside : ¬ inner <+: entry := by
        intro inside
        have breaks := completeAbove (inner.getLast filled) (by
          rw [List.getLast?_append, List.getLast?_eq_some_getLast filled]
          rfl)
        rw [clean _ (inside.subset (List.getLast_mem filled))] at breaks
        cases breaks
      rcases List.append_eq_append_iff.1 rest with ⟨tail, split, rfl⟩ | ⟨tail, split, -⟩
      · cases tail with
        | nil => exact absurd (by simp [split]) notInside
        | cons c tail => exact ⟨front, c :: tail ++ added ++ below, by simp [split], before, behind⟩
      · exact absurd (split ▸ List.prefix_append inner tail) notInside

end JuceWorkbench.Script
