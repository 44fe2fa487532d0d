import JuceWorkbench.Proofs.Script.Registration

/-! Which calls the search for a block gets to see. A call that closes on its own line is passed
over, and one that closes on a later line is taken; but a call that never closes ends the search, so
what stands below it is not found, and a managed block is appended: `fallback_iff`. -/

namespace JuceWorkbench.Script

def ClosesLater (lines : List (List Char)) (opening : Nat) : Prop :=
  (∃ line, lines[opening]? = some line ∧ opensCall line = true) ∧
    ∃ closing, blockEnd? lines opening = some closing ∧ opening < closing

def NeverCloses (lines : List (List Char)) (opening : Nat) : Prop :=
  (∃ line, lines[opening]? = some line ∧ opensCall line = true) ∧ blockEnd? lines opening = none

theorem IsFirstCall.closesLater {lines : List (List Char)} {opening closing : Nat}
    (call : IsFirstCall lines opening closing) : ClosesLater lines opening :=
  ⟨call.opens, closing, call.ends, call.later⟩

theorem IsFirstCall.not_neverCloses {lines : List (List Char)} {opening closing earlier : Nat}
    (call : IsFirstCall lines opening closing) (before : earlier < opening) :
    ¬NeverCloses lines earlier := by
  rintro ⟨⟨line, there, opens⟩, unclosed⟩
  rw [call.skips earlier before line there opens] at unclosed
  cases unclosed

theorem exists_isFirstCall {lines : List (List Char)} {opening : Nat} (later : ClosesLater lines opening)
    (closed : ∀ earlier < opening, ¬NeverCloses lines earlier) :
    ∃ first closing, IsFirstCall lines first closing := by
  induction opening using Nat.strongRecOn with
  | _ opening ih =>
    by_cases sooner : ∃ earlier < opening, ClosesLater lines earlier
    · obtain ⟨earlier, before, again⟩ := sooner
      exact ih earlier before again fun other above =>
        closed other (Nat.lt_trans above before)
    · obtain ⟨opens, closing, ends, after⟩ := later
      refine ⟨opening, closing, opens, ends, after, ?_⟩
      intro index above line there calls
      cases found : blockEnd? lines index with
      | none => exact absurd ⟨⟨line, there, calls⟩, found⟩ (closed index above)
      | some last =>
        -- it closes nowhere above its own line, and on no later one
        have notAbove : index ≤ last := by
          obtain ⟨count, -, rfl⟩ := Option.map_eq_some_iff.1 found
          exact Nat.le_add_right index count
        have notBelow : ¬index < last := fun below =>
          sooner ⟨index, above, ⟨line, there, calls⟩, last, found, below⟩
        rw [Nat.le_antisymm notAbove (Nat.le_of_not_lt notBelow)]

theorem callBlock?_eq_none_iff (lines : List (List Char)) :
    callBlock? lines = none ↔
      ∀ opening, ClosesLater lines opening → ∃ earlier < opening, NeverCloses lines earlier := by
  constructor
  · intro none opening later
    refine Classical.byContradiction fun closed => ?_
    simp only [not_exists, not_and] at closed
    obtain ⟨first, closing, call⟩ := exists_isFirstCall later closed
    obtain ⟨block, rfl, -⟩ := exists_callBlock_of_isFirstCall call
    rw [block.callBlock?_lines] at none
    cases none
  · intro hidden
    cases found : callBlock? lines with
    | none => rfl
    | some bounds =>
      obtain ⟨block, rfl, -⟩ := exists_callBlock lines bounds.1 bounds.2 found
      obtain ⟨earlier, before, unclosed⟩ := hidden _ block.isFirstCall.closesLater
      exact absurd unclosed (block.isFirstCall.not_neverCloses before)

/-- Every call that closes on a later line, of which there are some, stands below one that never
closes. -/
def IsShadowed (lines : List (List Char)) : Prop :=
  (∃ opening, ClosesLater lines opening) ∧
    ∀ opening, ClosesLater lines opening → ∃ earlier < opening, NeverCloses lines earlier

/-- A block is appended when no call closes on a later line, and else the entry goes into a call. -/
def AppendsAsLast (document : List Char) (injection : Injection) : Prop :=
  (injection.strategy = .append ↔ ∀ opening, ¬ClosesLater (Text.lines document) opening) ∧
    (injection.strategy = .targetSources ↔ ∃ opening, ClosesLater (Text.lines document) opening)

section Strategy

variable {document entry : List Char}

theorem strategy_of_unusable (unusable : ¬HasMarkers (Text.lines document))
    (unlisted : isListed document entry = false) :
    (place document entry).strategy =
      if callBlock? (Text.lines document) = none then .append else .targetSources := by
  cases call : callBlock? (Text.lines document) with
  | none =>
    rw [place_of_no_call unlisted unusable call]
    rfl
  | some bounds =>
    obtain ⟨block, whole, -⟩ := exists_callBlock _ _ _ call
    by_cases labelled : ∃ line ∈ block.inner, startsPrivate line = true
    · obtain ⟨list, inner⟩ := exists_privateList _ labelled
      rw [place_of_list unlisted unusable block whole list inner]
      rfl
    · have unlabelled : ∀ line ∈ block.inner, startsPrivate line = false := fun line member =>
        Bool.eq_false_iff.2 fun labels => labelled ⟨line, member, labels⟩
      rw [place_of_unlabelled unlisted unusable block whole unlabelled]
      rfl

end Strategy

/-- Without a usable pair of markers, a block is appended exactly if each call that closes on a later
line stands below a call that never closes. So the block is the last resort unless there is such a
call and all of them stand below. -/
theorem fallback_iff (document entry : List Char) (unusable : ¬HasMarkers (Text.lines document))
    (valid : IsEntry entry) (unlisted : isListed document (Text.trim entry) = false) :
    ∃ injection, inject document entry = some injection ∧
      (injection.strategy = .append ↔ ∀ opening, ClosesLater (Text.lines document) opening →
        ∃ earlier < opening, NeverCloses (Text.lines document) earlier) ∧
      (injection.strategy = .append ∨ injection.strategy = .targetSources) ∧
      (AppendsAsLast document injection ↔ ¬IsShadowed (Text.lines document)) := by
  refine ⟨_, inject_of_isEntry document valid, ?_⟩
  have strategy := strategy_of_unusable unusable unlisted
  have search := callBlock?_eq_none_iff (Text.lines document)
  unfold AppendsAsLast IsShadowed
  by_cases none : callBlock? (Text.lines document) = none
  · have hidden := search.1 none
    rw [strategy, if_pos none]
    refine ⟨iff_of_true rfl hidden, Or.inl rfl, ?_⟩
    constructor
    · rintro ⟨last, -⟩ ⟨⟨opening, later⟩, -⟩
      exact last.1 rfl opening later
    · intro seen
      have closed : ∀ opening, ¬ClosesLater (Text.lines document) opening :=
        fun opening later => seen ⟨⟨opening, later⟩, hidden⟩
      exact ⟨iff_of_true rfl closed, iff_of_false (by rintro ⟨⟩) (not_exists.2 closed)⟩
  · have found := mt search.2 none
    have calls : ∃ opening, ClosesLater (Text.lines document) opening :=
      Classical.byContradiction fun closed =>
        found fun opening later => absurd ⟨opening, later⟩ closed
    rw [strategy, if_neg none]
    refine ⟨iff_of_false (by rintro ⟨⟩) found, Or.inr rfl, iff_of_true ⟨?_, iff_of_true rfl calls⟩ ?_⟩
    · exact iff_of_false (by rintro ⟨⟩) fun closed => not_exists.2 closed calls
    · exact fun shadowed => found shadowed.2

theorem not_hasMarkers_of_none {lines : List (List Char)}
    (none : findFrom? (Text.contains · beginMarker) lines 0 = none) : ¬HasMarkers lines := by
  rintro ⟨opening, closing, begins, -⟩
  rw [none] at begins
  cases begins

/-- A call on one line, one over several lines, and one that never closes below them. -/
def threeCalls : List Char := "target_sources(a b)\ntarget_sources (c\n)\ntarget_sources(d\n".toList

theorem fallback_iff_three_calls :
    ¬HasMarkers (Text.lines threeCalls) ∧ IsEntry "e.cpp ".toList ∧
      isListed threeCalls (Text.trim "e.cpp ".toList) = false ∧
      ∃ injection, inject threeCalls "e.cpp ".toList = some injection ∧
        AppendsAsLast threeCalls injection := by
  have unusable : ¬HasMarkers (Text.lines threeCalls) := not_hasMarkers_of_none (by decide)
  have valid : IsEntry "e.cpp ".toList := by decide
  have unlisted : isListed threeCalls (Text.trim "e.cpp ".toList) = false := by decide
  have later : ClosesLater (Text.lines threeCalls) 1 :=
    ⟨⟨"target_sources (c\n".toList, by decide, by decide⟩, 2, by decide, by decide⟩
  obtain ⟨injection, done, -, -, last⟩ := fallback_iff _ _ unusable valid unlisted
  refine ⟨unusable, valid, unlisted, injection, done, last.2 ?_⟩
  rintro ⟨-, shadowed⟩
  obtain ⟨earlier, above, unclosed⟩ := shadowed 1 later
  obtain rfl : earlier = 0 := Nat.lt_one_iff.1 above
  exact absurd unclosed.2 (by decide)

def unclosedCall : List Char := "target_sources(a\n  a.cpp\ntarget_sources(b\n  b.cpp\n)\n".toList

/-- A call over several lines is not found below one that never closes. -/
theorem not_appendsAsLast_unclosed :
    ¬HasMarkers (Text.lines unclosedCall) ∧ IsEntry "c.cpp".toList ∧
      isListed unclosedCall (Text.trim "c.cpp".toList) = false ∧
      ∃ injection ∈ inject unclosedCall "c.cpp".toList,
        injection.strategy = .append ∧ ¬AppendsAsLast unclosedCall injection := by
  have later : ClosesLater (Text.lines unclosedCall) 2 :=
    ⟨⟨"target_sources(b\n".toList, by decide, by decide⟩, 4, by decide, by decide⟩
  have appended : ∃ injection ∈ inject unclosedCall "c.cpp".toList, injection.strategy = .append := by
    decide
  obtain ⟨injection, done, append⟩ := appended
  exact ⟨not_hasMarkers_of_none (by decide), by decide, by decide, injection, done, append,
    fun last => last.1.1 append 2 later⟩

end JuceWorkbench.Script
