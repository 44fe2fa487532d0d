import JuceWorkbench.Proofs.Script.CallSearch
import JuceWorkbench.Proofs.Script.Preservation

/-! Managed blocks and what comes after them. A block that is appended has a pair of markers of its
own, and an entry registered later goes between these, unless an end marker stood in the document
before: only the first end marker counts, and that one has no begin marker above it:
`inject_after_append_iff`. -/

namespace JuceWorkbench.Script

/-! The lines of a document with a block behind it. -/

section Appended

variable {document entry newline : List Char}

def separated (document newline : List Char) : List Char := document ++ separation document newline

def blockBodies (entry : List Char) : List (List Char) :=
  [managedComment, "target_sources($\x7bPROJECT_NAME\x7d".toList, indentStep ++ privateLabel,
    indentStep ++ indentStep ++ beginMarker, indentStep ++ indentStep ++ entry,
    indentStep ++ indentStep ++ endMarker, [')']]

theorem managedBlock_eq (entry newline : List Char) :
    managedBlock entry newline = (blockBodies entry).map (· ++ newline) := rfl

theorem isBare_endMarker : IsBare endMarker where
  trimmed := isTrimmed_endMarker
  clean := Text.forall_eq_false_of_any (by decide)

theorem blockBodies_clean (bare : IsBare entry) :
    ∀ body ∈ blockBodies entry, ∀ c ∈ body, Text.isLineBreak c = false := by
  have fixed : ∀ body ∈ (blockBodies []), body.any Text.isLineBreak = false := by decide
  intro body member
  by_cases own : body = indentStep ++ indentStep ++ entry
  · subst own
    exact List.forall_mem_append.2 ⟨List.forall_mem_append.2 ⟨indentStep_clean, indentStep_clean⟩, bare.clean⟩
  · refine Text.forall_eq_false_of_any (fixed body ?_)
    simp only [blockBodies, List.mem_cons, own, false_or] at member ⊢
    rcases member with same | same | same | same | same | same | same
    all_goals simp [same]

theorem blockBodies_filled (entry : List Char) : ∀ body ∈ blockBodies entry, body ≠ [] := by
  have filled : ∀ body ∈ blockBodies [], body ≠ [] := by decide
  intro body member
  simp only [blockBodies, List.mem_cons, List.not_mem_nil, or_false] at member filled
  rcases member with same | same | same | same | same | same | same
  case inr.inr.inr.inr.inl =>
    rw [same]
    exact List.append_ne_nil_of_left_ne_nil (by decide) entry
  all_goals exact filled body (by simp [same])

theorem lines_managedBlock (bare : IsBare entry) (known : newline ∈ Text.endings) :
    Text.lines (managedBlock entry newline).flatten = managedBlock entry newline := by
  rw [managedBlock_eq]
  exact Text.lines_ended_all known _ (blockBodies_clean bare) (blockBodies_filled entry)

theorem complete_separated (document : List Char) (known : newline ∈ Text.endings) :
    Text.Complete (separated document newline) := by
  unfold separated separation
  cases last : document.getLast? with
  | none =>
    obtain rfl := List.getLast?_eq_none_iff.1 last
    exact Text.complete_nil
  | some c =>
    dsimp only
    split
    · exact complete_ended document newline known
    · rw [← List.append_assoc]
      exact complete_ended _ newline known

theorem lines_appended (document : List Char) (bare : IsBare entry) (known : newline ∈ Text.endings) :
    Text.lines (separated document newline ++ (managedBlock entry newline).flatten) =
      Text.lines (separated document newline) ++ managedBlock entry newline := by
  rw [Text.lines_append _ _ (complete_separated document known), lines_managedBlock bare known]
  rintro - feeds
  -- a block starts with a number sign
  have start : (managedBlock entry newline).flatten.head? = some '#' := rfl
  rw [start] at feeds
  exact absurd feeds (by decide)

theorem contains_append_blank (line : List Char) {blank : List Char}
    (all : ∀ c ∈ blank, Text.isBlank c = true) {marker : List Char} (trimmed : Text.IsTrimmed marker) :
    Text.contains (line ++ blank) marker = Text.contains line marker := by
  rw [Bool.eq_iff_iff, Text.contains_iff, Text.contains_iff]
  simpa using Text.infix_padded_iff marker [] line blank trimmed (by simp) all

theorem separation_blank (document : List Char) (known : newline ∈ Text.endings) :
    ∀ c ∈ separation document newline, Text.isBlank c = true := by
  have blank := Text.blank_of_mem_endings known
  unfold separation
  split
  · simp
  · split
    · exact blank
    · exact List.forall_mem_append.2 ⟨blank, blank⟩

theorem not_contains_of_blank {line : List Char} (blank : ∀ c ∈ line, Text.isBlank c = true) :
    Text.contains line endMarker = false := by
  rw [Bool.eq_false_iff, Ne, Text.contains_iff]
  intro found
  have hash := blank '#' (found.subset (by decide))
  exact absurd hash (by decide)

theorem exists_separated (document : List Char) (known : newline ∈ Text.endings) (filled : document ≠ []) :
    ∃ init last taken more, Text.lines document = init ++ [last] ∧ (∀ c ∈ taken, Text.isBlank c = true) ∧
      Text.lines (separated document newline) = init ++ (last ++ taken) :: more ∧
      ∀ line ∈ more, Text.contains line endMarker = false := by
  obtain ⟨init, last, taken, rest, split, parts, joined⟩ :=
    Text.exists_lines_append document (separation document newline) filled
  have blank := separation_blank document known
  rw [parts] at blank
  refine ⟨init, last, taken, Text.lines rest, split, fun c member => blank c (List.mem_append_left _ member),
    by rw [separated, joined], ?_⟩
  intro line member
  refine not_contains_of_blank fun c inside => blank c (List.mem_append_right _ ?_)
  rw [← Text.flatten_lines rest]
  exact List.mem_flatten.2 ⟨line, member, inside⟩

theorem unmarked_separated (known : newline ∈ Text.endings)
    (plain : ∀ line ∈ Text.lines document, Text.contains line endMarker = false) :
    ∀ line ∈ Text.lines (separated document newline), Text.contains line endMarker = false := by
  by_cases filled : document = []
  · subst filled
    simp [separated, separation, Text.lines]
  · obtain ⟨init, last, taken, more, split, blank, joined, none⟩ := exists_separated document known filled
    intro line member
    rw [joined, List.mem_append, List.mem_cons] at member
    rw [split] at plain
    rcases member with old | rfl | new
    · exact plain line (List.mem_append_left _ old)
    · rw [contains_append_blank last blank isTrimmed_endMarker]
      exact plain last (by simp)
    · exact none line new

theorem HasMarkers.of_append {front back : List (List Char)} (usable : HasMarkers (front ++ back))
    (ends : ∃ line ∈ front, Text.contains line endMarker = true) : HasMarkers front := by
  obtain ⟨opening, closing, begins, closes, order⟩ := usable
  rw [findFrom?_zero, List.findIdx?_append] at begins closes
  obtain ⟨first, found⟩ := Option.isSome_iff_exists.1 (List.findIdx?_isSome ▸ List.any_eq_true.2 ends :
    (front.findIdx? (Text.contains · endMarker)).isSome = true)
  rw [found] at closes
  obtain rfl : first = closing := Option.some.inj closes
  have inside := (List.findIdx?_eq_some_iff_getElem.1 found).1
  refine ⟨opening, first, ?_, by rw [findFrom?_zero, found], order⟩
  rw [findFrom?_zero]
  cases above : front.findIdx? (Text.contains · beginMarker) with
  | some index =>
    rw [above] at begins
    exact begins
  | none =>
    rw [above, Option.none_or, Option.map_eq_some_iff] at begins
    obtain ⟨index, -, rfl⟩ := begins
    omega

theorem hasMarkers_last_iff (init : List (List Char)) (last : List Char) {taken : List Char}
    (blank : ∀ c ∈ taken, Text.isBlank c = true) :
    HasMarkers (init ++ [last ++ taken]) ↔ HasMarkers (init ++ [last]) := by
  have same {marker : List Char} (trimmed : Text.IsTrimmed marker) :
      findFrom? (Text.contains · marker) (init ++ [last ++ taken]) 0 =
        findFrom? (Text.contains · marker) (init ++ [last]) 0 := by
    rw [findFrom?_zero, findFrom?_zero, List.findIdx?_append, List.findIdx?_append]
    simp [List.findIdx?_cons, contains_append_blank last blank trimmed]
  simp only [HasMarkers, same isTrimmed_beginMarker, same isTrimmed_endMarker]

/-- An end marker that was there before hides the markers of a block. -/
theorem not_hasMarkers_appended (known : newline ∈ Text.endings) (block : List (List Char))
    (unusable : ¬HasMarkers (Text.lines document))
    (marked : ∃ line ∈ Text.lines document, Text.contains line endMarker = true) :
    ¬HasMarkers (Text.lines (separated document newline) ++ block) := by
  have filled : document ≠ [] := by
    rintro rfl
    obtain ⟨line, member, -⟩ := marked
    cases member
  obtain ⟨init, last, taken, more, split, blank, joined, -⟩ := exists_separated document known filled
  rw [split] at unusable marked
  have parts : init ++ (last ++ taken) :: more ++ block =
      (init ++ [last ++ taken]) ++ (more ++ block) := by simp
  rw [joined, parts]
  intro usable
  refine unusable ((hasMarkers_last_iff init last blank).1 (usable.of_append ?_))
  obtain ⟨line, member, hit⟩ := marked
  rcases List.mem_append.1 member with old | same
  · exact ⟨line, List.mem_append_left _ old, hit⟩
  · rw [List.mem_singleton.1 same] at hit
    exact ⟨last ++ taken, by simp, (contains_append_blank last blank isTrimmed_endMarker).trans hit⟩

theorem indentOf_blockLine (bare : IsBare entry) :
    indentOf (indentStep ++ indentStep ++ entry ++ newline) = indentStep ++ indentStep := by
  obtain ⟨c, rest, rfl, dark⟩ := bare.trimmed.head
  rw [indentOf_eq_margin _ c (by simp) dark, Text.margin, List.append_assoc, List.takeWhile_append_of_pos]
  · simp [dark]
  · exact List.forall_mem_append.2 ⟨indentStep_blank, indentStep_blank⟩

/-- The pair of markers in a block. An entry that holds the end marker takes its place. -/
theorem exists_pair_appended (bare : IsBare entry) (known : newline ∈ Text.endings)
    (plain : ∀ line ∈ Text.lines document, Text.contains line endMarker = false) :
    ∃ (pair : MarkerPair) (n : Nat), 4 ≤ n ∧ n ≤ 5 ∧
      pair.above = Text.lines (separated document newline) ++ (managedBlock entry newline).take n ∧
      pair.closing :: pair.below = (managedBlock entry newline).drop n ∧
      indentOf pair.closing = indentStep ++ indentStep := by
  have blank := Text.blank_of_mem_endings known
  have ends {body : List Char} : Text.contains (body ++ newline) endMarker = Text.contains body endMarker :=
    contains_append_blank body blank isTrimmed_endMarker
  have begins : Text.contains (indentStep ++ indentStep ++ beginMarker ++ newline) beginMarker = true :=
    (contains_append_blank _ blank isTrimmed_beginMarker).trans (by decide)
  have front : ∀ line ∈ (managedBlock entry newline).take 4, Text.contains line endMarker = false := by
    have fixed : ∀ body ∈ (blockBodies []).take 4, Text.contains body endMarker = false := by decide
    intro line member
    rw [managedBlock_eq, ← List.map_take] at member
    obtain ⟨body, inside, rfl⟩ := List.mem_map.1 member
    exact ends.trans (fixed body inside)
  have old := unmarked_separated known plain
  cases marked : Text.contains (indentStep ++ indentStep ++ entry ++ newline) endMarker with
  | true =>
    refine ⟨⟨Text.lines (separated document newline) ++ (managedBlock entry newline).take 4,
      indentStep ++ indentStep ++ entry ++ newline, (managedBlock entry newline).drop 5,
      ⟨_, ?_, begins⟩, List.forall_mem_append.2 ⟨old, front⟩, marked⟩, 4, Nat.le_refl 4, by decide, rfl, rfl,
      indentOf_blockLine bare⟩
    simp [managedBlock]
  | false =>
    have front' : ∀ line ∈ (managedBlock entry newline).take 5, Text.contains line endMarker = false := by
      rw [List.take_add_one]
      refine List.forall_mem_append.2 ⟨front, ?_⟩
      simpa [managedBlock] using marked
    refine ⟨⟨Text.lines (separated document newline) ++ (managedBlock entry newline).take 5,
      indentStep ++ indentStep ++ endMarker ++ newline, (managedBlock entry newline).drop 6,
      ⟨_, ?_, begins⟩, List.forall_mem_append.2 ⟨old, front'⟩, ends.trans (by decide)⟩, 5, by decide, Nat.le_refl 5,
      rfl, rfl, indentOf_blockLine isBare_endMarker⟩
    simp [managedBlock]

end Appended

/-! An entry after a block was appended. -/

/-- The entry `next` stands on a line of the block that lists `first`, behind its begin marker and not
behind its end marker, and no warning is given. -/
def GoesIntoBlock (document first next newline : List Char) (injection : Injection) : Prop :=
  injection.strategy = .markers ∧ injection.warning? = none ∧ ∃ n, 4 ≤ n ∧ n ≤ 5 ∧
    injection.text = document ++ separation document newline ++
      ((managedBlock first newline).take n ++ [indentStep ++ indentStep ++ next ++ newline] ++
        (managedBlock first newline).drop n).flatten

theorem firstEnding_append_firstEnding (document rest : List Char) :
    Text.firstEnding (document ++ (Text.firstEnding document ++ rest)) = Text.firstEnding document := by
  fun_induction Text.firstEnding document with
  | case1 => simp [Text.firstEnding]
  | case2 more => rfl
  | case3 c more notPair ending =>
    rcases ending with rfl | rfl
    · cases more with
      | nil => simp [Text.firstEnding]
      | cons d more =>
        have apart : ∀ after, '\r' = '\r' → d :: (more ++ (['\r'] ++ rest)) ≠ '\n' :: after := by
          rintro _ - ⟨⟩
          exact notPair more rfl rfl
        rw [List.cons_append, List.cons_append, Text.firstEnding.eq_3 _ _ apart]
        simp
    · simp [Text.firstEnding]
  | case4 c more notPair plain ih =>
    have apart : ∀ after, c = '\r' → more ++ (Text.firstEnding more ++ rest) ≠ '\n' :: after :=
      fun _ returns => absurd (Or.inl returns) plain
    rw [List.cons_append, Text.firstEnding.eq_3 _ _ apart, if_neg plain, ih]

theorem firstEnding_appended (document entry : List Char) :
    Text.firstEnding (separated document (Text.firstEnding document) ++
        (managedBlock entry (Text.firstEnding document)).flatten) = Text.firstEnding document := by
  unfold separated separation
  cases last : document.getLast? with
  | none =>
    obtain rfl := List.getLast?_eq_none_iff.1 last
    rfl
  | some c =>
    dsimp only
    split <;> simp only [List.append_assoc, firstEnding_append_firstEnding]

theorem Placed.appended {document entry : List Char} {injection : Injection}
    (placed : Placed document entry injection) (appended : injection.outcome = .appended) :
    ¬HasMarkers (Text.lines document) ∧
      injection.text = separated document (Text.firstEnding document) ++
        (managedBlock entry (Text.firstEnding document)).flatten := by
  cases placed with
  | append _ unusable _ =>
    rw [Text.newlineOf_lines]
    exact ⟨unusable, rfl⟩
  | _ => cases appended

/-- After a block was appended for one entry, the next entry goes into this block exactly if no line
of the document had an end marker. -/
theorem inject_after_append_iff {document first next : List Char} {injection : Injection}
    (done : inject document first = some injection) (appended : injection.outcome = .appended)
    (valid : IsEntry next) (unlisted : isListed injection.text (Text.trim next) = false) :
    ∃ again, inject injection.text next = some again ∧
      (GoesIntoBlock document (Text.trim first) (Text.trim next) (Text.firstEnding document) again ↔
        ∀ line ∈ Text.lines document, Text.contains line endMarker = false) := by
  have entry : IsEntry first := (inject_isSome_iff document first).1 (by rw [done]; rfl)
  rw [inject_of_isEntry document entry] at done
  obtain rfl := Option.some.inj done
  obtain ⟨unusable, text⟩ := (placed_place document (Text.trim first)).appended appended
  have known : Text.firstEnding document ∈ Text.endings :=
    Text.newlineOf_lines document ▸ Text.newlineOf_mem_endings _
  have lines := lines_appended document entry.isBare known
  rw [← text] at lines
  refine ⟨_, inject_of_isEntry _ valid, ?_⟩
  constructor
  · rintro ⟨strategy, -⟩ line member
    rw [Bool.eq_false_iff]
    intro marked
    have hidden := not_hasMarkers_appended known
      (managedBlock (Text.trim first) (Text.firstEnding document)) unusable ⟨line, member, marked⟩
    rw [← lines] at hidden
    rw [strategy_of_unusable hidden unlisted] at strategy
    split at strategy <;> cases strategy
  · intro plain
    obtain ⟨pair, n, atLeast, atMost, above, below, margin⟩ := exists_pair_appended entry.isBare known plain
    have whole : pair.lines = Text.lines (place document (Text.trim first)).text := by
      rw [lines, MarkerPair.lines, above, below, List.append_assoc, List.take_append_drop]
    rw [place_of_pair unlisted pair whole]
    refine ⟨rfl, rfl, n, atLeast, atMost, ?_⟩
    dsimp only
    rw [above, below, margin, Text.newlineOf_lines, text, firstEnding_appended]
    simp only [separated, List.flatten_append, Text.flatten_lines, List.append_assoc]

theorem inject_after_append_iff_begin_marker :
    (∃ injection, inject "# JUCEBUILDER_SOURCES_BEGIN".toList "a.cpp ".toList = some injection ∧
        injection.outcome = .appended ∧ IsEntry "b.cpp".toList ∧
        isListed injection.text (Text.trim "b.cpp".toList) = false ∧
        ∃ again, inject injection.text "b.cpp".toList = some again ∧
          GoesIntoBlock "# JUCEBUILDER_SOURCES_BEGIN".toList "a.cpp".toList "b.cpp".toList ['\n'] again) := by
  have done : ∃ injection, inject "# JUCEBUILDER_SOURCES_BEGIN".toList "a.cpp ".toList = some injection ∧
      injection.outcome = .appended ∧ isListed injection.text (Text.trim "b.cpp".toList) = false := by
    decide
  have valid : IsEntry "b.cpp".toList := by decide
  obtain ⟨injection, found, appended, unlisted⟩ := done
  obtain ⟨again, next, inside⟩ := inject_after_append_iff found appended valid unlisted
  exact ⟨injection, found, appended, valid, unlisted, again, next, inside.2 (by decide)⟩

def strayEndMarker : List Char := "# JUCEBUILDER_SOURCES_END\n".toList

/-- A pair behind an end marker that has none is not used: the second entry is put behind the end
marker of the block, with a warning. -/
theorem not_goesIntoBlock_stray :
    ∃ injection, inject strayEndMarker "a.cpp".toList = some injection ∧ injection.outcome = .appended ∧
      isListed injection.text "b.cpp".toList = false ∧
      ∃ again, inject injection.text "b.cpp".toList = some again ∧
        again.strategy = .targetSources ∧
        ¬GoesIntoBlock strayEndMarker "a.cpp".toList "b.cpp".toList ['\n'] again := by
  have done : ∃ injection, inject strayEndMarker "a.cpp".toList = some injection ∧
      injection.outcome = .appended ∧ isListed injection.text "b.cpp".toList = false ∧
      ∃ again, inject injection.text "b.cpp".toList = some again ∧ again.strategy = .targetSources := by
    decide
  obtain ⟨injection, found, appended, unlisted, again, next, strategy⟩ := done
  refine ⟨injection, found, appended, unlisted, again, next, strategy, ?_⟩
  rintro ⟨markers, -⟩
  rw [strategy] at markers
  cases markers

end JuceWorkbench.Script
