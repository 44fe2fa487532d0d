import JuceWorkbench.Proofs.Script.CallInsertion
import JuceWorkbench.Proofs.Script.Reading

/-! What a registration in a call does to its meaning. The registration works on lines, the
meaning on words, and the two agree only where the target and the private label stand on the
right lines: `addsPrivate_iff`. -/

namespace JuceWorkbench.Script

/-- What the lines of a call must be like so that an entry put in front of line `index` is a
private source: the call is still open there, its target is behind, and the private label is in
force there, or else a label is made for the entry and the next source has one of its own. -/
def TakesPrivate (lines : List (List Char)) (opening closing index : Nat) : Prop :=
  ')' ∉ behindOpening ((lines.take index).drop opening).flatten ∧
    ∃ target more,
      Text.words (behindOpening ((lines.take index).drop opening).flatten) = target :: more ∧
      (sectionAfter none more = some privateLabel ∨
        findFrom? startsPrivate (lines.take closing) (opening + 1) = none ∧
          ∀ word, (Text.words (upToClosing (lines.drop index).flatten)).head? = some word →
            word ∈ sectionLabels)

/-- Complete lines that come in make no difference to a call that is closed in front of them; to
one that is open they add their words. -/
theorem addsPrivate_cut (above front back added kept : List (List Char)) (entry : List Char)
    (opens : '(' ∈ front.flatten)
    (apart : ∀ c, front.flatten.getLast? = some c → Text.isBlank c = true)
    (same : Text.words (upToClosing kept.flatten) = Text.words (upToClosing back.flatten))
    (still : ')' ∉ added.flatten)
    (after : ∀ c, added.flatten.getLast? = some c → Text.isBlank c = true) :
    AddsPrivate (readCall (above ++ (front ++ back)) above.length)
        (readCall (above ++ (front ++ (added ++ kept))) above.length) entry ↔
      ')' ∉ behindOpening front.flatten ∧
        AddsPrivate (readWords (Text.words (behindOpening front.flatten) ++
            Text.words (upToClosing back.flatten)))
          (readWords (Text.words (behindOpening front.flatten) ++
            (Text.words added.flatten ++ Text.words (upToClosing back.flatten)))) entry := by
  by_cases closed : ')' ∈ behindOpening front.flatten
  · rw [readCall_closed above front back opens closed,
      readCall_closed above front (added ++ kept) opens closed]
    constructor
    · intro adds
      exact absurd adds AddsPrivate.irrefl
    · rintro ⟨unclosed, -⟩
      exact absurd closed unclosed
  · rw [readCall_open above front back opens apart closed,
      readCall_open above front (added ++ kept) opens apart closed, List.flatten_append,
      upToClosing_append _ _ still, Text.words_append _ _ after, same]
    exact ⟨fun adds => ⟨closed, adds⟩, fun adds => adds.2⟩

theorem takesPrivate_cut (above front back : List (List Char)) (closing : Nat) :
    TakesPrivate (above ++ (front ++ back)) above.length closing (above ++ front).length ↔
      ')' ∉ behindOpening front.flatten ∧
        ∃ target more, Text.words (behindOpening front.flatten) = target :: more ∧
          (sectionAfter none more = some privateLabel ∨
            findFrom? startsPrivate ((above ++ (front ++ back)).take closing) (above.length + 1) =
                none ∧
              ∀ word, (Text.words (upToClosing back.flatten)).head? = some word →
                word ∈ sectionLabels) := by
  have upper : ((above ++ (front ++ back)).take (above ++ front).length).drop above.length =
      front := by
    rw [← List.append_assoc, List.take_left, List.drop_left]
  have lower : (above ++ (front ++ back)).drop (above ++ front).length = back := by
    rw [← List.append_assoc, List.drop_left]
  rw [TakesPrivate, upper, lower]

theorem words_of_standsOn {entry line : List Char} (stands : StandsOn entry line)
    (trimmed : Text.IsTrimmed entry) (dark : ∀ c ∈ entry, Text.isBlank c = false) :
    Text.words line = [entry] := by
  obtain ⟨margin, ending, rfl, blank, known⟩ := stands
  exact Text.words_padded margin entry ending trimmed.ne_nil dark (fun c member => (blank c member).1)
    (Text.blank_of_mem_endings known)

theorem last_blank_of_standsOn {entry line : List Char} (stands : StandsOn entry line) :
    ∀ c, line.getLast? = some c → Text.isBlank c = true := by
  obtain ⟨margin, ending, rfl, blank, known⟩ := stands
  have blanks := Text.blank_of_mem_endings known
  obtain ⟨front, d, rfl, -⟩ := Text.exists_break_of_mem_endings known
  intro c last
  rw [← List.append_assoc, List.getLast?_concat] at last
  exact Option.some.inj last ▸ blanks d (List.mem_append_right front List.mem_cons_self)

theorem not_mem_of_standsOn {entry line : List Char} (stands : StandsOn entry line) (c : Char)
    (dark : Text.isBlank c = false) (absent : c ∉ entry) : c ∉ line := by
  rw [← List.count_eq_zero, stands.count c dark, List.count_eq_zero]
  exact absent

theorem paren_mem_head (block : CallBlock) : '(' ∈ block.head := by
  have opens := block.opens
  simp only [opensCall, Bool.and_eq_true] at opens
  have inner := exists_dark_of_starts ['('] _ '(' (List.mem_singleton_self _) opens.2
  have outer := (List.drop_suffix _ _).subset inner
  exact (List.dropWhile_suffix Text.isBlank).subset outer

section Cut

variable {document entry : List Char} {above front back : List (List Char)}
  (cut : Text.lines document = above ++ (front ++ back))

include cut

theorem last_blank_of_cut (more : back ≠ []) :
    ∀ c, front.flatten.getLast? = some c → Text.isBlank c = true := by
  intro c last
  rw [← List.append_assoc] at cut
  apply Text.isBlank_of_isLineBreak
  apply complete_of_cut cut more
  rw [List.flatten_append, List.getLast?_append, last]
  rfl

theorem not_mem_words_of_cut (more : back ≠ []) (opens : '(' ∈ front.flatten)
    (unlisted : isListed document entry = false) (still : ')' ∉ behindOpening front.flatten) :
    entry ∉ Text.words (behindOpening front.flatten) ++ Text.words (upToClosing back.flatten) := by
  intro member
  have listed := isListed_of_mem_words above (front ++ back) entry
    (by rw [List.flatten_append]; exact List.mem_append_left _ opens)
  rw [← cut, Text.flatten_lines, List.flatten_append, behindOpening_append _ _ opens,
    upToClosing_append _ _ still] at listed
  have apart : ∀ c, (behindOpening front.flatten).getLast? = some c → Text.isBlank c = true := by
    intro c last
    obtain ⟨start, split⟩ := exists_behindOpening front.flatten opens
    apply last_blank_of_cut cut more c
    rw [split, List.getLast?_append, List.getLast?_cons, last]
    rfl
  rw [Text.words_append _ _ apart, unlisted] at listed
  exact absurd (listed member) (by decide)

theorem addsPrivate_line_iff {line : List Char} {closing : Nat} (more : back ≠ [])
    (opens : '(' ∈ front.flatten) (unlisted : isListed document entry = false)
    (stands : StandsOn entry line) (trimmed : Text.IsTrimmed entry)
    (token : ∀ c ∈ entry, Text.isBlank c = false) (still : ')' ∉ entry)
    (source : entry ∉ sectionLabels)
    (labelled : findFrom? startsPrivate ((Text.lines document).take closing) (above.length + 1) ≠
      none) :
    AddsPrivate (readCall (Text.lines document) above.length)
        (readCall (above ++ (front ++ ([line] ++ back))) above.length) entry ↔
      TakesPrivate (Text.lines document) above.length closing (above ++ front).length := by
  have words : Text.words [line].flatten = [entry] := by
    simpa using words_of_standsOn stands trimmed token
  have closes : ')' ∉ [line].flatten := by
    simpa using not_mem_of_standsOn stands ')' (by decide) still
  have ends : ∀ c, [line].flatten.getLast? = some c → Text.isBlank c = true := by
    simpa using last_blank_of_standsOn stands
  have blank := last_blank_of_cut cut more
  have fresh := not_mem_words_of_cut cut more opens unlisted
  rw [cut] at labelled ⊢
  rw [addsPrivate_cut above front back [line] back entry opens blank rfl closes ends,
    takesPrivate_cut]
  apply and_congr_right
  intro unclosed
  rw [words, List.singleton_append, addsPrivate_listed_iff _ _ entry (fresh unclosed) source]
  simp only [labelled, false_and, or_false]

theorem addsPrivate_two_lines_iff {kept : List (List Char)} {label line : List Char} {closing : Nat}
    (more : back ≠ []) (opens : '(' ∈ front.flatten) (unlisted : isListed document entry = false)
    (labels : StandsOn privateLabel label) (stands : StandsOn entry line)
    (trimmed : Text.IsTrimmed entry) (token : ∀ c ∈ entry, Text.isBlank c = false)
    (still : ')' ∉ entry) (source : entry ∉ sectionLabels)
    (same : Text.words (upToClosing kept.flatten) = Text.words (upToClosing back.flatten))
    (unlabelled : findFrom? startsPrivate ((Text.lines document).take closing) (above.length + 1) =
      none) :
    AddsPrivate (readCall (Text.lines document) above.length)
        (readCall (above ++ (front ++ ([label, line] ++ kept))) above.length) entry ↔
      TakesPrivate (Text.lines document) above.length closing (above ++ front).length := by
  have both : [label, line].flatten = label ++ line := by simp
  have words : Text.words [label, line].flatten = [privateLabel, entry] := by
    rw [both, Text.words_append _ _ (last_blank_of_standsOn labels),
      words_of_standsOn labels isBare_privateLabel.trimmed (Text.forall_eq_false_of_any (by decide)),
      words_of_standsOn stands trimmed token]
    rfl
  have closes : ')' ∉ [label, line].flatten := by
    rw [both, List.mem_append]
    rintro (member | member)
    · exact not_mem_of_standsOn labels ')' (by decide) (by decide) member
    · exact not_mem_of_standsOn stands ')' (by decide) still member
  have ends : ∀ c, [label, line].flatten.getLast? = some c → Text.isBlank c = true := by
    intro c last
    obtain ⟨d, there⟩ : ∃ d, line.getLast? = some d := by
      obtain ⟨margin, ending, rfl, -, known⟩ := stands
      obtain ⟨init, d, rfl, -⟩ := Text.exists_break_of_mem_endings known
      exact ⟨d, by rw [← List.append_assoc, List.getLast?_concat]⟩
    rw [both, List.getLast?_append, there] at last
    exact last_blank_of_standsOn stands c (there.trans last)
  have blank := last_blank_of_cut cut more
  have fresh := not_mem_words_of_cut cut more opens unlisted
  rw [cut] at unlabelled ⊢
  rw [addsPrivate_cut above front back [label, line] kept entry opens blank same closes ends,
    takesPrivate_cut]
  apply and_congr_right
  intro unclosed
  rw [words]
  simp only [List.cons_append, List.nil_append]
  rw [addsPrivate_labelled_iff _ _ entry (fresh unclosed) source]
  simp only [unlabelled, true_and]

end Cut

section Place

variable {document entry : List Char} {block : CallBlock}
  (unlisted : isListed document entry = false) (unusable : ¬ HasMarkers (Text.lines document))
  (whole : block.lines = Text.lines document) (bare : IsBare entry)
  (token : ∀ c ∈ entry, Text.isBlank c = false) (still : ')' ∉ entry)
  (source : entry ∉ sectionLabels)

include unlisted unusable whole bare token still source

theorem addsPrivate_place_of_list (list : PrivateList) (inner : list.lines = block.inner) :
    AddsPrivate (readCall (Text.lines document) block.opening)
        (readCall (Text.lines (place document entry).text) block.opening) entry ↔
      TakesPrivate (Text.lines document) block.opening block.closing
        (block.toLabel list ++ list.listed).length := by
  obtain ⟨line, stands, -, after⟩ :=
    CallBlock.lines_place_of_list unlisted unusable whole list inner bare
  have cut : Text.lines document = block.above ++
      ((block.head :: (list.between ++ list.label :: list.listed)) ++
        (list.behind ++ block.foot :: block.below)) := by
    rw [← whole, block.lines_eq_toLabel list inner]
    simp [CallBlock.toLabel]
  have front : block.toLabel list ++ list.listed =
      block.above ++ (block.head :: (list.between ++ list.label :: list.listed)) := by
    simp [CallBlock.toLabel]
  have found := block.findFrom?_private
  rw [whole, ← inner, list.findIdx?_private] at found
  have labelled : findFrom? startsPrivate ((Text.lines document).take block.closing)
      (block.above.length + 1) ≠ none := by
    intro none
    rw [CallBlock.opening, none] at found
    cases found
  rw [after, front, List.append_assoc, List.append_assoc]
  exact addsPrivate_line_iff cut (by simp) (List.mem_append_left _ (paren_mem_head block)) unlisted
    stands bare.trimmed token still source labelled

theorem addsPrivate_place_of_unlabelled
    (unlabelled : ∀ line ∈ block.inner, startsPrivate line = false) :
    AddsPrivate (readCall (Text.lines document) block.opening)
        (readCall (Text.lines (place document entry).text) block.opening) entry ↔
      TakesPrivate (Text.lines document) block.opening block.closing
        (block.above ++ [block.head]).length := by
  obtain ⟨label, line, old, kept, labels, stands, inner, feeds, -, after⟩ :=
    CallBlock.lines_place_of_unlabelled unlisted unusable whole unlabelled bare
  have cut : Text.lines document =
      block.above ++ ([block.head] ++ (block.inner ++ block.foot :: block.below)) := by
    rw [← whole]
    rfl
  have later : block.above ++ block.head :: label :: line :: (kept ++ block.foot :: block.below) =
      block.above ++ ([block.head] ++ ([label, line] ++ (kept ++ block.foot :: block.below))) := rfl
  have same : Text.words (upToClosing (kept ++ block.foot :: block.below).flatten) =
      Text.words (upToClosing (block.inner ++ block.foot :: block.below).flatten) := by
    rcases feeds with rfl | rfl
    · rw [inner, List.nil_append]
    · rw [inner]
      exact (Text.words_break [] _ '\n' (by decide)).symm
  have found := block.findFrom?_private
  rw [whole, List.findIdx?_eq_none_iff.2 unlabelled] at found
  rw [after, later]
  exact addsPrivate_two_lines_iff cut (by simp) (List.mem_append_left _ (paren_mem_head block))
    unlisted labels stands bare.trimmed token still source same found

end Place

/-- A registration in a call reads as one private source more exactly when the lines of the call
are as `TakesPrivate` says. -/
theorem addsPrivate_iff (document entry : List Char) (injection : Injection)
    (done : inject document entry = some injection) (strategy : injection.strategy = .targetSources)
    (token : ∀ c ∈ Text.trim entry, Text.isBlank c = false) (still : ')' ∉ Text.trim entry)
    (source : Text.trim entry ∉ sectionLabels) :
    ∃ opening closing insertion,
      callBlock? (Text.lines document) = some (opening, closing) ∧
      intoCall? (Text.lines document) (Text.trim entry) (Text.newlineOf (Text.lines document)) =
        some insertion ∧
      (AddsPrivate (readCall (Text.lines document) opening)
          (readCall (Text.lines injection.text) opening) (Text.trim entry) ↔
        TakesPrivate (Text.lines document) opening closing insertion.index) := by
  have valid : IsEntry entry := by
    rw [← inject_isSome_iff document entry, done]
    rfl
  have bare := valid.isBare
  rw [inject_of_isEntry document valid] at done
  obtain rfl := Option.some.inj done
  obtain ⟨unlisted, unusable, block, whole⟩ := CallBlock.exists_of_targetSources strategy
  have call := block.callBlock?_lines
  by_cases labelled : ∃ line ∈ block.inner, startsPrivate line = true
  · obtain ⟨list, inner⟩ := exists_privateList _ labelled
    have into := block.intoCall?_of_list (Text.trim entry) (Text.newlineOf (Text.lines document))
      list inner
    rw [whole] at call into
    exact ⟨_, _, _, call, into, addsPrivate_place_of_list unlisted unusable whole bare token still
      source list inner⟩
  · have unlabelled : ∀ line ∈ block.inner, startsPrivate line = false := by
      intro line member
      exact Bool.eq_false_iff.2 fun labels => labelled ⟨line, member, labels⟩
    have into := block.intoCall?_of_unlabelled (Text.trim entry)
      (Text.newlineOf (Text.lines document)) unlabelled
    have length : block.above.length + 1 = (block.above ++ [block.head]).length := by simp
    rw [whole] at call into
    rw [length] at into
    exact ⟨_, _, _, call, into, addsPrivate_place_of_unlabelled unlisted unusable whole bare token
      still source unlabelled⟩

theorem addsPrivate_iff_private_list :
    ∃ injection,
      inject "target_sources(app\n PRIVATE\n  a.cpp\n)\n".toList "b.cpp".toList = some injection ∧
      injection.strategy = .targetSources ∧
      AddsPrivate (readCall (Text.lines "target_sources(app\n PRIVATE\n  a.cpp\n)\n".toList) 0)
        (readCall (Text.lines injection.text) 0) "b.cpp".toList := by
  have done : inject "target_sources(app\n PRIVATE\n  a.cpp\n)\n".toList "b.cpp".toList =
      some ⟨"target_sources(app\n PRIVATE\n  a.cpp\n  b.cpp\n)\n".toList, .targetSources⟩ := by
    decide
  have bare : Text.trim "b.cpp".toList = "b.cpp".toList := by decide
  obtain ⟨opening, closing, insertion, call, into, adds⟩ :=
    addsPrivate_iff _ _ _ done rfl (Text.forall_eq_false_of_any (by decide)) (by decide) (by decide)
  have block : callBlock? (Text.lines "target_sources(app\n PRIVATE\n  a.cpp\n)\n".toList) =
      some (0, 3) := by decide
  have line : intoCall? (Text.lines "target_sources(app\n PRIVATE\n  a.cpp\n)\n".toList)
      "b.cpp".toList ['\n'] = some ⟨3, ["  b.cpp\n".toList]⟩ := by decide
  have feed : Text.newlineOf (Text.lines "target_sources(app\n PRIVATE\n  a.cpp\n)\n".toList) =
      ['\n'] := by decide
  obtain ⟨rfl, rfl⟩ := Prod.mk.inj (Option.some.inj (call.symm.trans block))
  rw [bare, feed, line] at into
  obtain rfl := Option.some.inj into
  rw [bare] at adds
  exact ⟨_, done, rfl, adds.2 ⟨by decide, "app".toList, ["PRIVATE".toList, "a.cpp".toList],
    by decide, Or.inl (by decide)⟩⟩

theorem exists_not_addsPrivate (document entry : List Char)
    (counted : ∃ injection ∈ inject document entry, injection.strategy = .targetSources ∧
      (readCall (Text.lines injection.text) 0).sources.countP isPrivate ≠
        (readCall (Text.lines document) 0).sources.countP isPrivate + 1) :
    ∃ injection ∈ inject document entry, injection.strategy = .targetSources ∧
      ¬ AddsPrivate (readCall (Text.lines document) 0) (readCall (Text.lines injection.text) 0)
        entry := by
  obtain ⟨injection, done, strategy, other⟩ := counted
  refine ⟨injection, done, strategy, ?_⟩
  intro adds
  exact other (adds.countP isPrivate)

/-- The new label comes in front of a target on a line of its own. It takes a source that had no
section. The label in force is not the one the line starts with. -/
theorem not_addsPrivate_of_layout :
    (∃ injection ∈ inject "target_sources(\n    app\n    PUBLIC\n        api.h\n)\n".toList
        "b.cpp".toList, injection.strategy = .targetSources ∧
      ¬ AddsPrivate
        (readCall (Text.lines "target_sources(\n    app\n    PUBLIC\n        api.h\n)\n".toList) 0)
        (readCall (Text.lines injection.text) 0) "b.cpp".toList) ∧
    (∃ injection ∈ inject "target_sources(app\n    api.h\n)\n".toList "b.cpp".toList,
        injection.strategy = .targetSources ∧
      ¬ AddsPrivate (readCall (Text.lines "target_sources(app\n    api.h\n)\n".toList) 0)
        (readCall (Text.lines injection.text) 0) "b.cpp".toList) ∧
    (∃ injection ∈ inject "target_sources(app\n    PRIVATE a.cpp PUBLIC\n        api.h\n)\n".toList
        "b.cpp".toList, injection.strategy = .targetSources ∧
      ¬ AddsPrivate
        (readCall (Text.lines "target_sources(app\n    PRIVATE a.cpp PUBLIC\n        api.h\n)\n".toList) 0)
        (readCall (Text.lines injection.text) 0) "b.cpp".toList) := by
  refine ⟨?_, ?_, ?_⟩
  · exact exists_not_addsPrivate _ _ (by decide)
  · exact exists_not_addsPrivate _ _ (by decide)
  · exact exists_not_addsPrivate _ _ (by decide)

end JuceWorkbench.Script
