import JuceWorkbench.Proofs.Script.CallInsertion

/-! Runs of registrations in a call, without a usable pair of markers. The call keeps the lines
it opens and closes on, its first private list takes the entries one behind the other, and no
registration leaves the block: `run_into_call`. -/

namespace JuceWorkbench.Script
namespace CallBlock

/-- A script whose call has the frame of a block and some entries in its first private list. -/
structure Holds (block : CallBlock) (added : List (List Char)) (text : List Char) : Prop where
  unusable : ¬ HasMarkers (Text.lines text)
  call : ∃ now : CallBlock, now.lines = Text.lines text ∧ SameFrame now block ∧
    (added = [] ∨ ∃ list : PrivateList, list.lines = now.inner ∧
      added.Sublist (list.listed.map Text.trim))

section Step

variable {block now : CallBlock} {text entry : List Char} {added : List (List Char)}

theorem holds_place_of_list (unlisted : isListed text entry = false)
    (unusable : ¬ HasMarkers (Text.lines text)) (split : now.lines = Text.lines text)
    (same : SameFrame now block) (list : PrivateList) (inner : list.lines = now.inner)
    (holds : added.Sublist (list.listed.map Text.trim)) (bare : IsBare entry)
    (plain : IsPlain entry) (unlabelled : startsWithLabel entry = false) :
    (place text entry).strategy = .targetSources ∧
      block.Holds (added ++ [entry]) (place text entry).text := by
  obtain ⟨line, stands, strategy, after⟩ :=
    lines_place_of_list unlisted unusable split list inner bare
  have whole : (list.between ++ list.label :: list.listed) ++ [] ++ list.behind = now.inner := by
    simp [← inner, PrivateList.lines]
  have new : ∀ other ∈ [line], parenBalance other = 0 ∧ isMarked other = false := by
    intro other member
    rw [List.mem_singleton.1 member]
    exact ⟨stands.flat plain, stands.unmarked plain⟩
  have lines : (now.replace _ [] [line] _ whole (by simp) fun other member =>
      (new other member).1).lines = Text.lines (place text entry).text := by
    rw [after, lines_replace]
    simp [toLabel]
  refine ⟨strategy, ?_, _, lines, same.replace whole, Or.inr ⟨{ list with
    listed := list.listed ++ [line], runs := ?_ }, ?_, ?_⟩⟩
  · rw [← lines, hasMarkers_replace (by simp) fun other member => (new other member).2, split]
    exact unusable
  · intro other member
    rcases List.mem_append.1 member with old | new
    · exact list.runs other old
    · rw [List.mem_singleton.1 new]
      exact stands.runs bare plain unlabelled
  · simp [PrivateList.lines, replace]
  · rw [List.map_append, List.map_singleton, stands.trim bare.trimmed]
    exact holds.append (List.Sublist.refl [entry])

theorem holds_place_of_unlabelled (unlisted : isListed text entry = false)
    (unusable : ¬ HasMarkers (Text.lines text)) (split : now.lines = Text.lines text)
    (same : SameFrame now block) (none : ∀ line ∈ now.inner, startsPrivate line = false)
    (bare : IsBare entry) (plain : IsPlain entry) (unlabelled : startsWithLabel entry = false) :
    (place text entry).strategy = .targetSources ∧
      block.Holds [entry] (place text entry).text := by
  obtain ⟨label, line, old, kept, labels, stands, inner, feeds, strategy, after⟩ :=
    lines_place_of_unlabelled unlisted unusable split none bare
  have whole : [] ++ old ++ kept = now.inner := by simp [inner]
  have gone : ∀ other ∈ old, parenBalance other = 0 ∧ isMarked other = false := by
    rcases feeds with rfl | rfl
    · simp
    · decide
  have new : ∀ other ∈ [label, line], parenBalance other = 0 ∧ isMarked other = false := by
    intro other member
    rcases List.mem_cons.1 member with rfl | second
    · exact ⟨labels.flat isPlain_privateLabel, labels.unmarked isPlain_privateLabel⟩
    · rw [List.mem_singleton.1 second]
      exact ⟨stands.flat plain, stands.unmarked plain⟩
  have lines : (now.replace [] old [label, line] kept whole (fun other member =>
      (gone other member).1) fun other member => (new other member).1).lines =
        Text.lines (place text entry).text := by
    rw [after, lines_replace]
    simp
  have starts : startsPrivate label = true := by
    rw [labels.startsPrivate isBare_privateLabel]
    decide
  refine ⟨strategy, ?_, _, lines, same.replace whole, Or.inr ⟨.ofLabel [] label (line :: kept)
    (by simp) starts, ?_, ?_⟩⟩
  · rw [← lines, hasMarkers_replace (fun other member => (gone other member).2)
      fun other member => (new other member).2, split]
    exact unusable
  · simp [PrivateList.lines, PrivateList.ofLabel, replace]
  · have first : (line :: kept).takeWhile (!endsList ·) = line :: kept.takeWhile (!endsList ·) := by
      rw [List.takeWhile_cons, stands.runs bare plain unlabelled]
      rfl
    change [entry].Sublist (((line :: kept).takeWhile (!endsList ·)).map Text.trim)
    rw [first, List.map_cons, stands.trim bare.trimmed]
    exact (List.nil_sublist _).cons_cons entry

theorem Holds.place (holds : block.Holds added text) (bare : IsBare entry) (plain : IsPlain entry)
    (unlabelled : startsWithLabel entry = false) :
    ((Script.place text entry).strategy = .present ∨
        (Script.place text entry).strategy = .targetSources) ∧
      block.Holds (if isListed text entry then added else added ++ [entry])
        (Script.place text entry).text := by
  by_cases listed : isListed text entry = true
  · rw [place_of_listed listed, if_pos listed]
    exact ⟨Or.inl rfl, holds⟩
  · have unlisted := Bool.eq_false_iff.2 listed
    obtain ⟨now, split, same, which⟩ := holds.call
    rw [if_neg listed]
    by_cases labelled : ∃ list : PrivateList, list.lines = now.inner ∧
        added.Sublist (list.listed.map Text.trim)
    · obtain ⟨list, inner, sub⟩ := labelled
      have taken := holds_place_of_list unlisted holds.unusable split same list inner sub bare plain
        unlabelled
      exact ⟨Or.inr taken.1, taken.2⟩
    · obtain rfl := which.resolve_right labelled
      have none : ∀ line ∈ now.inner, startsPrivate line = false := by
        intro line member
        rw [Bool.eq_false_iff]
        intro labels
        obtain ⟨list, inner⟩ := exists_privateList now.inner ⟨line, member, labels⟩
        exact labelled ⟨list, inner, List.nil_sublist _⟩
      have taken := holds_place_of_unlabelled unlisted holds.unusable split same none bare plain
        unlabelled
      exact ⟨Or.inr taken.1, taken.2⟩

end Step

theorem exists_label (block : CallBlock) (list : PrivateList) (inner : list.lines = block.inner) :
    ∃ label line, block.opening < label ∧ label < block.closing ∧
      block.lines[label]? = some line ∧ startsPrivate line = true ∧
      list.listed <+: (block.lines.take block.closing).drop (label + 1) := by
  have split : block.above ++ block.head :: block.inner =
      (block.above ++ block.head :: list.between) ++ list.label :: (list.listed ++ list.behind) := by
    simp [← inner, PrivateList.lines]
  have length : (block.above ++ block.head :: list.between).length + 1 =
      (block.toLabel list).length := by
    simp only [toLabel, List.length_append, List.length_cons, List.length_nil]
    omega
  refine ⟨(block.above ++ block.head :: list.between).length, list.label, ?_, ?_, ?_, list.labels, ?_⟩
  · simp only [opening, List.length_append, List.length_cons]
    omega
  · simp only [closing, ← inner, PrivateList.lines, List.length_append, List.length_cons]
    omega
  · rw [lines_eq_foot, split, List.append_assoc, List.getElem?_append_right (Nat.le_refl _), Nat.sub_self]
    rfl
  · have after : (block.above ++ block.head :: list.between) ++ list.label ::
        (list.listed ++ list.behind) = block.toLabel list ++ (list.listed ++ list.behind) := by
      simp [toLabel]
    rw [take_closing, split, length, after, List.drop_left]
    exact List.prefix_append _ _

theorem take_opening (block : CallBlock) :
    block.lines.take (block.opening + 1) = block.above ++ [block.head] := by
  rw [lines_eq_inner, List.take_left']
  simp [opening]

theorem drop_closing (block : CallBlock) :
    block.lines.drop block.closing = block.foot :: block.below := by
  rw [lines_eq_foot, List.drop_left']
  simp only [closing, List.length_append, List.length_cons]
  omega

end CallBlock

theorem startsWithLabel_trim {entry : List Char} (valid : IsEntry entry)
    (unlabelled : startsWithLabel entry = false) : startsWithLabel (Text.trim entry) = false := by
  obtain ⟨front, back, padded, blank, -⟩ := Text.exists_padding entry
  have trimmed := valid.isBare.trimmed
  have left : Text.trimLeft entry = Text.trim entry ++ back := by
    conv => lhs; rw [padded]
    rw [List.append_assoc, Text.trimLeft_append_of_blank _ _ blank, trimmed.trimLeft]
  rw [Bool.eq_false_iff] at unlabelled ⊢
  intro labels
  apply unlabelled
  obtain ⟨label, known, starts⟩ := List.any_eq_true.1 labels
  refine List.any_eq_true.2 ⟨label, known, ?_⟩
  rw [trimLeft_of_isBare valid.isBare, List.isPrefixOf_iff_prefix] at starts
  rw [left, List.isPrefixOf_iff_prefix]
  exact starts.trans (List.prefix_append _ back)

/-- Without a usable pair of markers, the first call that does not close on its own line takes
every entry of every run. It starts on the same line as before and closes on the same line, and
the entries that were not listed yet stand in it, each on its own line and one below the other,
under a private label. -/
theorem run_into_call (document : List Char) (entries : List (List Char)) (opening closing : Nat)
    (unusable : ¬ HasMarkers (Text.lines document))
    (call : IsFirstCall (Text.lines document) opening closing)
    (valid : ∀ entry ∈ entries, IsEntry entry) (plain : ∀ entry ∈ entries, IsPlain entry)
    (unlabelled : ∀ entry ∈ entries, startsWithLabel entry = false) :
    ∃ run last, injectAll document entries = some run ∧
      (∀ step ∈ run.steps, step.strategy = .present ∨ step.strategy = .targetSources) ∧
      IsFirstCall (Text.lines run.text) opening last ∧
      (Text.lines run.text).take (opening + 1) = (Text.lines document).take (opening + 1) ∧
      (Text.lines run.text).drop last = (Text.lines document).drop closing ∧
      (unlistedOf document entries ≠ [] → ∃ label line, opening < label ∧ label < last ∧
        (Text.lines run.text)[label]? = some line ∧ startsPrivate line = true ∧
        (unlistedOf document entries).Sublist
          ((((Text.lines run.text).take last).drop (label + 1)).map Text.trim)) := by
  obtain ⟨block, whole, rfl, rfl⟩ := exists_callBlock_of_isFirstCall call
  have start : block.Holds [] document :=
    ⟨unusable, block, whole, CallBlock.SameFrame.refl block, Or.inl rfl⟩
  obtain ⟨run, found, reported, holds⟩ := exists_run block.Holds
    (fun step => step.strategy = .present ∨ step.strategy = .targetSources)
    (fun entry => IsPlain entry ∧ startsWithLabel entry = false)
    (fun added text entry holds valid allowed => holds.place valid.isBare allowed.1.trim
      (startsWithLabel_trim valid allowed.2))
    entries [] document start valid (fun entry member => ⟨plain entry member, unlabelled entry member⟩)
  rw [List.nil_append] at holds
  obtain ⟨now, split, same, which⟩ := holds.call
  have opens : now.opening = block.opening := by rw [CallBlock.opening, same.above]; rfl
  refine ⟨run, now.closing, found, reported, ?_, ?_, ?_, ?_⟩
  · rw [← split, ← opens]
    exact now.isFirstCall
  · rw [← split, ← whole, block.take_opening, ← opens, now.take_opening, same.above, same.head]
  · rw [← split, ← whole, block.drop_closing, now.drop_closing, same.foot, same.below]
  · intro filled
    obtain ⟨list, inner, sub⟩ := which.resolve_left filled
    obtain ⟨label, line, after, before, there, labels, starts⟩ := now.exists_label list inner
    rw [← split, ← opens]
    exact ⟨label, line, after, before, there, labels, sub.trans (starts.sublist.map _)⟩

theorem run_into_call_unlabelled :
    ¬ HasMarkers (Text.lines "target_sources(app\r A.hpp\r)".toList) ∧
      IsFirstCall (Text.lines "target_sources(app\r A.hpp\r)".toList) 0 2 ∧
      ∃ run last, injectAll "target_sources(app\r A.hpp\r)".toList
          ["B.cpp".toList, "app".toList, "sub/C.cpp".toList] = some run ∧
        IsFirstCall (Text.lines run.text) 0 last ∧
        ∃ label line, (Text.lines run.text)[label]? = some line ∧ startsPrivate line = true ∧
          ["B.cpp".toList, "sub/C.cpp".toList].Sublist
            ((((Text.lines run.text).take last).drop (label + 1)).map Text.trim) := by
  have unusable : ¬ HasMarkers (Text.lines "target_sources(app\r A.hpp\r)".toList) := by
    rintro ⟨opening, closing, begins, -⟩
    have none : findFrom? (Text.contains · beginMarker)
        (Text.lines "target_sources(app\r A.hpp\r)".toList) 0 = none := by decide
    rw [none] at begins
    cases begins
  have call : IsFirstCall (Text.lines "target_sources(app\r A.hpp\r)".toList) 0 2 := by
    refine ⟨⟨"target_sources(app\r".toList, by decide, by decide⟩,
      by decide, by decide, ?_⟩
    intro index inside
    exact absurd inside (Nat.not_lt_zero index)
  have added : unlistedOf "target_sources(app\r A.hpp\r)".toList
      ["B.cpp".toList, "app".toList, "sub/C.cpp".toList] =
        ["B.cpp".toList, "sub/C.cpp".toList] := by decide
  have plain : ∀ entry ∈ ["B.cpp".toList, "app".toList, "sub/C.cpp".toList],
      ('(' ∉ entry ∧ ')' ∉ entry) ∧ Text.contains entry beginMarker = false ∧
        Text.contains entry endMarker = false := by decide
  obtain ⟨run, last, found, -, again, -, -, stand⟩ := run_into_call _ _ 0 2 unusable call
    (by decide)
    (fun entry member => ⟨(plain entry member).1.1, (plain entry member).1.2,
      (plain entry member).2.1, (plain entry member).2.2⟩)
    (by decide : ∀ entry ∈ ["B.cpp".toList, "app".toList, "sub/C.cpp".toList],
      startsWithLabel entry = false)
  rw [added] at stand
  obtain ⟨label, line, -, -, there, labels, below⟩ := stand (by simp)
  exact ⟨unusable, call, run, last, found, again, label, line, there, labels, below⟩

end JuceWorkbench.Script
