import JuceWorkbench.Proofs.Script.Registration

/-! What a registration in a call does to the lines of the script. In front of the line that ends
the private list the new line stays apart, `lines_place_of_list`; a new label and the entry under
it may take in an empty line, `lines_place_of_unlabelled`. Lines without parentheses and markers
keep the block and the markers as they are: `CallBlock.replace`. -/

namespace JuceWorkbench.Script

theorem exists_dark_of_trim (line : List Char) (filled : (Text.trim line).isEmpty = false) :
    ∃ d ∈ line, Text.isBlank d = false := by
  obtain ⟨front, back, padded, -, -⟩ := Text.exists_padding line
  obtain ⟨d, rest, starts, dark⟩ := (Text.isTrimmed_trim line (by simpa using filled)).head
  refine ⟨d, ?_, dark⟩
  rw [padded, starts]
  simp

theorem exists_dark_of_starts (label line : List Char) (d : Char) (member : d ∈ label)
    (starts : label.isPrefixOf (Text.trimLeft line) = true) : d ∈ line := by
  rw [← Text.margin_append_trimLeft line]
  have reaches := List.isPrefixOf_iff_prefix.1 starts
  exact List.mem_append_right _ (reaches.subset member)

theorem siblingMargin_clean (document label : List Char) (listed : List (List Char))
    (labels : startsPrivate label = true) (there : label ∈ Text.lines document)
    (inside : ∀ line ∈ listed, line ∈ Text.lines document) :
    ∀ c ∈ siblingMargin label listed, Text.isLineBreak c = false := by
  intro c member
  unfold siblingMargin at member
  split at member
  · rename_i sibling found
    obtain ⟨d, inner, dark⟩ := exists_dark_of_trim sibling
      (by simpa using List.find?_some found)
    exact indentOf_clean document sibling (inside sibling (List.mem_of_find?_eq_some found)) d inner
      dark c member
  · have inner := exists_dark_of_starts privateLabel label 'P' (by decide) labels
    rcases List.mem_append.1 member with margin | more
    · exact indentOf_clean document label there 'P' inner (by decide) c margin
    · exact indentStep_clean c more

theorem isBare_privateLabel : IsBare privateLabel where
  trimmed := ⟨⟨'P', privateLabel.tail, by decide, by decide⟩,
    ⟨privateLabel.dropLast, 'E', by decide, by decide⟩⟩
  clean := Text.forall_eq_false_of_any (by decide)

/-! The new lines. -/

namespace CallBlock

theorem indentOf_head_clean (block : CallBlock) (document : List Char)
    (whole : block.lines = Text.lines document) :
    ∀ c ∈ indentOf block.head, Text.isLineBreak c = false := by
  have opens := block.opens
  simp only [opensCall, Bool.and_eq_true] at opens
  have inner := exists_dark_of_starts callName block.head 't' (by decide) opens.1
  apply indentOf_clean document block.head _ 't' inner (by decide)
  rw [← whole]
  simp [lines]

theorem labelMargin_clean (block : CallBlock) {document : List Char}
    (whole : block.lines = Text.lines document) :
    ∀ c ∈ indentOf block.head ++ indentStep, Text.isLineBreak c = false :=
  List.forall_mem_append.2 ⟨block.indentOf_head_clean document whole, indentStep_clean⟩

theorem newEntryMargin_clean (block : CallBlock) {document : List Char}
    (whole : block.lines = Text.lines document) :
    ∀ c ∈ indentOf block.head ++ indentStep ++ indentStep, Text.isLineBreak c = false :=
  List.forall_mem_append.2 ⟨block.labelMargin_clean whole, indentStep_clean⟩

theorem siblingMargin_clean_of_list (block : CallBlock) {document : List Char}
    (whole : block.lines = Text.lines document) {list : PrivateList} (inner : list.lines = block.inner) :
    ∀ c ∈ siblingMargin list.label list.listed, Text.isLineBreak c = false := by
  have cut := whole.symm.trans (block.lines_eq_listed list inner)
  apply siblingMargin_clean document _ _ list.labels
  · rw [cut]
    simp [toLabel]
  · intro line member
    rw [cut]
    simp [member]

theorem foot_ne_feed (block : CallBlock) : block.foot ≠ ['\n'] := by
  intro feed
  have closes := block.closes
  have positive := block.stays.positive
  have flat : parenBalance ['\n'] = 0 := by decide
  rw [feed, flat] at closes
  omega

section Place

variable {document entry : List Char} {block : CallBlock}

theorem lines_place_of_list (unlisted : isListed document entry = false)
    (unusable : ¬ HasMarkers (Text.lines document)) (whole : block.lines = Text.lines document)
    (list : PrivateList) (inner : list.lines = block.inner) (bare : IsBare entry) :
    ∃ line, StandsOn entry line ∧ (place document entry).strategy = .targetSources ∧
      Text.lines (place document entry).text = block.toLabel list ++ list.listed ++ [line] ++
        (list.behind ++ block.foot :: block.below) := by
  have cut := whole.symm.trans (block.lines_eq_listed list inner)
  have apart : (list.behind ++ block.foot :: block.below).head? ≠ some ['\n'] := by
    cases first : list.behind with
    | nil => simpa using block.foot_ne_feed
    | cons line more =>
      intro feed
      have stops := list.stops line (by rw [first]; rfl)
      obtain rfl : line = ['\n'] := by simpa using feed
      exact absurd stops (by decide)
  have clean := block.siblingMargin_clean_of_list whole inner
  have known := Text.newlineOf_mem_endings (Text.lines document)
  rw [place_of_list unlisted unusable block whole list inner]
  exact ⟨_, ⟨_, _, rfl, fun c member => ⟨siblingMargin_blank _ _ c member, clean c member⟩, known⟩,
    rfl, lines_insert_of_apart cut (by simp) apart bare clean known⟩

theorem lines_place_of_unlabelled (unlisted : isListed document entry = false)
    (unusable : ¬ HasMarkers (Text.lines document)) (whole : block.lines = Text.lines document)
    (unlabelled : ∀ line ∈ block.inner, startsPrivate line = false) (bare : IsBare entry) :
    ∃ label line old kept, StandsOn privateLabel label ∧ StandsOn entry line ∧
      block.inner = old ++ kept ∧ (old = [] ∨ old = [['\n']]) ∧
      (place document entry).strategy = .targetSources ∧
      Text.lines (place document entry).text =
        block.above ++ block.head :: label :: line :: (kept ++ block.foot :: block.below) := by
  have outerBlank : ∀ c ∈ indentOf block.head ++ indentStep, Text.isBlank c = true :=
    List.forall_mem_append.2 ⟨indentOf_blank _, indentStep_blank⟩
  have innerBlank : ∀ c ∈ indentOf block.head ++ indentStep ++ indentStep, Text.isBlank c = true :=
    List.forall_mem_append.2 ⟨outerBlank, indentStep_blank⟩
  have outer := block.labelMargin_clean whole
  have inner := block.newEntryMargin_clean whole
  have cut := whole.symm.trans block.lines_eq_inner
  have known := Text.newlineOf_mem_endings (Text.lines document)
  obtain ⟨last, below, member, after, which⟩ := lines_insert_two cut (by simp) isBare_privateLabel
    outer bare inner known
  have label : StandsOn privateLabel (indentOf block.head ++ indentStep ++ privateLabel ++
      Text.newlineOf (Text.lines document)) :=
    ⟨_, _, rfl, fun c member => ⟨outerBlank c member, outer c member⟩, known⟩
  have line : StandsOn entry (indentOf block.head ++ indentStep ++ indentStep ++ entry ++ last) :=
    ⟨_, _, rfl, fun c member => ⟨innerBlank c member, inner c member⟩, member⟩
  rw [place_of_unlabelled unlisted unusable block whole unlabelled, after]
  rcases which with ⟨rfl, rfl⟩ | merged
  · exact ⟨_, _, [], block.inner, label, line, rfl, Or.inl rfl, rfl, by simp⟩
  · -- the empty line that went into the break of the new line was inside the block
    cases first : block.inner with
    | nil =>
      rw [first] at merged
      exact absurd (List.cons.inj merged).1 block.foot_ne_feed
    | cons feed more =>
      rw [first] at merged
      obtain ⟨rfl, rfl⟩ := List.cons.inj merged
      exact ⟨_, _, [['\n']], more, label, line, rfl, Or.inr rfl, rfl, by simp⟩

theorem exists_of_targetSources (strategy : (place document entry).strategy = .targetSources) :
    isListed document entry = false ∧ ¬ HasMarkers (Text.lines document) ∧
      ∃ block : CallBlock, block.lines = Text.lines document := by
  have unlisted : isListed document entry = false := by
    rw [Bool.eq_false_iff]
    intro listed
    rw [place_of_listed listed] at strategy
    cases strategy
  have unusable : ¬ HasMarkers (Text.lines document) := by
    intro usable
    obtain ⟨pair, whole⟩ := (hasMarkers_iff_exists_pair _).1 usable
    rw [place_of_pair unlisted pair whole] at strategy
    cases strategy
  refine ⟨unlisted, unusable, ?_⟩
  cases call : callBlock? (Text.lines document) with
  | none =>
    rw [place_of_no_call unlisted unusable call] at strategy
    cases strategy
  | some found =>
    obtain ⟨block, whole, -⟩ := exists_callBlock _ _ _ call
    exact ⟨block, whole⟩

end Place

end CallBlock

/-! Lines that change neither the depth of parentheses nor the markers. -/

/-- An entry without parentheses and markers. -/
structure IsPlain (entry : List Char) : Prop where
  opens : '(' ∉ entry
  closes : ')' ∉ entry
  begins : Text.contains entry beginMarker = false
  ends : Text.contains entry endMarker = false

theorem isPlain_privateLabel : IsPlain privateLabel where
  opens := by decide
  closes := by decide
  begins := by decide
  ends := by decide

theorem IsPlain.trim {entry : List Char} (plain : IsPlain entry) : IsPlain (Text.trim entry) := by
  obtain ⟨front, back, padded, blankFront, blankBack⟩ := Text.exists_padding entry
  have inside : Text.trim entry <:+: entry := ⟨front, back, padded.symm⟩
  have misses (part : List Char) (absent : Text.contains entry part = false) :
      Text.contains (Text.trim entry) part = false := by
    rw [Bool.eq_false_iff, Ne, Text.contains_iff] at absent ⊢
    exact fun found => absent (found.trans inside)
  exact ⟨fun member => plain.opens (inside.subset member),
    fun member => plain.closes (inside.subset member), misses _ plain.begins, misses _ plain.ends⟩

section StandsOn

variable {entry line : List Char}

theorem StandsOn.flat (stands : StandsOn entry line) (plain : IsPlain entry) :
    Script.parenBalance line = 0 := by
  rw [stands.parenBalance, Script.parenBalance, List.count_eq_zero_of_not_mem plain.opens,
    List.count_eq_zero_of_not_mem plain.closes]
  rfl

theorem StandsOn.unmarked (stands : StandsOn entry line) (plain : IsPlain entry) :
    isMarked line = false := by
  rw [isMarked, stands.contains _ isTrimmed_beginMarker, stands.contains _ isTrimmed_endMarker,
    plain.begins, plain.ends]
  rfl

theorem StandsOn.runs (stands : StandsOn entry line) (bare : IsBare entry) (plain : IsPlain entry)
    (unlabelled : startsWithLabel entry = false) : Script.endsList line = false := by
  rw [stands.endsList bare, Script.endsList, unlabelled, Bool.or_false, trimLeft_of_isBare bare,
    Bool.eq_false_iff]
  intro closes
  have starts := List.isPrefixOf_iff_prefix.1 closes
  exact plain.closes (starts.subset (List.mem_singleton_self ')'))

end StandsOn

namespace CallBlock

variable (block : CallBlock)

def replace (front old new back : List (List Char)) (whole : front ++ old ++ back = block.inner)
    (flatOld : ∀ line ∈ old, parenBalance line = 0)
    (flatNew : ∀ line ∈ new, parenBalance line = 0) : CallBlock :=
  have known : block.head :: block.inner = (block.head :: front) ++ (old ++ back) := by
    simp [← whole]
  have depth : depthAfter 0 ((block.head :: front) ++ (new ++ back)) =
      depthAfter 0 (block.head :: block.inner) := by
    simp only [known, depthAfter_append, depthAfter_of_flat _ _ flatOld,
      depthAfter_of_flat _ _ flatNew]
  { block with
    inner := front ++ new ++ back
    stays := by
      have stays := block.stays
      rw [known, staysOpen_append, staysOpen_append, depthAfter_of_flat _ _ flatOld] at stays
      have split : block.head :: (front ++ new ++ back) =
          (block.head :: front) ++ (new ++ back) := by simp
      rw [split, staysOpen_append, staysOpen_append, depthAfter_of_flat _ _ flatNew]
      exact ⟨stays.1, staysOpen_of_flat _ _ stays.1.positive flatNew, stays.2.2⟩
    closes := by
      have closes := block.closes
      rw [← depth] at closes
      simpa using closes }

variable {block} {front old new back : List (List Char)}
  {whole : front ++ old ++ back = block.inner} {flatOld : ∀ line ∈ old, parenBalance line = 0}
  {flatNew : ∀ line ∈ new, parenBalance line = 0}

theorem lines_replace : (block.replace front old new back whole flatOld flatNew).lines =
    (block.above ++ block.head :: front) ++ new ++ (back ++ block.foot :: block.below) := by
  simp [lines, replace]

theorem hasMarkers_replace (plainOld : ∀ line ∈ old, isMarked line = false)
    (plainNew : ∀ line ∈ new, isMarked line = false) :
    HasMarkers (block.replace front old new back whole flatOld flatNew).lines ↔
      HasMarkers block.lines := by
  have before : block.lines =
      (block.above ++ block.head :: front) ++ old ++ (back ++ block.foot :: block.below) := by
    simp [lines, ← whole]
  rw [lines_replace, before]
  exact Script.hasMarkers_replace _ _ _ _ plainOld plainNew

/-- Two cuts of scripts that differ inside the block only. -/
structure SameFrame (now block : CallBlock) : Prop where
  above : now.above = block.above
  head : now.head = block.head
  foot : now.foot = block.foot
  below : now.below = block.below

theorem SameFrame.refl (block : CallBlock) : SameFrame block block := ⟨rfl, rfl, rfl, rfl⟩

theorem SameFrame.replace {now : CallBlock} (same : SameFrame now block)
    (split : front ++ old ++ back = now.inner) :
    SameFrame (now.replace front old new back split flatOld flatNew) block :=
  ⟨same.above, same.head, same.foot, same.below⟩

end CallBlock

end JuceWorkbench.Script
