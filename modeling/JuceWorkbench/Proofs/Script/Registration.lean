import JuceWorkbench.Proofs.Script.CallBlock
import JuceWorkbench.Proofs.Script.Listing
import JuceWorkbench.Proofs.Script.MarkerPair

/-! One registration, and many in a row. What a registration writes is said once for each
way an entry can go, over the cuts of the script. From that, an entry once listed stays listed
through every run of registrations: `run_keeps_entries`. -/

namespace JuceWorkbench.Script

theorem apply_at_cut (above added below : List (List Char)) :
    (Insertion.mk above.length added).apply (above ++ below) = above ++ added ++ below := by
  simp [Insertion.apply]

section Place

variable {document entry : List Char}

theorem place_of_listed (listed : isListed document entry = true) :
    place document entry = ⟨document, .present⟩ := by
  rw [place, if_pos listed]

theorem listed_of_present (present : (place document entry).strategy = .present) :
    isListed document entry = true := by
  by_cases listed : isListed document entry = true
  · exact listed
  · rw [place, if_neg listed] at present
    dsimp only at present
    split at present
    · cases present
    · split at present
      · cases present
      · cases present

theorem place_of_pair (unlisted : isListed document entry = false) (pair : MarkerPair)
    (whole : pair.lines = Text.lines document) :
    place document entry = ⟨(pair.above ++
      [indentOf pair.closing ++ entry ++ Text.newlineOf (Text.lines document)] ++
      pair.closing :: pair.below).flatten, .markers⟩ := by
  rw [place, if_neg (by simp [unlisted])]
  simp only [← whole, pair.betweenMarkers?_lines]
  rw [MarkerPair.lines, apply_at_cut]

theorem place_of_list (unlisted : isListed document entry = false)
    (unusable : ¬ HasMarkers (Text.lines document)) (block : CallBlock)
    (whole : block.lines = Text.lines document) (list : PrivateList)
    (inner : list.lines = block.inner) :
    place document entry = ⟨(block.toLabel list ++ list.listed ++
      [siblingMargin list.label list.listed ++ entry ++ Text.newlineOf (Text.lines document)] ++
      (list.behind ++ block.foot :: block.below)).flatten, .targetSources⟩ := by
  rw [place, if_neg (by simp [unlisted])]
  simp only [betweenMarkers?_eq_none _ _ _ unusable]
  simp only [← whole, block.intoCall?_of_list _ _ list inner]
  rw [block.lines_eq_toLabel list inner, ← List.append_assoc, apply_at_cut]

theorem place_of_unlabelled (unlisted : isListed document entry = false)
    (unusable : ¬ HasMarkers (Text.lines document)) (block : CallBlock)
    (whole : block.lines = Text.lines document)
    (unlabelled : ∀ line ∈ block.inner, startsPrivate line = false) :
    place document entry = ⟨(block.above ++ [block.head] ++
      [indentOf block.head ++ indentStep ++ privateLabel ++ Text.newlineOf (Text.lines document),
        indentOf block.head ++ indentStep ++ indentStep ++ entry ++
          Text.newlineOf (Text.lines document)] ++
      (block.inner ++ block.foot :: block.below)).flatten, .targetSources⟩ := by
  have length : block.above.length + 1 = (block.above ++ [block.head]).length := by simp
  rw [place, if_neg (by simp [unlisted])]
  simp only [betweenMarkers?_eq_none _ _ _ unusable]
  simp only [← whole, block.intoCall?_of_unlabelled _ _ unlabelled]
  rw [length, block.lines_eq_inner, apply_at_cut]

theorem place_of_no_call (unlisted : isListed document entry = false)
    (unusable : ¬ HasMarkers (Text.lines document))
    (none : callBlock? (Text.lines document) = none) :
    place document entry = ⟨document ++ separation document (Text.newlineOf (Text.lines document)) ++
      (managedBlock entry (Text.newlineOf (Text.lines document))).flatten, .append⟩ := by
  rw [place, if_neg (by simp [unlisted])]
  simp only [betweenMarkers?_eq_none _ _ _ unusable, intoCall?, none, Option.map_none]

end Place

/-- All that a registration can do, over the cuts of the script. -/
inductive Placed (document entry : List Char) : Injection → Prop
  | present (listed : isListed document entry = true) :
      Placed document entry ⟨document, .present⟩
  | markers (unlisted : isListed document entry = false) (pair : MarkerPair)
      (whole : pair.lines = Text.lines document) :
      Placed document entry ⟨(pair.above ++
        [indentOf pair.closing ++ entry ++ Text.newlineOf (Text.lines document)] ++
        pair.closing :: pair.below).flatten, .markers⟩
  | listed (unlisted : isListed document entry = false)
      (unusable : ¬ HasMarkers (Text.lines document)) (block : CallBlock)
      (whole : block.lines = Text.lines document) (list : PrivateList)
      (inner : list.lines = block.inner) :
      Placed document entry ⟨(block.toLabel list ++ list.listed ++
        [siblingMargin list.label list.listed ++ entry ++ Text.newlineOf (Text.lines document)] ++
        (list.behind ++ block.foot :: block.below)).flatten, .targetSources⟩
  | labelled (unlisted : isListed document entry = false)
      (unusable : ¬ HasMarkers (Text.lines document)) (block : CallBlock)
      (whole : block.lines = Text.lines document)
      (unlabelled : ∀ line ∈ block.inner, startsPrivate line = false) :
      Placed document entry ⟨(block.above ++ [block.head] ++
        [indentOf block.head ++ indentStep ++ privateLabel ++ Text.newlineOf (Text.lines document),
          indentOf block.head ++ indentStep ++ indentStep ++ entry ++
            Text.newlineOf (Text.lines document)] ++
        (block.inner ++ block.foot :: block.below)).flatten, .targetSources⟩
  | append (unlisted : isListed document entry = false)
      (unusable : ¬ HasMarkers (Text.lines document))
      (none : callBlock? (Text.lines document) = none) :
      Placed document entry ⟨document ++
        separation document (Text.newlineOf (Text.lines document)) ++
        (managedBlock entry (Text.newlineOf (Text.lines document))).flatten, .append⟩

theorem placed_place (document entry : List Char) :
    Placed document entry (place document entry) := by
  by_cases present : isListed document entry = true
  · rw [place_of_listed present]
    exact .present present
  · have unlisted := Bool.eq_false_iff.2 present
    by_cases usable : HasMarkers (Text.lines document)
    · obtain ⟨pair, whole⟩ := (hasMarkers_iff_exists_pair _).1 usable
      rw [place_of_pair unlisted pair whole]
      exact .markers unlisted pair whole
    · cases call : callBlock? (Text.lines document) with
      | none =>
        rw [place_of_no_call unlisted usable call]
        exact .append unlisted usable call
      | some found =>
        obtain ⟨block, whole, -⟩ := exists_callBlock _ _ _ call
        by_cases labelled : ∃ line ∈ block.inner, startsPrivate line = true
        · obtain ⟨list, inner⟩ := exists_privateList _ labelled
          rw [place_of_list unlisted usable block whole list inner]
          exact .listed unlisted usable block whole list inner
        · have unlabelled : ∀ line ∈ block.inner, startsPrivate line = false := by
            intro line member
            exact Bool.eq_false_iff.2 fun labels => labelled ⟨line, member, labels⟩
          rw [place_of_unlabelled unlisted usable block whole unlabelled]
          exact .labelled unlisted usable block whole unlabelled

/-! What every registration keeps. -/

/-- A text that got an entry: on a line between two lines of the document, or behind the
document. White space stands on both sides of the entry. -/
inductive Grown (document entry : List Char) : List Char → Prop
  | inside (above front ending below : List Char) (split : document = above ++ below)
      (complete : Text.Complete above)
      (blank : ∀ c, (above ++ front).getLast? = some c → Text.isBlank c = true)
      (known : ending ∈ Text.endings) :
      Grown document entry (above ++ (front ++ entry ++ ending) ++ below)
  | behind (front ending back : List Char)
      (apart : ∀ c, (document ++ front).getLast? = some c → Text.isBlank c = true)
      (start : document = [] ∨ ∃ c rest, front = c :: rest ∧ Text.isBlank c = true)
      (known : ending ∈ Text.endings) :
      Grown document entry (document ++ (front ++ entry ++ (ending ++ back)))

theorem head_blank_of_mem_endings {ending : List Char} (known : ending ∈ Text.endings)
    (back : List Char) : ∀ c, (ending ++ back).head? = some c → Text.isBlank c = true := by
  intro c first
  have blank := Text.blank_of_mem_endings known
  cases ending with
  | nil => exact absurd known (by decide)
  | cons d ending =>
    obtain rfl : d = c := by simpa using first
    exact blank d List.mem_cons_self

theorem Grown.listed_self {document entry text : List Char} (grown : Grown document entry text) :
    isListed text entry = true := by
  cases grown with
  | inside above front ending below split complete blank known =>
    have listed := isListed_between (above ++ front) entry (ending ++ below) blank
      (head_blank_of_mem_endings known below)
    simpa using listed
  | behind front ending back apart start known =>
    have listed := isListed_between (document ++ front) entry (ending ++ back) apart
      (head_blank_of_mem_endings known back)
    simpa using listed

theorem Grown.keeps {document entry text other : List Char} (grown : Grown document entry text)
    (bare : IsBare other) (listed : isListed document other = true) :
    isListed text other = true := by
  cases grown with
  | inside above front ending below split complete blank known =>
    subst split
    exact isListed_insert _ _ _ _ bare.clean complete (complete_ended _ _ known) listed
  | behind front ending back apart start known =>
    rcases start with rfl | ⟨c, rest, rfl, blank⟩
    · obtain ⟨before, after, same, -⟩ := (isListed_iff_append _ _).1 listed
      simp only [List.nil_eq, List.append_eq_nil_iff] at same
      exact absurd same.1.2 bare.trimmed.ne_nil
    · apply isListed_append document other _ _ listed
      intro d first
      obtain rfl : c = d := by simpa using first
      exact blank

theorem complete_of_cut {document : List Char} {above rest : List (List Char)}
    (split : Text.lines document = above ++ rest) (filled : rest ≠ []) :
    Text.Complete above.flatten := by
  have inside : above.length < (Text.lines document).length := by
    have positive := List.length_pos_iff.2 filled
    rw [split, List.length_append]
    omega
  have complete := Text.complete_take document above.length inside
  rwa [split, List.take_left] at complete

theorem last_blank (above front : List Char) (complete : Text.Complete above)
    (blank : ∀ c ∈ front, Text.isBlank c = true) :
    ∀ c, (above ++ front).getLast? = some c → Text.isBlank c = true := by
  intro c last
  rw [List.getLast?_append] at last
  cases final : front.getLast? with
  | none =>
    rw [final] at last
    exact Text.isBlank_of_isLineBreak c (complete c last)
  | some d =>
    rw [final] at last
    obtain rfl : d = c := Option.some.inj last
    exact blank d (List.mem_of_getLast? final)

theorem last_blank_of_append (above front back : List Char) (filled : back ≠ [])
    (blank : back.all Text.isBlank = true) :
    ∀ c, (above ++ (front ++ back)).getLast? = some c → Text.isBlank c = true := by
  intro c last
  rw [← List.append_assoc, List.getLast?_append, List.getLast?_eq_some_getLast filled] at last
  obtain rfl : back.getLast filled = c := Option.some.inj last
  exact List.all_eq_true.1 blank _ (List.getLast_mem filled)

theorem grown_of_cut {document ending : List Char} (entry : List Char)
    {above rest : List (List Char)} (split : Text.lines document = above ++ rest)
    (filled : rest ≠ []) (front : List Char)
    (blank : ∀ c, (above.flatten ++ front).getLast? = some c → Text.isBlank c = true)
    (known : ending ∈ Text.endings) :
    Grown document entry (above.flatten ++ (front ++ entry ++ ending) ++ rest.flatten) := by
  have whole := Text.flatten_lines document
  rw [split, List.flatten_append] at whole
  exact Grown.inside _ _ _ _ whole.symm (complete_of_cut split filled) blank known

theorem grown_append (document entry newline : List Char) (known : newline ∈ Text.endings) :
    Grown document entry
      (document ++ separation document newline ++ (managedBlock entry newline).flatten) := by
  have start : document = [] ∨ ∃ c rest, separation document newline = c :: rest ∧
      Text.isBlank c = true := by
    unfold separation
    have blank := Text.blank_of_mem_endings known
    cases newline with
    | nil => exact absurd known (by decide)
    | cons c rest =>
      cases last : document.getLast? with
      | none => exact Or.inl (List.getLast?_eq_none_iff.1 last)
      | some d =>
        right
        by_cases ended : d = '\n' ∨ d = '\r'
        · exact ⟨c, rest, if_pos ended, blank c List.mem_cons_self⟩
        · exact ⟨c, rest ++ c :: rest, if_neg ended, blank c List.mem_cons_self⟩
  -- the lines of the block above the entry, then those below it
  have grown := @Grown.behind document entry
    (separation document newline ++ ((managedBlock entry newline).take 4).flatten ++ indentStep ++
      indentStep) newline ((managedBlock entry newline).drop 5).flatten
    (by
      rw [List.append_assoc, ← List.append_assoc _ _ (indentStep ++ indentStep)]
      exact last_blank_of_append _ _ _ (by decide) (by decide))
    (by
      rcases start with none | ⟨c, rest, same, blank⟩
      · exact Or.inl none
      · exact Or.inr ⟨c, _, by rw [same]; rfl, blank⟩) known
  simpa [managedBlock] using grown

theorem Placed.grown {document entry : List Char} {injection : Injection}
    (placed : Placed document entry injection) (unlisted : isListed document entry = false) :
    Grown document entry injection.text := by
  have known := Text.newlineOf_mem_endings (Text.lines document)
  cases placed with
  | present listed =>
    rw [unlisted] at listed
    cases listed
  | markers _ pair whole =>
    have filled : pair.closing :: pair.below ≠ [] := List.cons_ne_nil _ _
    have grown := grown_of_cut entry whole.symm filled _
      (last_blank _ _ (complete_of_cut whole.symm filled) (indentOf_blank pair.closing)) known
    simpa using grown
  | listed _ _ block whole list inner =>
    have cut := whole.symm.trans (block.lines_eq_listed list inner)
    have filled : list.behind ++ block.foot :: block.below ≠ [] := by simp
    have grown := grown_of_cut entry cut filled _
      (last_blank _ _ (complete_of_cut cut filled) (siblingMargin_blank list.label list.listed))
      known
    simpa using grown
  | labelled _ _ block whole unlabelled =>
    have cut := whole.symm.trans block.lines_eq_inner
    have grown := grown_of_cut entry cut (by simp) _
      (last_blank_of_append _ (indentOf block.head ++ indentStep ++ privateLabel ++
        Text.newlineOf (Text.lines document) ++ indentOf block.head ++ indentStep) indentStep
        (by decide) (by decide)) known
    simpa using grown
  | append => exact grown_append document entry _ known

theorem isListed_place {document entry other : List Char} (bare : IsBare other)
    (listed : isListed document other = true) :
    isListed (place document entry).text other = true := by
  by_cases present : isListed document entry = true
  · rw [place_of_listed present]
    exact listed
  · exact ((placed_place document entry).grown (Bool.eq_false_iff.2 present)).keeps bare listed

theorem isListed_place_self (document entry : List Char) :
    isListed (place document entry).text entry = true := by
  by_cases present : isListed document entry = true
  · rw [place_of_listed present]
    exact present
  · exact ((placed_place document entry).grown (Bool.eq_false_iff.2 present)).listed_self

/-! Runs. -/

structure Run where
  steps : List Injection
  text : List Char
  deriving DecidableEq, Repr

def injectAll (document : List Char) : List (List Char) → Option Run
  | [] => some ⟨[], document⟩
  | entry :: more =>
    (inject document entry).bind fun step =>
      (injectAll step.text more).map fun rest => ⟨step :: rest.steps, rest.text⟩

theorem inject_of_isEntry (document : List Char) {entry : List Char} (valid : IsEntry entry) :
    inject document entry = some (place document (Text.trim entry)) := by
  rw [inject, if_pos valid]

theorem injectAll_cons (document entry : List Char) (more : List (List Char))
    (valid : IsEntry entry) :
    injectAll document (entry :: more) =
      (injectAll (place document (Text.trim entry)).text more).map fun rest =>
        ⟨place document (Text.trim entry) :: rest.steps, rest.text⟩ := by
  rw [injectAll, inject_of_isEntry document valid]
  rfl

/-- The entries of a run, without the white space around them, that were not yet listed when
their turn came. -/
def unlistedOf (document : List Char) : List (List Char) → List (List Char)
  | [] => []
  | entry :: more =>
    let rest := unlistedOf (place document (Text.trim entry)).text more
    if isListed document (Text.trim entry) then rest else Text.trim entry :: rest

/-- What each registration of allowed entries keeps, a run keeps. The invariant speaks of the
entries added so far and of the text they are in. -/
theorem exists_run (Kept : List (List Char) → List Char → Prop) (Reported : Injection → Prop)
    (Allowed : List Char → Prop)
    (step : ∀ added text entry, Kept added text → IsEntry entry → Allowed entry →
      Reported (place text (Text.trim entry)) ∧
        Kept (if isListed text (Text.trim entry) then added else added ++ [Text.trim entry])
          (place text (Text.trim entry)).text)
    (entries added : List (List Char)) (document : List Char) (start : Kept added document)
    (valid : ∀ entry ∈ entries, IsEntry entry) (allowed : ∀ entry ∈ entries, Allowed entry) :
    ∃ run, injectAll document entries = some run ∧ (∀ injection ∈ run.steps, Reported injection) ∧
      Kept (added ++ unlistedOf document entries) run.text := by
  induction entries generalizing added document with
  | nil => exact ⟨⟨[], document⟩, rfl, by simp, by simpa [unlistedOf] using start⟩
  | cons entry more ih =>
    have here := valid entry List.mem_cons_self
    obtain ⟨reported, kept⟩ := step added document entry start here (allowed entry List.mem_cons_self)
    obtain ⟨run, found, later, last⟩ := ih _ _ kept
      (fun other member => valid other (List.mem_cons_of_mem entry member))
      (fun other member => allowed other (List.mem_cons_of_mem entry member))
    refine ⟨⟨place document (Text.trim entry) :: run.steps, run.text⟩, ?_, ?_, ?_⟩
    · rw [injectAll_cons document entry more here, found]
      rfl
    · intro injection member
      rcases List.mem_cons.1 member with rfl | deeper
      · exact reported
      · exact later injection deeper
    · by_cases listed : isListed document (Text.trim entry) = true
      · simpa [unlistedOf, listed] using last
      · simpa [unlistedOf, listed] using last

theorem exists_run_listing (entries : List (List Char)) (document : List Char)
    (valid : ∀ entry ∈ entries, IsEntry entry) :
    ∃ run, injectAll document entries = some run ∧
      (∀ other, IsBare other → isListed document other = true → isListed run.text other = true) ∧
      ∀ entry ∈ entries, isListed run.text (Text.trim entry) = true := by
  induction entries generalizing document with
  | nil => exact ⟨⟨[], document⟩, rfl, fun _ _ listed => listed, by simp⟩
  | cons entry more ih =>
    have here := valid entry List.mem_cons_self
    obtain ⟨run, found, keeps, lists⟩ := ih (place document (Text.trim entry)).text
      (fun other member => valid other (List.mem_cons_of_mem entry member))
    refine ⟨⟨place document (Text.trim entry) :: run.steps, run.text⟩, ?_, ?_, ?_⟩
    · rw [injectAll_cons document entry more here, found]
      rfl
    · intro other bare listed
      exact keeps other bare (isListed_place bare listed)
    · intro other member
      rcases List.mem_cons.1 member with rfl | deeper
      · exact keeps _ here.isBare (isListed_place_self document _)
      · exact lists other deeper

/-- No run of registrations loses an entry: those of the run, and those found in the document
before it, are found again afterwards, and the text stays as it is. -/
theorem run_keeps_entries (document : List Char) (entries : List (List Char))
    (valid : ∀ entry ∈ entries, IsEntry entry) :
    ∃ run, injectAll document entries = some run ∧
      ∀ entry, (entry ∈ entries ∨
          ∃ before, inject document entry = some before ∧ before.strategy = .present) →
        ∃ again, inject run.text entry = some again ∧ again.outcome = .unchanged ∧
          again.strategy = .present ∧ again.text = run.text := by
  obtain ⟨run, found, keeps, lists⟩ := exists_run_listing entries document valid
  refine ⟨run, found, ?_⟩
  have again (entry : List Char) (here : IsEntry entry)
      (listed : isListed run.text (Text.trim entry) = true) :
      ∃ again, inject run.text entry = some again ∧ again.outcome = .unchanged ∧
        again.strategy = .present ∧ again.text = run.text := by
    rw [inject_of_isEntry run.text here, place_of_listed listed]
    exact ⟨_, rfl, rfl, rfl, rfl⟩
  rintro entry (member | ⟨before, reported, present⟩)
  · exact again entry (valid entry member) (lists entry member)
  · have here : IsEntry entry := by
      rw [← inject_isSome_iff document entry, reported]
      rfl
    rw [inject_of_isEntry document here] at reported
    obtain rfl := Option.some.inj reported
    exact again entry here (keeps _ here.isBare (listed_of_present present))

theorem run_keeps_entries_unlabelled_call :
    (∀ entry ∈ ["B.cpp".toList, " sub/C.cpp\r".toList], IsEntry entry) ∧
      ∃ run, injectAll "target_sources(app\r A.cpp\r)".toList
          ["B.cpp".toList, " sub/C.cpp\r".toList] = some run ∧
        ∀ entry, (entry ∈ ["B.cpp".toList, " sub/C.cpp\r".toList] ∨
            ∃ before, inject "target_sources(app\r A.cpp\r)".toList entry = some before ∧
              before.strategy = .present) →
          ∃ again, inject run.text entry = some again ∧ again.outcome = .unchanged ∧
            again.strategy = .present ∧ again.text = run.text :=
  ⟨by decide, run_keeps_entries _ _ (by decide)⟩

end JuceWorkbench.Script
