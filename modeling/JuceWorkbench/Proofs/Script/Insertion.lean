import JuceWorkbench.Proofs.Text.Line
import JuceWorkbench.Script.Injection

/-! Lines that are put into a script. An entry stands alone on the line made for it,
`StandsOn`, and every scan of the script sees the entry there and nothing else. The line
falls between the lines it was put between when the script is split again: `lines_insert`. -/

namespace JuceWorkbench.Script

/-- An entry without the white space around it. -/
structure IsBare (entry : List Char) : Prop where
  trimmed : Text.IsTrimmed entry
  clean : ∀ c ∈ entry, Text.isLineBreak c = false

theorem prefix_body_of_dark (front body ending : List Char) (d : Char)
    (dark : Text.isBlank d = false) (breaks : ∀ c ∈ ending, Text.isLineBreak c = true)
    (reaches : front ++ [d] <+: body ++ ending) : front ++ [d] <+: body := by
  rcases List.prefix_or_prefix_of_prefix reaches (List.prefix_append body ending) with inside | beyond
  · exact inside
  · obtain ⟨rest, same⟩ := beyond
    rcases List.eq_nil_or_concat rest with rfl | ⟨init, e, longer⟩
    · exact ⟨[], by simpa using same.symm⟩
    · rw [List.concat_eq_append] at longer
      subst longer
      have last : e = d := by
        rw [← List.append_assoc] at same
        exact (List.append_inj' same rfl).2 |> List.singleton_inj.1
      rw [← same, List.prefix_append_right_inj] at reaches
      have blank := Text.isBlank_of_isLineBreak e
        (breaks e (reaches.subset (List.mem_append_right init List.mem_cons_self)))
      rw [last, dark] at blank
      cases blank

theorem lines_eq_singleton (entry : List Char) (dark : Text.trim entry ≠ [])
    (short : (Text.lines entry).length ≤ 1) : Text.lines entry = [entry] := by
  have whole := Text.flatten_lines entry
  match split : Text.lines entry with
  | [] =>
    rw [split] at whole
    subst whole
    exact absurd rfl dark
  | [line] =>
    rw [split] at whole
    have same : line = entry := by simpa using whole
    rw [same]
  | first :: second :: more =>
    rw [split] at short
    simp at short

theorem IsEntry.isBare {entry : List Char} (valid : IsEntry entry) : IsBare (Text.trim entry) := by
  have trimmed := Text.isTrimmed_trim entry valid.1
  refine ⟨trimmed, ?_⟩
  have member : entry ∈ Text.lines entry := by
    rw [lines_eq_singleton entry valid.1 valid.2]
    exact List.mem_singleton_self entry
  obtain ⟨body, ending, same, clean, breaks⟩ := Text.exists_body_of_mem_lines entry entry member
  obtain ⟨front, back, padded, -, -⟩ := Text.exists_padding entry
  obtain ⟨init, d, last, dark⟩ := trimmed.last
  have reaches : front ++ init ++ [d] <+: body ++ ending := by
    rw [← same, List.append_assoc, ← last]
    exact ⟨back, padded.symm⟩
  have inside := prefix_body_of_dark _ _ _ _ dark breaks reaches
  intro c found
  refine clean c (inside.subset ?_)
  rw [List.append_assoc, ← last]
  exact List.mem_append_right front found

theorem IsBare.isEntry {entry : List Char} (bare : IsBare entry) : IsEntry entry := by
  have filled := bare.trimmed.ne_nil
  refine ⟨bare.trimmed.trim.symm ▸ filled, ?_⟩
  rw [Text.lines_body bare.clean filled]
  exact Nat.le_refl 1

/-! The indentation of a line. -/

theorem indentOf_start (line : List Char) : indentOf line <+: line := by
  have inner : indentOf line <+: dropEnding line := List.takeWhile_prefix _
  have outer : dropEnding line <+: line := by
    unfold dropEnding
    rw [← List.reverse_suffix, List.reverse_reverse]
    exact List.dropWhile_suffix _
  exact inner.trans outer

theorem indentOf_blank (line : List Char) : ∀ c ∈ indentOf line, Text.isBlank c = true :=
  Text.margin_blank (dropEnding line)

theorem indentOf_clean (text line : List Char) (member : line ∈ Text.lines text) (d : Char)
    (found : d ∈ line) (dark : Text.isBlank d = false) :
    ∀ c ∈ indentOf line, Text.isLineBreak c = false := by
  obtain ⟨body, ending, same, clean, breaks⟩ := Text.exists_body_of_mem_lines text line member
  obtain ⟨front, back, split⟩ := List.append_of_mem found
  have reaches : front ++ [d] <+: body ++ ending := by
    rw [← same]
    exact ⟨back, by simp [split]⟩
  have inside := prefix_body_of_dark _ _ _ _ dark breaks reaches
  have short : indentOf line <+: front := by
    have starts : front <+: line := ⟨d :: back, split.symm⟩
    rcases List.prefix_or_prefix_of_prefix (indentOf_start line) starts with within | beyond
    · exact within
    · obtain ⟨rest, longer⟩ := beyond
      cases rest with
      | nil => exact ⟨[], by simpa using longer.symm⟩
      | cons e rest =>
        have start := indentOf_start line
        rw [← longer, split, List.prefix_append_right_inj] at start
        have blank := indentOf_blank line e (by rw [← longer]; simp)
        rw [(List.cons_prefix_cons.1 start).1, dark] at blank
        cases blank
  intro c reached
  exact clean c (inside.subset (List.mem_append_left [d] (short.subset reached)))

theorem indentStep_blank : ∀ c ∈ indentStep, Text.isBlank c = true :=
  List.all_eq_true.1 (by decide)

theorem indentStep_clean : ∀ c ∈ indentStep, Text.isLineBreak c = false :=
  Text.forall_eq_false_of_any (by decide)

/-! A line made for an entry. -/

/-- The entry stands alone on the line, behind white space and in front of a line ending. -/
def StandsOn (entry line : List Char) : Prop :=
  ∃ margin ending, line = margin ++ entry ++ ending ∧
    (∀ c ∈ margin, Text.isBlank c = true ∧ Text.isLineBreak c = false) ∧ ending ∈ Text.endings

section StandsOn

variable {entry line : List Char}

theorem StandsOn.trim (stands : StandsOn entry line) (trimmed : Text.IsTrimmed entry) :
    Text.trim line = entry := by
  obtain ⟨margin, ending, rfl, blank, known⟩ := stands
  exact Text.trim_padded _ _ _ trimmed (fun c member => (blank c member).1)
    (Text.blank_of_mem_endings known)

theorem StandsOn.contains (stands : StandsOn entry line) (part : List Char)
    (trimmed : Text.IsTrimmed part) : Text.contains line part = Text.contains entry part := by
  obtain ⟨margin, ending, rfl, blank, known⟩ := stands
  rw [Bool.eq_iff_iff, Text.contains_iff, Text.contains_iff]
  exact Text.infix_padded_iff _ _ _ _ trimmed (fun c member => (blank c member).1)
    (Text.blank_of_mem_endings known)

theorem StandsOn.trimLeft (stands : StandsOn entry line) (trimmed : Text.IsTrimmed entry) :
    ∃ ending ∈ Text.endings, Text.trimLeft line = entry ++ ending := by
  obtain ⟨margin, ending, rfl, blank, known⟩ := stands
  refine ⟨ending, known, ?_⟩
  rw [List.append_assoc, Text.trimLeft_append_of_blank _ _ (fun c member => (blank c member).1),
    trimmed.trimLeft]

theorem StandsOn.count (stands : StandsOn entry line) (c : Char) (dark : Text.isBlank c = false) :
    line.count c = entry.count c := by
  obtain ⟨margin, ending, rfl, blank, known⟩ := stands
  have none (text : List Char) (all : ∀ d ∈ text, Text.isBlank d = true) : text.count c = 0 := by
    rw [List.count_eq_zero]
    intro member
    rw [all c member] at dark
    cases dark
  rw [List.count_append, List.count_append, none margin fun d member => (blank d member).1,
    none ending (Text.blank_of_mem_endings known), Nat.zero_add, Nat.add_zero]

theorem StandsOn.parenBalance (stands : StandsOn entry line) :
    Script.parenBalance line = Script.parenBalance entry := by
  unfold Script.parenBalance
  rw [stands.count '(' (by decide), stands.count ')' (by decide)]

theorem StandsOn.isPrefixOf_trimLeft (stands : StandsOn entry line)
    (trimmed : Text.IsTrimmed entry) (label : List Char)
    (dark : label.any Text.isBlank = false) :
    label.isPrefixOf (Text.trimLeft line) = label.isPrefixOf entry := by
  obtain ⟨ending, known, same⟩ := stands.trimLeft trimmed
  rw [same, Bool.eq_iff_iff, List.isPrefixOf_iff_prefix, List.isPrefixOf_iff_prefix]
  constructor
  · intro starts
    rcases List.prefix_or_prefix_of_prefix starts (List.prefix_append entry ending) with
      inside | ⟨rest, longer⟩
    · exact inside
    · cases rest with
      | nil => exact ⟨[], by simpa using longer.symm⟩
      | cons c rest =>
        rw [← longer, List.prefix_append_right_inj] at starts
        have blank := Text.blank_of_mem_endings known c (starts.subset List.mem_cons_self)
        rw [Text.forall_eq_false_of_any dark c (by rw [← longer]; simp)] at blank
        cases blank
  · intro starts
    exact starts.trans (List.prefix_append entry ending)

end StandsOn

theorem trimLeft_of_isBare {entry : List Char} (bare : IsBare entry) :
    Text.trimLeft entry = entry := by
  simpa using bare.trimmed.trimLeft []

theorem StandsOn.startsPrivate {entry line : List Char} (stands : StandsOn entry line)
    (bare : IsBare entry) : Script.startsPrivate line = Script.startsPrivate entry := by
  unfold Script.startsPrivate
  rw [stands.isPrefixOf_trimLeft bare.trimmed _ (by decide), trimLeft_of_isBare bare]

theorem StandsOn.endsList {entry line : List Char} (stands : StandsOn entry line)
    (bare : IsBare entry) : Script.endsList line = Script.endsList entry := by
  simp only [Script.endsList, Script.startsWithLabel, sectionLabels, List.any_cons, List.any_nil]
  rw [trimLeft_of_isBare bare, stands.isPrefixOf_trimLeft bare.trimmed _ (by decide),
    stands.isPrefixOf_trimLeft bare.trimmed _ (by decide),
    stands.isPrefixOf_trimLeft bare.trimmed _ (by decide),
    stands.isPrefixOf_trimLeft bare.trimmed _ (by decide)]

/-! The line in the script. -/

theorem complete_ended (text ending : List Char) (known : ending ∈ Text.endings) :
    Text.Complete (text ++ ending) := by
  obtain ⟨front, c, rfl, breaks⟩ := Text.exists_break_of_mem_endings known
  rw [← List.append_assoc]
  exact Text.complete_append_singleton _ c breaks

theorem head?_ne_feed (body rest : List Char) (filled : body ≠ [])
    (clean : ∀ c ∈ body, Text.isLineBreak c = false) : (body ++ rest).head? ≠ some '\n' := by
  cases body with
  | nil => exact absurd rfl filled
  | cons c body =>
    intro feeds
    have plain := clean c List.mem_cons_self
    rw [Option.some.inj feeds] at plain
    exact absurd plain (by decide)

section Insert

variable {document : List Char} {above rest : List (List Char)} {margin entry ending : List Char}

/-- An entry put in front of a line of a document gets a line there. The ending of that line takes
in the next line if the two make one line break. -/
theorem lines_insert (split : Text.lines document = above ++ rest) (more : rest ≠ [])
    (bare : IsBare entry) (clean : ∀ c ∈ margin, Text.isLineBreak c = false)
    (known : ending ∈ Text.endings) :
    ∃ last below, last ∈ Text.endings ∧
      Text.lines (above ++ [margin ++ entry ++ ending] ++ rest).flatten =
        above ++ (margin ++ entry ++ last) :: below ∧
      (last = ending ∧ below = rest ∨ rest = ['\n'] :: below) := by
  have inside : above.length < (Text.lines document).length := by
    have positive := List.length_pos_iff.2 more
    rw [split, List.length_append]
    omega
  have complete := Text.complete_take document above.length inside
  have taken := Text.lines_take document above.length
  have dropped := Text.lines_drop document above.length
  rw [split, List.take_left] at complete taken
  rw [split, List.drop_left] at dropped
  have filled : margin ++ entry ≠ [] := by simp [bare.trimmed.ne_nil]
  have plain : ∀ c ∈ margin ++ entry, Text.isLineBreak c = false :=
    List.forall_mem_append.2 ⟨clean, bare.clean⟩
  obtain ⟨last, below, member, line, which⟩ := Text.lines_ended _ ending rest plain known dropped
  refine ⟨last, below, member, ?_, which⟩
  have whole : (above ++ [margin ++ entry ++ ending] ++ rest).flatten =
      above.flatten ++ (margin ++ entry ++ (ending ++ rest.flatten)) := by simp
  rw [whole, Text.lines_append _ _ complete fun _ => head?_ne_feed _ _ filled plain, taken,
    ← List.append_assoc (margin ++ entry), line]

/-- In front of a line that is more than a line feed the new line keeps its ending. -/
theorem lines_insert_of_apart (split : Text.lines document = above ++ rest) (more : rest ≠ [])
    (apart : rest.head? ≠ some ['\n']) (bare : IsBare entry)
    (clean : ∀ c ∈ margin, Text.isLineBreak c = false) (known : ending ∈ Text.endings) :
    Text.lines (above ++ [margin ++ entry ++ ending] ++ rest).flatten =
      above ++ [margin ++ entry ++ ending] ++ rest := by
  obtain ⟨last, below, -, same, ⟨rfl, rfl⟩ | merged⟩ := lines_insert split more bare clean known
  · rw [same]
    simp
  · exact absurd (by rw [merged]; rfl) apart

theorem lines_insert_two {first : List Char} {outer : List Char}
    (split : Text.lines document = above ++ rest) (more : rest ≠ [])
    (bareFirst : IsBare first) (cleanOuter : ∀ c ∈ outer, Text.isLineBreak c = false)
    (bare : IsBare entry) (clean : ∀ c ∈ margin, Text.isLineBreak c = false)
    (known : ending ∈ Text.endings) :
    ∃ last below, last ∈ Text.endings ∧
      Text.lines (above ++ [outer ++ first ++ ending, margin ++ entry ++ ending] ++ rest).flatten =
        above ++ (outer ++ first ++ ending) :: (margin ++ entry ++ last) :: below ∧
      (last = ending ∧ below = rest ∨ rest = ['\n'] :: below) := by
  obtain ⟨last, below, member, lower, which⟩ := lines_insert split more bare clean known
  refine ⟨last, below, member, ?_, which⟩
  have apart : ((margin ++ entry ++ last) :: below).head? ≠ some ['\n'] := by
    intro feed
    have same : margin ++ entry ++ last = ['\n'] := Option.some.inj feed
    obtain ⟨c, tail, starts, dark⟩ := bare.trimmed.head
    have hit : c ∈ margin ++ entry ++ last := by simp [starts]
    rw [same, List.mem_singleton] at hit
    rw [hit] at dark
    exact absurd dark (by decide)
  have upper := lines_insert_of_apart lower (by simp) apart bareFirst cleanOuter known
  have whole := Text.flatten_lines (above ++ [margin ++ entry ++ ending] ++ rest).flatten
  rw [lower] at whole
  have tail : last ++ below.flatten = ending ++ rest.flatten := by simpa using whole
  have text : (above ++ [outer ++ first ++ ending, margin ++ entry ++ ending] ++ rest).flatten =
      (above ++ [outer ++ first ++ ending] ++ (margin ++ entry ++ last) :: below).flatten := by
    simp [tail]
  rw [text, upper]
  simp

end Insert

end JuceWorkbench.Script
