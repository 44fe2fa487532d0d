import JuceWorkbench.Proofs.Script.CallInsertion
import JuceWorkbench.Proofs.Script.MarkerRun

/-! What a registration writes, character by character. The document is cut in front of one of its
lines, or left whole, and text is put into the cut: a line with the indentation of a reference
line, a label and a line, or a managed block. All other characters stay: `inject_keeps_document`. -/

namespace JuceWorkbench.Text

def firstEnding : List Char → List Char
  | [] => ['\n']
  | '\r' :: '\n' :: _ => ['\r', '\n']
  | c :: rest => if c = '\r' ∨ c = '\n' then [c] else firstEnding rest

theorem newlineOf_prepend (c : Char) (document : List (List Char)) (plain : isLineBreak c = false) :
    newlineOf (prepend [c] document) = newlineOf document := by
  have feed : c ≠ '\n' := by
    rintro rfl
    cases plain
  have returns : c ≠ '\r' := by
    rintro rfl
    cases plain
  cases document with
  | nil => simp [prepend, newlineOf, feed, returns]
  | cons line more =>
    -- the last two characters of the line decide, and the new one is neither
    simp only [prepend, List.singleton_append, newlineOf, List.reverse_cons]
    rcases line.reverse with _ | ⟨d, before⟩
    · simp [feed, returns]
    · by_cases feeds : d = '\n'
      · subst feeds
        rcases before with _ | ⟨e, before⟩
        · simp [returns]
        · by_cases pair : e = '\r'
          · simp [pair]
          · simp [pair]
      · by_cases returned : d = '\r'
        · simp [returned]
        · simp [feeds, returned]

theorem newlineOf_lines (text : List Char) : newlineOf (lines text) = firstEnding text := by
  fun_induction lines text with
  | case1 => rfl
  | case2 rest ih => rfl
  | case3 c rest notPair breaks ih =>
    rw [firstEnding.eq_3 _ _ notPair]
    by_cases ending : c = '\r' ∨ c = '\n'
    · rw [if_pos ending]
      rcases ending with rfl | rfl
      · rfl
      · rfl
    · rw [if_neg ending, ← ih]
      rw [not_or] at ending
      simp [newlineOf, ending]
  | case4 c rest notPair plain ih =>
    have still : isLineBreak c = false := Bool.eq_false_iff.2 plain
    have other : ¬ (c = '\r' ∨ c = '\n') := by
      rintro (rfl | rfl)
      · cases still
      · cases still
    rw [firstEnding.eq_3 _ _ notPair, if_neg other, newlineOf_prepend c _ still, ih]

end JuceWorkbench.Text

namespace JuceWorkbench.Script

/-- A document in two parts: all lines of the first end in a line break, and no break is torn. -/
structure LineCut (document front back : List Char) : Prop where
  whole : document = front ++ back
  lines : Text.lines document = Text.lines front ++ Text.lines back
  ends : ∃ c, front.getLast? = some c ∧ Text.isLineBreak c = true

theorem lineCut_of_lines {document : List Char} {above rest : List (List Char)}
    (split : Text.lines document = above ++ rest) (start : above ≠ []) (filled : rest ≠ []) :
    LineCut document above.flatten rest.flatten where
  whole := by
    have whole := Text.flatten_lines document
    rw [split, List.flatten_append] at whole
    exact whole.symm
  lines := by
    have taken := Text.lines_take document above.length
    have dropped := Text.lines_drop document above.length
    rw [split, List.take_left] at taken
    rw [split, List.drop_left] at dropped
    rw [taken, dropped, split]
  ends := by
    obtain ⟨n, length⟩ := Nat.exists_eq_succ_of_ne_zero (mt List.length_eq_zero_iff.1 start)
    have inside : n + 1 < (Text.lines document).length := by
      have positive := List.length_pos_iff.2 filled
      rw [split, List.length_append]
      omega
    obtain ⟨front, c, same, breaks⟩ := Text.exists_break_of_take document n inside
    rw [split, ← Nat.succ_eq_add_one, ← length, List.take_left] at same
    exact ⟨c, by rw [same, List.getLast?_concat], breaks⟩

/-! Indentation. -/

theorem indentOf_eq_margin (line : List Char) (d : Char) (found : d ∈ line)
    (dark : Text.isBlank d = false) : indentOf line = Text.margin line := by
  have kept := List.takeWhile_append_dropWhile (p := fun c => c == '\r' || c == '\n')
    (l := line.reverse)
  have split : line = dropEnding line ++
      (line.reverse.takeWhile fun c => c == '\r' || c == '\n').reverse := by
    rw [dropEnding, ← List.reverse_append, kept, List.reverse_reverse]
  have inside : d ∈ dropEnding line := by
    rw [split] at found
    rcases List.mem_append.1 found with early | late
    · exact early
    · have ending := List.all_eq_true.1 List.all_takeWhile d (List.mem_reverse.1 late)
      simp only [Bool.or_eq_true, beq_iff_eq] at ending
      rcases ending with rfl | rfl
      · cases dark
      · cases dark
  have short : (Text.margin (dropEnding line)).length ≠ (dropEnding line).length := by
    intro same
    have all : Text.margin (dropEnding line) = dropEnding line :=
      (List.takeWhile_prefix _).eq_of_length same
    have blank := Text.margin_blank (dropEnding line) d (by rw [all]; exact inside)
    rw [dark] at blank
    cases blank
  calc
    indentOf line = Text.margin (dropEnding line) := rfl
    _ = Text.margin (dropEnding line ++
          (line.reverse.takeWhile fun c => c == '\r' || c == '\n').reverse) := by
      symm
      rw [Text.margin, List.takeWhile_append]
      exact if_neg short
    _ = Text.margin line := by rw [← split]

/-- The white space in front of a new entry of a list: that of the first line of the list that is
not blank, and four spaces more than that of the label when there is none. -/
def entryMargin (label : List Char) (listed : List (List Char)) : List Char :=
  match listed.find? fun line => !(Text.trim line).isEmpty with
  | some sibling => Text.margin sibling
  | none => Text.margin label ++ "    ".toList

theorem siblingMargin_eq_entryMargin (label : List Char) (listed : List (List Char))
    (labels : startsPrivate label = true) : siblingMargin label listed = entryMargin label listed := by
  unfold siblingMargin entryMargin
  cases found : listed.find? fun line => !(Text.trim line).isEmpty with
  | some sibling =>
    obtain ⟨d, inner, dark⟩ := exists_dark_of_trim sibling (by simpa using List.find?_some found)
    exact indentOf_eq_margin sibling d inner dark
  | none =>
    have inner := exists_dark_of_starts privateLabel label 'P' (by decide) labels
    rw [indentOf_eq_margin label 'P' inner (by decide)]
    rfl

theorem MarkerPair.indentOf_closing (pair : MarkerPair) :
    indentOf pair.closing = Text.margin pair.closing :=
  indentOf_eq_margin pair.closing '#' pair.hash_mem_closing (by decide)

theorem CallBlock.indentOf_head (block : CallBlock) : indentOf block.head = Text.margin block.head := by
  have opens := block.opens
  simp only [opensCall, Bool.and_eq_true] at opens
  have inner := exists_dark_of_starts callName block.head 't' (by decide) opens.1
  exact indentOf_eq_margin block.head 't' inner (by decide)

/-! The text of a registration. -/

/-- What stands between a document and the block behind it: nothing at the start, a line ending
behind a line that is complete, and two behind one that is not. -/
def IsGap (document newline gap : List Char) : Prop :=
  (document = [] ∧ gap = []) ∨
    ((document.getLast? = some '\n' ∨ document.getLast? = some '\r') ∧ gap = newline) ∨
    (document ≠ [] ∧ document.getLast? ≠ some '\n' ∧ document.getLast? ≠ some '\r' ∧
      gap = newline ++ newline)

theorem isGap_separation (document newline : List Char) :
    IsGap document newline (separation document newline) := by
  unfold IsGap separation
  cases last : document.getLast? with
  | none => exact Or.inl ⟨List.getLast?_eq_none_iff.1 last, rfl⟩
  | some c =>
    right
    by_cases ended : c = '\n' ∨ c = '\r'
    · left
      simp [ended]
    · right
      have filled : document ≠ [] := by
        rintro rfl
        cases last
      rw [not_or] at ended
      simp [ended, filled]

/-- The text of a registration is the document with one text put into a cut, or behind it. -/
def KeepsDocument (document entry : List Char) (injection : Injection) : Prop :=
  let newline := Text.firstEnding document
  match injection.strategy with
  | .present => injection.text = document
  | .markers =>
    ∃ pair : MarkerPair, pair.lines = Text.lines document ∧
      LineCut document pair.above.flatten (pair.closing :: pair.below).flatten ∧
      injection.text = pair.above.flatten ++ (Text.margin pair.closing ++ entry ++ newline) ++
        (pair.closing :: pair.below).flatten
  | .targetSources =>
    ∃ block : CallBlock, block.lines = Text.lines document ∧ ∃ front back, LineCut document front back ∧
      ((∃ list : PrivateList, list.lines = block.inner ∧
          front = (block.toLabel list ++ list.listed).flatten ∧
          injection.text = front ++ (entryMargin list.label list.listed ++ entry ++ newline) ++ back) ∨
        ((∀ line ∈ block.inner, startsPrivate line = false) ∧
          front = (block.above ++ [block.head]).flatten ∧
          injection.text = front ++
            ((Text.margin block.head ++ "    PRIVATE".toList ++ newline) ++
              (Text.margin block.head ++ "        ".toList ++ entry ++ newline)) ++ back))
  | .append =>
    ∃ gap, IsGap document newline gap ∧
      injection.text = document ++ gap ++ (managedBlock entry newline).flatten

theorem Placed.keepsDocument {document entry : List Char} {injection : Injection}
    (placed : Placed document entry injection) : KeepsDocument document entry injection := by
  have newline := Text.newlineOf_lines document
  cases placed with
  | present => rfl
  | markers _ pair whole =>
    have start : pair.above ≠ [] := by
      obtain ⟨line, member, -⟩ := pair.begins
      exact List.ne_nil_of_mem member
    refine ⟨pair, whole, lineCut_of_lines whole.symm start (List.cons_ne_nil _ _), ?_⟩
    simp [newline, pair.indentOf_closing]
  | listed _ _ block whole list inner =>
    have cut := lineCut_of_lines (whole.symm.trans (block.lines_eq_listed list inner))
      (by simp [CallBlock.toLabel]) (by simp)
    refine ⟨block, whole, _, _, cut, Or.inl ⟨list, inner, rfl, ?_⟩⟩
    simp [newline, siblingMargin_eq_entryMargin _ _ list.labels]
  | labelled _ _ block whole unlabelled =>
    have cut := lineCut_of_lines (whole.symm.trans block.lines_eq_inner) (by simp) (by simp)
    refine ⟨block, whole, _, _, cut, Or.inr ⟨unlabelled, rfl, ?_⟩⟩
    have label : "    PRIVATE".toList = indentStep ++ privateLabel := by decide
    have step : "        ".toList = indentStep ++ indentStep := by decide
    rw [newline, block.indentOf_head, label, step]
    simp only [List.flatten_append, List.flatten_cons, List.flatten_nil, List.append_nil,
      List.append_assoc]
  | append =>
    refine ⟨separation document (Text.firstEnding document), isGap_separation _ _, ?_⟩
    simp [newline]

/-- A registration keeps every character of the document. It puts one line in front of the end
marker or at the end of a private list, with the indentation found there; a label and a line
behind the line that opens a call; or a managed block behind the document. -/
theorem inject_keeps_document (document entry : List Char) (valid : IsEntry entry) :
    ∃ injection, inject document entry = some injection ∧
      KeepsDocument document (Text.trim entry) injection :=
  ⟨_, inject_of_isEntry document valid, (placed_place document _).keepsDocument⟩

theorem inject_keeps_document_mixed_breaks :
    IsEntry " b.cpp\t".toList ∧
      KeepsDocument "project(p)\u0085target_sources(app\r\n  PRIVATE\n\n\ta.cpp\n)".toList
        "b.cpp".toList
        ⟨"project(p)\u0085target_sources(app\r\n  PRIVATE\n\n\ta.cpp\n\tb.cpp\r\n)".toList,
          .targetSources⟩ := by
  have valid : IsEntry " b.cpp\t".toList := by decide
  have done : inject "project(p)\u0085target_sources(app\r\n  PRIVATE\n\n\ta.cpp\n)".toList
      " b.cpp\t".toList =
      some ⟨"project(p)\u0085target_sources(app\r\n  PRIVATE\n\n\ta.cpp\n\tb.cpp\r\n)".toList,
        .targetSources⟩ := by decide
  obtain ⟨injection, found, keeps⟩ := inject_keeps_document
    "project(p)\u0085target_sources(app\r\n  PRIVATE\n\n\ta.cpp\n)".toList _ valid
  obtain rfl := Option.some.inj (found.symm.trans done)
  exact ⟨valid, keeps⟩

end JuceWorkbench.Script
