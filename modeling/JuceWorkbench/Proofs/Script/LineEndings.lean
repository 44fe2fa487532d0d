import JuceWorkbench.Proofs.Script.ManagedBlock
import JuceWorkbench.Proofs.Text.Uniform

/-! Registrations in a document with line breaks of one kind. The new lines take this kind, and none
of them joins another: the lines of the result are the old ones with one line, two lines or a managed
block put among them, `inject_keeps_line_breaks`. -/

namespace JuceWorkbench.Script

def Inserts (document text : List Char) (above added below : List (List Char)) : Prop :=
  Text.lines document = above ++ below ∧ Text.lines text = above ++ added ++ below

def completed (newline line : List Char) : List Char := if newline <:+ line then line else line ++ newline

/-- The lines of a document stay: one line comes to them at the end marker or at the end of a private
list, a label and a line behind the line that opens a call, or an empty line and a managed block
behind all of them. -/
def KeepsLines (document entry newline : List Char) (injection : Injection) : Prop :=
  match injection.strategy with
  | .present => injection.text = document
  | .markers =>
    ∃ pair : MarkerPair, Inserts document injection.text pair.above
      [Text.margin pair.closing ++ entry ++ newline] (pair.closing :: pair.below)
  | .targetSources =>
    ∃ block : CallBlock,
      (∃ list : PrivateList, list.lines = block.inner ∧
        Inserts document injection.text (block.toLabel list ++ list.listed)
          [entryMargin list.label list.listed ++ entry ++ newline]
          (list.behind ++ block.foot :: block.below)) ∨
      ((∀ line ∈ block.inner, startsPrivate line = false) ∧
        Inserts document injection.text (block.above ++ [block.head])
          [Text.margin block.head ++ indentStep ++ privateLabel ++ newline,
            Text.margin block.head ++ indentStep ++ indentStep ++ entry ++ newline]
          (block.inner ++ block.foot :: block.below))
  | .append =>
    ∃ init last, Text.lines document = init ++ [last] ∧
      Text.lines injection.text =
        init ++ [completed newline last, newline] ++ managedBlock entry newline

section Uniform

variable {document entry newline : List Char} {above added below : List (List Char)}

theorem endsBy_of_clean (newline : List Char) {body : List Char}
    (clean : ∀ c ∈ body, Text.isLineBreak c = false) :
    Text.EndsBy newline (body ++ newline) := ⟨body, rfl, clean⟩

theorem inserts_of_uniform (known : newline ∈ Text.endings) (uniform : Text.IsUniform newline (Text.lines document))
    (split : Text.lines document = above ++ below) (more : below ≠ [])
    (ended : ∀ line ∈ added, Text.EndsBy newline line) :
    Text.BreaksBy newline (above ++ added ++ below).flatten ∧
      Inserts document (above ++ added ++ below).flatten above added below := by
  rw [split] at uniform
  have after := uniform.insert more ended
  exact ⟨after.breaksBy known, split, after.lines_flatten known⟩

theorem completed_ended {line : List Char} (ends : Text.EndsBy newline line) :
    completed newline line = line := by
  obtain ⟨body, rfl, -⟩ := ends
  exact if_pos (List.suffix_append body newline)

theorem completed_clean (known : newline ∈ Text.endings) {line : List Char}
    (clean : ∀ c ∈ line, Text.isLineBreak c = false) : completed newline line = line ++ newline := by
  refine if_neg fun suffix => ?_
  obtain ⟨front, c, same, breaks⟩ := Text.exists_break_of_mem_endings known
  have plain := clean c (suffix.subset (by simp [same]))
  rw [plain] at breaks
  cases breaks

theorem separation_append (front : List Char) {line : List Char} (filled : line ≠ []) :
    separation (front ++ line) newline = separation line newline := by
  obtain ⟨init, c, rfl⟩ := (List.eq_nil_or_concat line).resolve_left filled
  simp [separation]

theorem separation_ended (known : newline ∈ Text.endings) {line : List Char}
    (ends : Text.EndsBy newline line) : separation line newline = newline := by
  obtain ⟨body, rfl, -⟩ := ends
  simp only [Text.endings, List.mem_cons, List.not_mem_nil, or_false] at known
  rcases known with rfl | rfl | rfl <;> simp [separation]

theorem separation_clean {line : List Char} (filled : line ≠ [])
    (clean : ∀ c ∈ line, Text.isLineBreak c = false) : separation line newline = newline ++ newline := by
  obtain ⟨init, c, rfl⟩ := (List.eq_nil_or_concat line).resolve_left filled
  have plain := clean c (by simp)
  have other : ¬(c = '\n' ∨ c = '\r') := by
    rintro (rfl | rfl) <;> exact absurd plain (by decide)
  simp [separation, other]

theorem endsBy_managedBlock (bare : IsBare entry) :
    ∀ line ∈ managedBlock entry newline, Text.EndsBy newline line := by
  intro line member
  rw [managedBlock_eq] at member
  obtain ⟨body, inside, rfl⟩ := List.mem_map.1 member
  exact endsBy_of_clean newline (blockBodies_clean bare body inside)

theorem append_of_uniform (known : newline ∈ Text.endings) (bare : IsBare entry)
    (uniform : Text.IsUniform newline (Text.lines document)) (filled : document ≠ []) :
    ∃ init last, Text.lines document = init ++ [last] ∧
      (∀ line ∈ init ++ [completed newline last, newline] ++ managedBlock entry newline,
        Text.EndsBy newline line) ∧
      document ++ separation document newline ++ (managedBlock entry newline).flatten =
        (init ++ [completed newline last, newline] ++ managedBlock entry newline).flatten := by
  obtain ⟨init, last, split⟩ := (List.eq_nil_or_concat (Text.lines document)).resolve_left
    (Text.lines_ne_nil filled)
  rw [List.concat_eq_append] at split
  rw [split] at uniform
  obtain ⟨front, alone⟩ := uniform.endsBy_of_append (List.cons_ne_nil last [])
  have text := Text.flatten_lines document
  rw [split] at text
  have blank : Text.EndsBy newline newline := ⟨[], rfl, by simp⟩
  have ended (ends : Text.EndsBy newline (completed newline last)) :
      ∀ line ∈ init ++ [completed newline last, newline] ++ managedBlock entry newline,
        Text.EndsBy newline line :=
    List.forall_mem_append.2 ⟨List.forall_mem_append.2 ⟨front, by simp [ends, blank]⟩, endsBy_managedBlock bare⟩
  refine ⟨init, last, split, ?_⟩
  cases alone with
  | last clean full =>
    have complete := completed_clean known clean
    refine ⟨ended (complete ▸ endsBy_of_clean newline clean), ?_⟩
    rw [← text, List.flatten_append, List.flatten_singleton, separation_append _ full,
      separation_clean full clean, complete]
    simp
  | ended ends rest =>
    have complete := completed_ended ends
    refine ⟨ended (complete.symm ▸ ends), ?_⟩
    rw [← text, List.flatten_append, List.flatten_singleton, separation_append _ (ends.ne_nil known),
      separation_ended known ends, complete]
    simp

end Uniform

theorem Placed.keepsLines {document entry newline : List Char} {injection : Injection}
    (placed : Placed document entry injection) (known : newline ∈ Text.endings)
    (breaks : Text.BreaksBy newline document) (broken : ∃ c ∈ document, Text.isLineBreak c = true)
    (bare : IsBare entry) :
    Text.BreaksBy newline injection.text ∧ KeepsLines document entry newline injection := by
  have uniform := breaks.isUniform known
  have ending : Text.newlineOf (Text.lines document) = newline := by
    refine uniform.newlineOf known ?_
    obtain ⟨c, member, breaks⟩ := broken
    rw [← Text.flatten_lines document] at member
    obtain ⟨line, among, inside⟩ := List.mem_flatten.1 member
    exact ⟨line, among, c, inside, breaks⟩
  cases placed with
  | present => exact ⟨breaks, rfl⟩
  | markers _ pair whole =>
    have ends := endsBy_of_clean newline
      (List.forall_mem_append.2 ⟨pair.indentOf_closing_clean whole, bare.clean⟩)
    obtain ⟨kind, inserts⟩ := inserts_of_uniform known uniform whole.symm (List.cons_ne_nil _ _)
      (List.forall_mem_singleton.2 ends)
    rw [pair.indentOf_closing] at kind inserts
    rw [ending, pair.indentOf_closing]
    exact ⟨kind, pair, inserts⟩
  | listed _ _ block whole list inner =>
    have ends := endsBy_of_clean newline
      (List.forall_mem_append.2 ⟨block.siblingMargin_clean_of_list whole inner, bare.clean⟩)
    obtain ⟨kind, inserts⟩ := inserts_of_uniform known uniform
      (whole.symm.trans (block.lines_eq_listed list inner)) (by simp) (List.forall_mem_singleton.2 ends)
    rw [siblingMargin_eq_entryMargin _ _ list.labels] at kind inserts
    rw [ending, siblingMargin_eq_entryMargin _ _ list.labels]
    exact ⟨kind, block, Or.inl ⟨list, inner, inserts⟩⟩
  | labelled _ _ block whole unlabelled =>
    have label := endsBy_of_clean newline
      (List.forall_mem_append.2 ⟨block.labelMargin_clean whole, isBare_privateLabel.clean⟩)
    have ends := endsBy_of_clean newline
      (List.forall_mem_append.2 ⟨block.newEntryMargin_clean whole, bare.clean⟩)
    obtain ⟨kind, inserts⟩ := inserts_of_uniform known uniform (whole.symm.trans block.lines_eq_inner)
      (by simp) (List.forall_mem_cons.2 ⟨label, List.forall_mem_singleton.2 ends⟩)
    rw [block.indentOf_head] at kind inserts
    rw [ending, block.indentOf_head]
    exact ⟨kind, block, Or.inr ⟨unlabelled, inserts⟩⟩
  | append =>
    have filled : document ≠ [] := by
      rintro rfl
      simp at broken
    obtain ⟨init, last, split, ended, text⟩ := append_of_uniform known bare uniform filled
    have after : Text.IsUniform newline _ := List.append_nil _ ▸ Text.IsUniform.nil.append ended
    rw [ending, text]
    exact ⟨after.breaksBy known, init, last, split, after.lines_flatten known⟩

/-- In a document with line breaks of one kind, of which there are some, a registration writes line
breaks of this kind only, and it keeps the lines: one line, two lines, or an empty line and a managed
block come to them. -/
theorem inject_keeps_line_breaks (document entry newline : List Char) (known : newline ∈ Text.endings)
    (breaks : Text.BreaksBy newline document) (broken : ∃ c ∈ document, Text.isLineBreak c = true)
    (valid : IsEntry entry) :
    ∃ injection, inject document entry = some injection ∧ Text.BreaksBy newline injection.text ∧
      KeepsLines document (Text.trim entry) newline injection :=
  ⟨_, inject_of_isEntry document valid, (placed_place document _).keepsLines known breaks broken valid.isBare⟩

/-- An empty line behind the line that opens the call, and an ending that is a carriage return. -/
def returnsDocument : List Char := "target_sources(app\r\r  PUBLIC\r)".toList

theorem inject_keeps_line_breaks_returns :
    ['\r'] ∈ Text.endings ∧ Text.BreaksBy ['\r'] returnsDocument ∧
      (∃ c ∈ returnsDocument, Text.isLineBreak c = true) ∧ IsEntry "b.cpp ".toList ∧
      ∃ injection, inject returnsDocument "b.cpp ".toList = some injection ∧
        Text.lines injection.text = ["target_sources(app\r".toList, "    PRIVATE\r".toList,
          "        b.cpp\r".toList, "\r".toList, "  PUBLIC\r".toList, [')']] ∧
        KeepsLines returnsDocument "b.cpp".toList ['\r'] injection := by
  have known : ['\r'] ∈ Text.endings := by decide
  have uniform : Text.IsUniform ['\r']
      ["target_sources(app\r".toList, "\r".toList, "  PUBLIC\r".toList, [')']] :=
    .ended ⟨"target_sources(app".toList, by decide, Text.forall_eq_false_of_any (by decide)⟩
      (.ended ⟨[], by decide, by simp⟩
        (.ended ⟨"  PUBLIC".toList, by decide, Text.forall_eq_false_of_any (by decide)⟩
          (.last (Text.forall_eq_false_of_any (by decide)) (by simp))))
  have breaks : Text.BreaksBy ['\r'] returnsDocument := uniform.breaksBy known
  have broken : ∃ c ∈ returnsDocument, Text.isLineBreak c = true := ⟨'\r', by decide, by decide⟩
  have valid : IsEntry "b.cpp ".toList := by decide
  have done : ∃ injection, inject returnsDocument "b.cpp ".toList = some injection ∧
      Text.lines injection.text = ["target_sources(app\r".toList, "    PRIVATE\r".toList,
        "        b.cpp\r".toList, "\r".toList, "  PUBLIC\r".toList, [')']] := by decide
  obtain ⟨injection, found, -, keeps⟩ := inject_keeps_line_breaks _ _ _ known breaks broken valid
  obtain ⟨other, same, lines⟩ := done
  obtain rfl := Option.some.inj (same.symm.trans found)
  exact ⟨known, breaks, broken, valid, other, same, lines, keeps⟩

end JuceWorkbench.Script
