import JuceWorkbench.Path
import JuceWorkbench.Proofs.Text.Split

/-! Normal absolute paths. A path that starts at the root is read as the stack of its parts; the
stack of a joined path comes from the stacks of its halves, and a normal path has the stack of the
path it was made from. The normal form is said by the text alone; what has it is left as it is. -/

namespace JuceWorkbench.Path

/-- A part of a normal path that starts at the root. -/
structure IsPlain (part : List Char) : Prop where
  filled : ¬(part = [] ∨ part = ['.'])
  stays : part ≠ dotDot
  apart : '/' ∉ part

instance (part : List Char) : Decidable (IsPlain part) :=
  decidable_of_iff (¬(part = [] ∨ part = ['.']) ∧ part ≠ dotDot ∧ '/' ∉ part)
    ⟨fun ⟨filled, stays, apart⟩ => ⟨filled, stays, apart⟩,
      fun plain => ⟨plain.filled, plain.stays, plain.apart⟩⟩

/-- The parts of a path on top of those of a folder, the last one first. -/
def stackOn (below : List (List Char)) (path : List Char) : List (List Char) :=
  (parts path).foldl (step true) below

section Step

variable {below : List (List Char)} {part : List Char}

theorem step_plain (rooted : Bool) (plain : IsPlain part) : step rooted below part = part :: below := by
  unfold step
  rw [if_neg plain.filled, if_pos plain.stays]

theorem isPlain_step (plain : ∀ old ∈ below, IsPlain old) (apart : '/' ∉ part) :
    ∀ old ∈ step true below part, IsPlain old := by
  unfold step
  split
  · exact plain
  · rename_i filled
    split
    · rename_i stays
      rintro old (_ | ⟨_, further⟩)
      · exact ⟨filled, stays, apart⟩
      · exact plain old further
    · split
      · rintro old ⟨⟩
      · rename_i top rest
        rw [if_neg (plain top List.mem_cons_self).stays]
        exact fun old further => plain old (List.mem_cons_of_mem top further)

theorem isPlain_foldl {pieces : List (List Char)} (plain : ∀ old ∈ below, IsPlain old)
    (apart : ∀ piece ∈ pieces, '/' ∉ piece) : ∀ old ∈ pieces.foldl (step true) below, IsPlain old := by
  induction pieces generalizing below with
  | nil => exact plain
  | cons piece more ih =>
    exact ih (isPlain_step plain (apart piece List.mem_cons_self)) fun other later =>
      apart other (List.mem_cons_of_mem piece later)

theorem isPlain_stack (path : List Char) : ∀ part ∈ stackOn [] path, IsPlain part :=
  isPlain_foldl (by simp) fun _ member => Text.not_mem_of_mem_splitOn member

theorem foldl_plain {pieces : List (List Char)} (plain : ∀ piece ∈ pieces, IsPlain piece) :
    pieces.foldl (step true) below = pieces.reverse ++ below := by
  induction pieces generalizing below with
  | nil => rfl
  | cons piece more ih =>
    rw [List.foldl_cons, step_plain true (plain piece List.mem_cons_self),
      ih fun other later => plain other (List.mem_cons_of_mem piece later)]
    simp

end Step

/-! The text of a normal path. -/

section NormalText

variable {path : List Char}

theorem leadingSlashes_cases (path : List Char) :
    leadingSlashes path = 0 ∨ leadingSlashes path = 1 ∨ leadingSlashes path = 2 := by
  unfold leadingSlashes
  split <;> simp

theorem leadingSlashes_pos_iff : 0 < leadingSlashes path ↔ path.head? = some '/' := by
  rcases path with _ | ⟨c, rest⟩
  · exact iff_of_false (by decide) (by simp)
  · by_cases slash : c = '/'
    · subst slash
      refine iff_of_true ?_ rfl
      unfold leadingSlashes
      split <;> simp_all
    · refine iff_of_false ?_ (by simpa using slash)
      simp [leadingSlashes, slash]

/-- What is behind a part does not change how many slashes are in front. -/
theorem leadingSlashes_append {more : List Char} (filled : path ≠ [])
    (stops : path.getLast? = some '/' → more.head? ≠ some '/') :
    leadingSlashes (path ++ more) = leadingSlashes path := by
  rcases path with _ | ⟨a, _ | ⟨b, _ | ⟨c, rest⟩⟩⟩
  · exact absurd rfl filled
  · by_cases first : a = '/'
    · subst first
      rcases more with _ | ⟨d, more⟩
      · rfl
      · have other : d ≠ '/' := by simpa using stops rfl
        simp [leadingSlashes, other]
    · simp [leadingSlashes, first]
  · by_cases first : a = '/'
    · by_cases second : b = '/'
      · subst first second
        rcases more with _ | ⟨d, more⟩
        · rfl
        · have other : d ≠ '/' := by simpa using stops rfl
          simp [leadingSlashes, other]
      · simp [leadingSlashes, first, second]
    · simp [leadingSlashes, first]
  · by_cases first : a = '/'
    · by_cases second : b = '/'
      · by_cases third : c = '/'
        · simp [leadingSlashes, first, second, third]
        · simp [leadingSlashes, first, second, third]
      · simp [leadingSlashes, first, second]
    · simp [leadingSlashes, first]

theorem IsPlain.head?_append {piece : List Char} (plain : IsPlain piece) (more : List Char) :
    (piece ++ more).head? ≠ some '/' := by
  rcases piece with _ | ⟨c, rest⟩
  · exact absurd (Or.inl rfl) plain.filled
  · intro slash
    obtain rfl : c = '/' := by simpa using slash
    exact plain.apart List.mem_cons_self

theorem IsPlain.getLast?_append {piece : List Char} (plain : IsPlain piece) (front : List Char) :
    (front ++ piece).getLast? ≠ some '/' := by
  rw [List.getLast?_append]
  cases last : piece.getLast? with
  | none => exact absurd (Or.inl (List.getLast?_eq_none_iff.1 last)) plain.filled
  | some c =>
    intro slash
    obtain rfl : c = '/' := Option.some.inj slash
    exact plain.apart (List.mem_of_getLast? last)

theorem head?_joinWith {pieces : List (List Char)} (plain : ∀ piece ∈ pieces, IsPlain piece) :
    (Text.joinWith ['/'] pieces).head? ≠ some '/' := by
  match pieces with
  | [] => exact Option.some_ne_none _ ∘ Eq.symm
  | [piece] =>
    have alone := (plain piece List.mem_cons_self).head?_append []
    rwa [List.append_nil] at alone
  | piece :: next :: more =>
    rw [Text.joinWith, List.append_assoc]
    exact (plain piece List.mem_cons_self).head?_append _
    exact List.cons_ne_nil _ _

/-! The text of one slash or two and plain parts. -/

section Spelled

variable {slashes : Nat} {pieces : List (List Char)} (few : slashes = 1 ∨ slashes = 2)
  (plain : ∀ piece ∈ pieces, IsPlain piece)
include few plain

theorem leadingSlashes_spelled :
    leadingSlashes (List.replicate slashes '/' ++ Text.joinWith ['/'] pieces) = slashes := by
  rw [leadingSlashes_append]
  · rcases few with rfl | rfl <;> rfl
  · rw [Ne, List.replicate_eq_nil_iff]
    omega
  · exact fun _ => head?_joinWith plain

theorem stack_spelled :
    stackOn [] (List.replicate slashes '/' ++ Text.joinWith ['/'] pieces) = pieces.reverse := by
  have body : stackOn [] (Text.joinWith ['/'] pieces) = pieces.reverse := by
    unfold stackOn parts
    by_cases none : pieces = []
    · rw [none]
      rfl
    · rw [Text.splitOn_joinWith none fun piece member => (plain piece member).apart, foldl_plain plain,
        List.append_nil]
  have skip : ∀ more : List Char, stackOn [] ('/' :: more) = stackOn [] more := by
    intro more
    unfold stackOn parts
    rw [← List.nil_append ('/' :: more), Text.splitOn_append_separator, List.foldl_append]
    rfl
  rcases few with rfl | rfl
  · rw [List.replicate_one, List.singleton_append, skip]
    exact body
  · change stackOn [] ('/' :: '/' :: _) = _
    rw [skip, skip]
    exact body

end Spelled

variable (absolute : path.head? = some '/')
include absolute

theorem leadingSlashes_of_absolute : leadingSlashes path = 1 ∨ leadingSlashes path = 2 := by
  have slashes := leadingSlashes_pos_iff.2 absolute
  rcases leadingSlashes_cases path with none | few
  · omega
  · exact few

theorem normalText_eq : normalText path =
    List.replicate (leadingSlashes path) '/' ++ Text.joinWith ['/'] (stackOn [] path).reverse := by
  have slashes := leadingSlashes_pos_iff.2 absolute
  have filled : List.replicate (leadingSlashes path) '/' ++
      Text.joinWith ['/'] (stackOn [] path).reverse ≠ [] := by
    intro empty
    have none := (List.append_eq_nil_iff.1 empty).1
    rw [List.replicate_eq_nil_iff] at none
    omega
  unfold normalText normalParts
  simp only [slashes, decide_true]
  exact if_neg filled

theorem leadingSlashes_normalText : leadingSlashes (normalText path) = leadingSlashes path := by
  rw [normalText_eq absolute]
  exact leadingSlashes_spelled (leadingSlashes_of_absolute absolute) fun piece member =>
    isPlain_stack path piece (List.mem_reverse.1 member)

theorem stack_normalText : stackOn [] (normalText path) = stackOn [] path := by
  have plain : ∀ piece ∈ (stackOn [] path).reverse, IsPlain piece := fun piece member =>
    isPlain_stack path piece (List.mem_reverse.1 member)
  rw [normalText_eq absolute, stack_spelled (leadingSlashes_of_absolute absolute) plain, List.reverse_reverse]

end NormalText

theorem normalText_congr {a b : List Char} (absolute : a.head? = some '/')
    (slashes : leadingSlashes a = leadingSlashes b) (same : stackOn [] a = stackOn [] b) :
    normalText a = normalText b := by
  have other : b.head? = some '/' := by
    rw [← leadingSlashes_pos_iff, ← slashes]
    exact leadingSlashes_pos_iff.2 absolute
  rw [normalText_eq absolute, normalText_eq other, slashes, same]

/-! Joined paths. -/

section Join

variable {folder path : String}

theorem isAbsolute_iff : isAbsolute path = true ↔ path.toList.head? = some '/' := by
  unfold isAbsolute
  rw [beq_iff_eq]

theorem join_of_absolute (absolute : isAbsolute path = true) : join folder path = path := if_pos absolute

theorem toList_join (relative : isAbsolute path = false) :
    (join folder path).toList =
      if folder.toList = [] ∨ folder.toList.getLast? = some '/' then folder.toList ++ path.toList
      else folder.toList ++ '/' :: path.toList := by
  unfold join
  rw [if_neg (by rw [relative]; exact Bool.false_ne_true)]
  simp only [Bool.or_eq_true, String.isEmpty_iff, beq_iff_eq, String.toList_eq_nil_iff]
  split
  · exact String.toList_append
  · rw [String.toList_append, String.toList_append, List.append_assoc]
    rfl

theorem isAbsolute_join (absolute : isAbsolute folder = true) (path : String) :
    isAbsolute (join folder path) = true := by
  cases relative : isAbsolute path with
  | true => rwa [join_of_absolute relative]
  | false =>
    rw [isAbsolute_iff] at absolute ⊢
    obtain ⟨rest, start⟩ := List.head?_eq_some_iff.1 absolute
    rw [toList_join relative, start]
    split <;> rfl

theorem isAbsolute_join_of_not (folderRelative : isAbsolute folder = false)
    (relative : isAbsolute path = false) : isAbsolute (join folder path) = false := by
  rw [Bool.eq_false_iff, Ne, isAbsolute_iff] at folderRelative relative ⊢
  rw [toList_join (by rwa [Bool.eq_false_iff, Ne, isAbsolute_iff])]
  cases front : folder.toList with
  | nil => simpa using relative
  | cons c rest =>
    rw [front] at folderRelative
    split <;> simpa using folderRelative

theorem stackOn_join (below : List (List Char)) (relative : isAbsolute path = false) :
    stackOn below (join folder path).toList = stackOn (stackOn below folder.toList) path.toList := by
  rw [toList_join relative]
  unfold stackOn parts
  split
  · rename_i ends
    rcases ends with empty | slash
    · rw [empty]
      rfl
    · obtain ⟨front, split⟩ := List.getLast?_eq_some_iff.1 slash
      rw [split, List.append_assoc, List.singleton_append, Text.splitOn_append_separator,
        Text.splitOn_append_separator, List.foldl_append, List.foldl_append]
      rfl
  · rw [Text.splitOn_append_separator, List.foldl_append]

theorem leadingSlashes_join (absolute : isAbsolute folder = true) (relative : isAbsolute path = false) :
    leadingSlashes (join folder path).toList = leadingSlashes folder.toList := by
  have filled : folder.toList ≠ [] := by
    intro empty
    rw [isAbsolute_iff, empty] at absolute
    cases absolute
  rw [toList_join relative]
  split
  · refine leadingSlashes_append filled fun _ => ?_
    intro slash
    rw [isAbsolute_iff.2 slash] at relative
    cases relative
  · rename_i closed
    exact leadingSlashes_append filled fun slash => absurd (Or.inr slash) closed

end Join

theorem toList_normalize (path : String) : (normalize path).toList = normalText path.toList :=
  String.toList_ofList

/-- An absolute path in normal form: one slash or two, then parts with a slash between them, of which
none is empty, one dot or two dots. -/
def IsNormal (path : String) : Prop :=
  ∃ slashes pieces, (slashes = 1 ∨ slashes = 2) ∧ (∀ piece ∈ pieces, IsPlain piece) ∧
    path.toList = List.replicate slashes '/' ++ Text.joinWith ['/'] pieces

section IsNormal

variable {path : String}

theorem isNormal_normalize (absolute : isAbsolute path = true) : IsNormal (normalize path) := by
  have slash := isAbsolute_iff.1 absolute
  refine ⟨leadingSlashes path.toList, (stackOn [] path.toList).reverse, leadingSlashes_of_absolute slash,
    fun piece member => ?_, ?_⟩
  · exact isPlain_stack path.toList piece (List.mem_reverse.1 member)
  · rw [toList_normalize, normalText_eq slash]

theorem IsNormal.isAbsolute (normal : IsNormal path) : isAbsolute path = true := by
  obtain ⟨slashes, pieces, few, -, text⟩ := normal
  rw [isAbsolute_iff, text]
  rcases few with rfl | rfl <;> rfl

theorem IsNormal.normalize_eq (normal : IsNormal path) : normalize path = path := by
  have slash := isAbsolute_iff.1 normal.isAbsolute
  obtain ⟨slashes, pieces, few, plain, text⟩ := normal
  refine String.toList_inj.1 ?_
  rw [toList_normalize, normalText_eq slash, text, leadingSlashes_spelled few plain,
    stack_spelled few plain, List.reverse_reverse]

theorem isNormal_iff : IsNormal path ↔ isAbsolute path = true ∧ normalize path = path :=
  ⟨fun normal => ⟨normal.isAbsolute, normal.normalize_eq⟩,
    fun ⟨absolute, same⟩ => same ▸ isNormal_normalize absolute⟩

instance (path : String) : Decidable (IsNormal path) := decidable_of_iff _ isNormal_iff.symm

example : IsNormal "//a/b" ∧ ¬IsNormal "///a/b" ∧ ¬IsNormal "/a/" := by decide

theorem IsNormal.absolute_eq (normal : IsNormal path) (here : String) : absolute here path = path := by
  rw [absolute, join_of_absolute normal.isAbsolute]
  exact normal.normalize_eq

end IsNormal

section Absolute

variable {here : String} (rooted : isAbsolute here = true)
include rooted

theorem isNormal_absolute (path : String) : IsNormal (absolute here path) :=
  isNormal_normalize (isAbsolute_join rooted path)

theorem isAbsolute_absolute (path : String) : isAbsolute (absolute here path) = true :=
  (isNormal_absolute rooted path).isAbsolute

theorem absolute_absolute (path : String) : absolute here (absolute here path) = absolute here path :=
  (isNormal_absolute rooted path).absolute_eq here

/-- Seen from the folder `here`, it does not matter whether the folder of a path is given by its
absolute form. -/
theorem absolute_join_absolute (folder path : String) :
    absolute here (join (absolute here folder) path) = absolute here (join folder path) := by
  cases relative : isAbsolute path with
  | true => rw [join_of_absolute relative, join_of_absolute relative]
  | false =>
    have whole := isAbsolute_absolute rooted folder
    have under := isAbsolute_join rooted folder
    have slash := isAbsolute_iff.1 under
    have joined : join here (join (absolute here folder) path) = join (absolute here folder) path :=
      join_of_absolute (isAbsolute_join whole path)
    have slashes : leadingSlashes (join (absolute here folder) path).toList =
        leadingSlashes (join here (join folder path)).toList := by
      rw [leadingSlashes_join whole relative]
      change leadingSlashes (normalize (join here folder)).toList = _
      rw [toList_normalize, leadingSlashes_normalText slash]
      cases outer : isAbsolute folder with
      | true =>
        rw [join_of_absolute outer, join_of_absolute (isAbsolute_join outer path),
          leadingSlashes_join outer relative]
      | false =>
        rw [leadingSlashes_join rooted outer,
          leadingSlashes_join rooted (isAbsolute_join_of_not outer relative)]
    have stacked : stackOn [] (join (absolute here folder) path).toList =
        stackOn [] (join here (join folder path)).toList := by
      rw [stackOn_join [] relative]
      change stackOn (stackOn [] (normalize (join here folder)).toList) path.toList = _
      rw [toList_normalize, stack_normalText slash]
      cases outer : isAbsolute folder with
      | true =>
        rw [join_of_absolute outer, join_of_absolute (isAbsolute_join outer path),
          stackOn_join [] relative]
      | false =>
        rw [stackOn_join [] outer, stackOn_join [] (isAbsolute_join_of_not outer relative),
          stackOn_join _ relative]
    change normalize (join here (join (absolute here folder) path)) = _
    rw [joined]
    exact congrArg String.ofList
      (normalText_congr (isAbsolute_iff.1 (isAbsolute_join whole path)) slashes stacked)

end Absolute

end JuceWorkbench.Path
