import JuceWorkbench.Proofs.Artifact.Walk
import JuceWorkbench.Proofs.Path.Route

/-! The path texts of the places below a folder. The path of a place is that of the folder with the
names on the way behind it, so places have different paths, the way back to the folder gives the
names again, and of two paths the longer one is told by the names alone. -/

namespace JuceWorkbench

namespace Path

section Parts

variable {here : String}

theorem filter_parts_slashes (count : Nat) (text : List Char) :
    (parts (List.replicate count '/' ++ text)).filter (· ≠ []) = (parts text).filter (· ≠ []) := by
  induction count with
  | zero => rfl
  | succ count ih =>
    unfold parts at ih ⊢
    rw [List.replicate_succ, List.cons_append, ← List.nil_append ('/' :: _),
      Text.splitOn_append_separator, List.filter_append, ih]
    rfl

/-- The parts of the absolute form are the stack of the path, the other way round. -/
theorem absoluteParts_eq (rooted : isAbsolute here = true) (path : String) :
    absoluteParts here path = (stackOn [] (join here path).toList).reverse := by
  have plain : ∀ piece ∈ (stackOn [] (join here path).toList).reverse, IsPlain piece :=
    fun piece member => isPlain_stack _ piece (List.mem_reverse.1 member)
  have slash := isAbsolute_iff.1 (isAbsolute_join rooted path)
  unfold absoluteParts absolute
  rw [toList_normalize, normalText_eq slash, filter_parts_slashes]
  by_cases none : (stackOn [] (join here path).toList).reverse = []
  · rw [none]
    rfl
  · unfold parts
    rw [Text.splitOn_joinWith none fun piece member => (plain piece member).apart]
    exact List.filter_eq_self.2 fun piece member => decide_eq_true (plain piece member).ne_nil

theorem stackOn_plain (below : List (List Char)) {name : List Char} (plain : IsPlain name) :
    stackOn below name = name :: below := by
  unfold stackOn parts
  rw [Text.splitOn_of_not_mem plain.apart]
  exact step_plain true plain

theorem absoluteParts_join (rooted : isAbsolute here = true) (folder : String) {name : String}
    (plain : IsPlain name.toList) :
    absoluteParts here (join folder name) = absoluteParts here folder ++ [name.toList] := by
  have relative := Route.not_isAbsolute plain
  have stacked : stackOn [] (join here (join folder name)).toList =
      name.toList :: stackOn [] (join here folder).toList := by
    cases outer : isAbsolute folder with
    | true =>
      rw [join_of_absolute (isAbsolute_join outer name), join_of_absolute outer,
        stackOn_join [] relative, stackOn_plain _ plain]
    | false =>
      rw [stackOn_join [] (isAbsolute_join_of_not outer relative), stackOn_join _ relative,
        stackOn_join [] outer, stackOn_plain _ plain]
  rw [absoluteParts_eq rooted, absoluteParts_eq rooted, stacked, List.reverse_cons]

theorem commonLength_append (parts more : List (List Char)) :
    commonLength parts (parts ++ more) = parts.length := by
  induction parts with
  | nil => rfl
  | cons part parts ih => rw [List.cons_append, commonLength, if_pos rfl, ih, List.length_cons]

end Parts

def front (folder : String) : List Char :=
  if folder.toList = [] ∨ folder.toList.getLast? = some '/' then folder.toList
  else folder.toList ++ ['/']

theorem toList_join_plain (folder : String) {name : String} (plain : IsPlain name.toList) :
    (join folder name).toList = front folder ++ name.toList := by
  rw [toList_join (Route.not_isAbsolute plain)]
  unfold front
  split
  · rfl
  · rw [List.append_assoc]
    rfl

theorem front_eq_nil_or (folder : String) : front folder = [] ∨ (front folder).getLast? = some '/' := by
  unfold front
  split
  · assumption
  · exact Or.inr List.getLast?_concat

def Unslashed (path : String) : Prop := path.toList ≠ [] ∧ path.toList.getLast? ≠ some '/'

theorem Unslashed.front_eq {folder : String} (unslashed : Unslashed folder) :
    front folder = folder.toList ++ ['/'] := if_neg fun ends => ends.elim unslashed.1 unslashed.2

theorem unslashed_join (folder : String) {name : String} (plain : IsPlain name.toList) :
    Unslashed (join folder name) := by
  unfold Unslashed
  rw [toList_join_plain folder plain]
  exact ⟨fun empty => plain.ne_nil (List.append_eq_nil_iff.1 empty).2, plain.getLast?_append _⟩

theorem front_join (folder : String) {name : String} (plain : IsPlain name.toList) :
    front (join folder name) = front folder ++ name.toList ++ ['/'] := by
  rw [(unslashed_join folder plain).front_eq, toList_join_plain folder plain]

theorem baseName_join (folder : String) {name : String} (plain : IsPlain name.toList) :
    baseName (join folder name) = name := by
  have dark : ∀ c ∈ name.toList.reverse, decide (c ≠ '/') = true := by
    intro c member
    exact decide_eq_true fun slash => plain.apart (slash ▸ List.mem_reverse.1 member)
  have stops : (front folder).reverse.takeWhile (· ≠ '/') = [] := by
    rcases front_eq_nil_or folder with empty | slash
    · rw [empty]
      rfl
    · obtain ⟨text, split⟩ := List.getLast?_eq_some_iff.1 slash
      rw [split, List.reverse_append]
      rfl
  unfold baseName
  rw [toList_join_plain folder plain, List.reverse_append, List.takeWhile_append_of_pos dark, stops,
    List.append_nil, List.reverse_reverse, String.ofList_toList]

end Path

namespace Artifact
open JuceWorkbench.Path

section PathTo

variable {here root : String} {names others : List String}

theorem pathTo_concat (root : String) (names : List String) (name : String) :
    pathTo root (names ++ [name]) = join (pathTo root names) name := by
  unfold pathTo
  rw [List.foldl_append]
  rfl

def wayText (names : List String) : List Char := Text.joinWith ['/'] (names.map String.toList)

theorem toList_pathTo (plain : ∀ name ∈ names, IsPlain name.toList) (filled : names ≠ []) :
    (pathTo root names).toList = front root ++ wayText names := by
  induction names generalizing root with
  | nil => exact absurd rfl filled
  | cons name rest ih =>
    have first := plain name List.mem_cons_self
    by_cases last : rest = []
    · subst last
      exact toList_join_plain root first
    · have further : (pathTo (join root name) rest).toList = front (join root name) ++ wayText rest :=
        ih (fun other later => plain other (List.mem_cons_of_mem name later)) last
      obtain ⟨next, more, rfl⟩ := List.exists_cons_of_ne_nil last
      change (pathTo (join root name) (next :: more)).toList = _
      rw [further, front_join root first, List.append_assoc, List.append_assoc]
      simp [wayText, Text.joinWith]

theorem length_pathTo (plain : ∀ name ∈ names, IsPlain name.toList) (filled : names ≠ []) :
    (pathTo root names).length = (front root).length + (wayText names).length := by
  rw [← String.length_toList, toList_pathTo plain filled, List.length_append]

theorem splitOn_wayText (plain : ∀ name ∈ names, IsPlain name.toList) (filled : names ≠ []) :
    Text.splitOn '/' (wayText names) = names.map String.toList := by
  apply Text.splitOn_joinWith
  · simpa using filled
  · intro piece member
    obtain ⟨name, found, rfl⟩ := List.mem_map.1 member
    exact (plain name found).apart

theorem pathTo_inj (plain : ∀ name ∈ names, IsPlain name.toList) (filled : names ≠ [])
    (others_plain : ∀ name ∈ others, IsPlain name.toList) (others_filled : others ≠ [])
    (same : pathTo root names = pathTo root others) : names = others := by
  have texts := congrArg String.toList same
  rw [toList_pathTo plain filled, toList_pathTo others_plain others_filled] at texts
  have ways := congrArg (Text.splitOn '/') (List.append_cancel_left texts)
  rw [splitOn_wayText plain filled, splitOn_wayText others_plain others_filled] at ways
  exact (List.map_inj_right fun _ _ => String.toList_inj.1).1 ways

theorem pathParts_pathTo (unslashed : Unslashed root)
    (plain : ∀ name ∈ names, IsPlain name.toList) (filled : names ≠ []) :
    FileTree.pathParts (pathTo root names) = FileTree.pathParts root ++ names := by
  unfold FileTree.pathParts parts
  rw [toList_pathTo plain filled, unslashed.front_eq, List.append_assoc, List.singleton_append,
    Text.splitOn_append_separator, splitOn_wayText plain filled, List.map_append,
    Text.map_ofList_toList]

theorem isAbsolute_pathTo (unslashed : Unslashed root)
    (plain : ∀ name ∈ names, IsPlain name.toList) (filled : names ≠ []) :
    isAbsolute (pathTo root names) = isAbsolute root := by
  obtain ⟨c, rest, start⟩ := List.exists_cons_of_ne_nil unslashed.1
  unfold isAbsolute
  rw [toList_pathTo plain filled, unslashed.front_eq, start]
  rfl

theorem absoluteParts_pathTo (rooted : isAbsolute here = true)
    (plain : ∀ name ∈ names, IsPlain name.toList) :
    absoluteParts here (pathTo root names) = absoluteParts here root ++ names.map String.toList := by
  induction names generalizing root with
  | nil => exact (List.append_nil _).symm
  | cons name rest ih =>
    change absoluteParts here (pathTo (join root name) rest) = _
    rw [ih fun other later => plain other (List.mem_cons_of_mem name later),
      absoluteParts_join rooted root (plain name List.mem_cons_self), List.append_assoc]
    rfl

/-- Seen from the folder, the path of a place is the way to it. -/
theorem relative_pathTo (rooted : isAbsolute here = true)
    (plain : ∀ name ∈ names, IsPlain name.toList) (filled : names ≠ []) :
    relative here (pathTo root names) root = String.ofList (wayText names) := by
  unfold relative
  dsimp only
  rw [absoluteParts_pathTo rooted plain, commonLength_append, Nat.sub_self, List.drop_left]
  exact if_neg (by simpa using filled)

theorem baseName_pathTo (root : String) {names : List String}
    (plain : ∀ name ∈ names, IsPlain name.toList) {name : String} (last : names.getLast? = some name) :
    baseName (pathTo root names) = name := by
  obtain ⟨above, rfl⟩ := List.getLast?_eq_some_iff.1 last
  rw [pathTo_concat]
  exact baseName_join _ (plain name (by simp))

end PathTo

end Artifact

end JuceWorkbench
