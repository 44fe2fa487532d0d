import Mathlib.Data.List.Induction
import JuceWorkbench.Bench.Files
import JuceWorkbench.Proofs.Path.Normal
import JuceWorkbench.Proofs.Tree.Location

/-! Routes: the names on the way from the root, which every normal absolute path spells. A path
below a folder has one name more, so the folders above a route are those of its shorter ones, and
where its path leads is told by its names. -/

namespace JuceWorkbench

theorem Text.joinWith_concat {separator : List Char} {pieces : List (List Char)} (filled : pieces ≠ [])
    (last : List Char) :
    joinWith separator (pieces ++ [last]) = joinWith separator pieces ++ separator ++ last := by
  induction pieces with
  | nil => exact absurd rfl filled
  | cons piece more ih =>
    cases more with
    | nil => rfl
    | cons next more =>
      have further := ih (List.cons_ne_nil next more)
      simp only [List.cons_append, joinWith] at further ⊢
      rw [further]
      simp only [List.append_assoc]

namespace Path

theorem IsPlain.ne_nil {part : List Char} (plain : IsPlain part) : part ≠ [] :=
  fun empty => plain.filled (Or.inl empty)

theorem isPart_of_isPlain {name : String} (plain : IsPlain name.toList) :
    ¬(name = "" ∨ name = ".") ∧ name ≠ ".." := by
  refine ⟨?_, ?_⟩
  · rintro (rfl | rfl)
    · exact plain.filled (Or.inl rfl)
    · exact plain.filled (Or.inr rfl)
  · rintro rfl
    exact plain.stays rfl

/-- The names on the way from the root, behind one slash or two. -/
structure Route where
  slashes : Nat
  names : List String
  starts : 0 < slashes
  plain : ∀ name ∈ names, IsPlain name.toList

namespace Route

def text (route : Route) : List Char :=
  List.replicate route.slashes '/' ++ Text.joinWith ['/'] (route.names.map String.toList)

def path (route : Route) : String := String.ofList route.text

@[simp] theorem toList_path (route : Route) : route.path.toList = route.text := String.toList_ofList

def under (route : Route) (name : String) (plain : IsPlain name.toList) : Route where
  slashes := route.slashes
  names := route.names ++ [name]
  starts := route.starts
  plain := by
    intro other member
    rcases List.mem_append.1 member with old | new
    · exact route.plain other old
    · rwa [List.mem_singleton.1 new]

theorem induct {motive : Route → Prop} (root : ∀ route : Route, route.names = [] → motive route)
    (under : ∀ (route : Route) (name : String) (plain : IsPlain name.toList), motive route →
      motive (route.under name plain)) (route : Route) : motive route := by
  obtain ⟨slashes, names, starts, plain⟩ := route
  induction names using List.reverseRecOn with
  | nil => exact root _ rfl
  | append_singleton front name ih =>
    exact under ⟨slashes, front, starts, fun other member => plain other (List.mem_append_left _ member)⟩
      name (plain name (by simp)) (ih _)

section Text

variable {route : Route} {name : String} {plain : IsPlain name.toList}

theorem text_of_root (root : route.names = []) : route.text = List.replicate route.slashes '/' := by
  unfold text
  rw [root]
  exact List.append_nil _

theorem text_under_of_root (root : route.names = []) :
    (route.under name plain).text = route.text ++ name.toList := by
  rw [text_of_root root]
  simp [text, under, root, Text.joinWith]

theorem text_under (further : route.names ≠ []) :
    (route.under name plain).text = route.text ++ '/' :: name.toList := by
  have filled : route.names.map String.toList ≠ [] := by simpa using further
  simp [text, under, Text.joinWith_concat filled]

theorem text_ne_nil (route : Route) : route.text ≠ [] := by
  intro empty
  have none := (List.append_eq_nil_iff.1 empty).1
  rw [List.replicate_eq_nil_iff] at none
  exact absurd none (Nat.pos_iff_ne_zero.1 route.starts)

theorem getLast?_of_root (root : route.names = []) : route.text.getLast? = some '/' := by
  rw [text_of_root root, List.getLast?_replicate, if_neg (Nat.pos_iff_ne_zero.1 route.starts)]

theorem getLast?_text (further : route.names ≠ []) : route.text.getLast? ≠ some '/' := by
  induction route using Route.induct with
  | root route root => exact absurd root further
  | under route name plain _ =>
    by_cases root : route.names = []
    · rw [text_under_of_root root]
      exact plain.getLast?_append _
    · rw [text_under root, ← List.singleton_append, ← List.append_assoc]
      exact plain.getLast?_append _

theorem isAbsolute_path (route : Route) : isAbsolute route.path = true := by
  rw [isAbsolute_iff, toList_path]
  unfold text
  obtain ⟨n, same⟩ := Nat.exists_eq_succ_of_ne_zero (Nat.pos_iff_ne_zero.1 route.starts)
  rw [same, List.replicate_succ]
  rfl

theorem not_isAbsolute (plain : IsPlain name.toList) : isAbsolute name = false := by
  rw [Bool.eq_false_iff, Ne, isAbsolute_iff]
  intro slash
  exact plain.apart (List.mem_of_mem_head? slash)

theorem join_path (route : Route) (plain : IsPlain name.toList) :
    join route.path name = (route.under name plain).path := by
  refine String.toList_inj.1 ?_
  rw [toList_join (not_isAbsolute plain), toList_path, toList_path]
  by_cases root : route.names = []
  · rw [if_pos (Or.inr (getLast?_of_root root)), text_under_of_root root]
  · rw [if_neg, text_under root]
    rintro (empty | slash)
    · exact text_ne_nil route empty
    · exact getLast?_text root slash

theorem takeWhile_last {front : List Char} {name : List Char} (apart : '/' ∉ name) :
    (front ++ '/' :: name).reverse.takeWhile (· ≠ '/') = name.reverse ∧
      (front ++ '/' :: name).reverse.dropWhile (· ≠ '/') = '/' :: front.reverse := by
  have dark : ∀ c ∈ name.reverse, decide (c ≠ '/') = true := by
    intro c member
    exact decide_eq_true fun slash => apart (slash ▸ List.mem_reverse.1 member)
  have split : (front ++ '/' :: name).reverse = name.reverse ++ '/' :: front.reverse := by simp
  rw [split, List.takeWhile_append_of_pos dark, List.dropWhile_append_of_pos dark]
  simp

theorem exists_front (route : Route) (plain : IsPlain name.toList) :
    ∃ front, (route.under name plain).text = front ++ '/' :: name.toList ∧
      (front ++ ['/'] = route.text ∧ route.names = [] ∨ front = route.text ∧ route.names ≠ []) := by
  by_cases root : route.names = []
  · obtain ⟨n, same⟩ := Nat.exists_eq_succ_of_ne_zero (Nat.pos_iff_ne_zero.1 route.starts)
    have whole : List.replicate n '/' ++ ['/'] = route.text := by
      rw [text_of_root root, same, List.replicate_succ']
    refine ⟨List.replicate n '/', ?_, Or.inl ⟨whole, root⟩⟩
    rw [text_under_of_root root, ← whole, List.append_assoc, List.singleton_append]
  · exact ⟨route.text, text_under root, Or.inr ⟨rfl, root⟩⟩

theorem folderName_under (route : Route) (plain : IsPlain name.toList) :
    folderName (route.under name plain).path = route.path := by
  obtain ⟨front, split, cases⟩ := exists_front route plain
  have ends : ((route.under name plain).path.toList.reverse.dropWhile (· ≠ '/')).reverse = front ++ ['/'] := by
    rw [toList_path, split, (takeWhile_last plain.apart).2]
    simp
  unfold folderName
  dsimp only
  rw [ends]
  rcases cases with ⟨whole, root⟩ | ⟨rfl, further⟩
  · have slashes : route.text.all (· = '/') = true := by
      rw [text_of_root root]
      simp
    rw [whole, if_pos slashes]
    rfl
  · have last := getLast?_text further
    have other : ¬(route.text ++ ['/']).all (· = '/') = true := by
      intro slashes
      rw [List.all_append, Bool.and_eq_true, List.all_eq_true] at slashes
      cases final : route.text.getLast? with
      | none => exact text_ne_nil route (List.getLast?_eq_none_iff.1 final)
      | some c =>
        have slash := of_decide_eq_true (slashes.1 c (List.mem_of_getLast? final))
        exact last (slash ▸ final)
    have stays : route.text.reverse.dropWhile (· = '/') = route.text.reverse := by
      rw [← List.head?_reverse] at last
      cases reversed : route.text.reverse with
      | nil => rfl
      | cons c rest =>
        rw [reversed] at last
        exact List.dropWhile_cons_of_neg (by simpa using last)
    rw [if_neg other, List.reverse_append, List.reverse_singleton, List.singleton_append,
      List.dropWhile_cons_of_pos (by rfl), stays, List.reverse_reverse]
    rfl

theorem length_names_le (route : Route) : route.names.length ≤ route.path.length := by
  rw [← String.length_toList, toList_path]
  induction route using Route.induct with
  | root route root =>
    rw [root]
    exact Nat.zero_le _
  | under route name plain ih =>
    obtain ⟨front, split, cases⟩ := exists_front route plain
    have filled := List.length_pos_iff.2 plain.ne_nil
    have longer : route.text.length ≤ front.length + 1 := by
      rcases cases with ⟨whole, -⟩ | ⟨same, -⟩
      · rw [← whole]
        simp
      · rw [same]
        exact Nat.le_succ _
    rw [split]
    simp only [under, List.length_append, List.length_cons, List.length_nil]
    omega

theorem path_under_ne (route : Route) (plain : IsPlain name.toList) :
    (route.under name plain).path ≠ route.path := by
  intro same
  have lengths := congrArg (List.length ∘ String.toList) same
  have filled := List.length_pos_iff.2 plain.ne_nil
  simp only [Function.comp_apply, toList_path] at lengths
  by_cases root : route.names = []
  · rw [text_under_of_root root] at lengths
    rw [List.length_append] at lengths
    omega
  · rw [text_under root] at lengths
    simp at lengths

/-- A path below a folder goes on from the path of the folder. -/
theorem prefix_under (route : Route) (plain : IsPlain name.toList) :
    route.text <+: (route.under name plain).text := by
  by_cases root : route.names = []
  · exact ⟨name.toList, (text_under_of_root root).symm⟩
  · exact ⟨'/' :: name.toList, (text_under root).symm⟩

theorem path_append (route : Route) {suffix : String} (plain : IsPlain name.toList)
    (longer : IsPlain (name ++ suffix).toList) :
    (route.under name plain).path ++ suffix = (route.under (name ++ suffix) longer).path := by
  refine String.toList_inj.1 ?_
  rw [String.toList_append, toList_path, toList_path]
  by_cases root : route.names = []
  · rw [text_under_of_root root, text_under_of_root root, String.toList_append, List.append_assoc]
  · rw [text_under root, text_under root, String.toList_append, List.append_assoc, List.cons_append]

theorem utf8ByteSize_under (route : Route) (plain : IsPlain name.toList) :
    (route.under name plain).path.utf8ByteSize =
      route.path.utf8ByteSize + (if route.names = [] then 0 else 1) + name.utf8ByteSize := by
  unfold path
  by_cases root : route.names = []
  · rw [text_under_of_root root, String.ofList_append, String.utf8ByteSize_append, String.ofList_toList,
      if_pos root, Nat.add_zero]
  · rw [text_under root, List.append_cons, String.ofList_append, String.ofList_append,
      String.utf8ByteSize_append, String.utf8ByteSize_append, String.ofList_toList, if_neg root]
    rfl

theorem utf8ByteSize_le_under (route : Route) (plain : IsPlain name.toList) :
    route.path.utf8ByteSize ≤ (route.under name plain).path.utf8ByteSize := by
  rw [utf8ByteSize_under, Nat.add_assoc]
  exact Nat.le_add_right _ _

theorem isEmpty_path (route : Route) : route.path.isEmpty = false := by
  rw [Bool.eq_false_iff, Ne, String.isEmpty_iff]
  intro empty
  refine text_ne_nil route ?_
  rw [← toList_path, empty]
  rfl

end Text

/-! The folders above a route. -/

section Folders

open Work

variable {name : String}

theorem climb_under (route : Route) (plain : IsPlain name.toList) (fuel : Nat) :
    foldersAbove.climb (fuel + 1) (route.under name plain).path =
      route.path :: foldersAbove.climb fuel route.path := by
  have other : ¬(route.path.isEmpty || route.path == (route.under name plain).path) = true := by
    rw [isEmpty_path, Bool.false_or, beq_iff_eq]
    exact (path_under_ne route plain).symm
  rw [foldersAbove.climb, folderName_under]
  exact if_neg other

theorem climb_root {route : Route} (root : route.names = []) (fuel : Nat) :
    foldersAbove.climb fuel route.path = [] := by
  cases fuel with
  | zero => rfl
  | succ fuel =>
    have same : folderName route.path = route.path := by
      have slashes : route.text.all (· = '/') = true := by
        rw [text_of_root root]
        simp
      have ends : (route.path.toList.reverse.dropWhile (· ≠ '/')).reverse = route.text := by
        rw [toList_path, text_of_root root, List.reverse_replicate]
        obtain ⟨n, more⟩ := Nat.exists_eq_succ_of_ne_zero (Nat.pos_iff_ne_zero.1 route.starts)
        rw [more, List.replicate_succ, List.dropWhile_cons_of_neg (by simp), ← List.replicate_succ,
          List.reverse_replicate]
      unfold folderName
      dsimp only
      rw [ends, if_pos slashes]
      rfl
    rw [foldersAbove.climb, same, beq_self_eq_true, Bool.or_true]
    exact if_pos rfl

/-- A climb reaches the root if it may take as many steps as there are names. -/
theorem climb_enough (route : Route) {fuel other : Nat} (enough : route.names.length ≤ fuel)
    (also : route.names.length ≤ other) :
    foldersAbove.climb fuel route.path = foldersAbove.climb other route.path := by
  induction route using Route.induct generalizing fuel other with
  | root route root => rw [climb_root root, climb_root root]
  | under route name plain ih =>
    simp only [under, List.length_append, List.length_singleton] at enough also
    obtain ⟨n, rfl⟩ := Nat.exists_eq_succ_of_ne_zero (show fuel ≠ 0 by omega)
    obtain ⟨m, rfl⟩ := Nat.exists_eq_succ_of_ne_zero (show other ≠ 0 by omega)
    rw [climb_under, climb_under, ih (show route.names.length ≤ n by omega) (show _ ≤ m by omega)]

theorem foldersAbove_root {route : Route} (root : route.names = []) : foldersAbove route.path = [] :=
  climb_root root _

theorem foldersAbove_under (route : Route) (plain : IsPlain name.toList) :
    foldersAbove (route.under name plain).path = route.path :: foldersAbove route.path := by
  have enough := length_names_le (route.under name plain)
  simp only [under, List.length_append, List.length_singleton] at enough
  unfold foldersAbove
  rw [climb_enough (route.under name plain) (length_names_le _)
    (show _ ≤ (route.path.length + 1) by simpa [under] using length_names_le route), climb_under]

end Folders

/-! Where a route leads. -/

section Locate

open FileTree

theorem pathParts_path (route : Route) : ∃ skipped : List String, (∀ part ∈ skipped, part = "") ∧
    (pathParts route.path = skipped ++ route.names) := by
  have slashes : ∀ (n : Nat) (text : List Char), Text.splitOn '/' (List.replicate n '/' ++ text) =
      List.replicate n [] ++ Text.splitOn '/' text := by
    intro n text
    induction n with
    | zero => rfl
    | succ n ih =>
      rw [List.replicate_succ, List.cons_append, ← List.nil_append ('/' :: _),
        Text.splitOn_append_separator, ih]
      rfl
  unfold pathParts Path.parts
  rw [toList_path, text, slashes]
  by_cases root : route.names = []
  · refine ⟨List.replicate (route.slashes + 1) "", fun part member => List.eq_of_mem_replicate member, ?_⟩
    rw [root, List.replicate_succ']
    simp [Text.joinWith, Text.splitOn]
  · refine ⟨List.replicate route.slashes "", fun part member => List.eq_of_mem_replicate member, ?_⟩
    rw [Text.splitOn_joinWith (by simpa using root), List.map_append, Text.map_ofList_toList,
      List.map_replicate]
    · intro piece member
      obtain ⟨name, found, rfl⟩ := List.mem_map.1 member
      exact (route.plain name found).apart

/-- A route leads where its names lead from the root. -/
theorem locate_path (route : Route) (tree : FileTree) (follow : Bool) (here : Place) :
    tree.locate follow here route.path =
      if maxPathOctets < route.path.utf8ByteSize then .error .nameTooLong
      else tree.locateFrom follow maxLinks [] route.names := by
  have skips : ∀ {skipped : List String}, (∀ part ∈ skipped, part = "") → ∀ parts,
      tree.locateFrom follow maxLinks [] (skipped ++ parts) = tree.locateFrom follow maxLinks [] parts := by
    intro skipped empty parts
    induction skipped with
    | nil => rfl
    | cons part more ih =>
      rw [List.cons_append, locateFrom_skip (Or.inl (empty part List.mem_cons_self)),
        ih fun other later => empty other (List.mem_cons_of_mem part later)]
  obtain ⟨skipped, empty, parts⟩ := pathParts_path route
  unfold FileTree.locate
  rw [isEmpty_path, if_neg Bool.false_ne_true, isAbsolute_path, if_pos rfl, parts, skips empty]

end Locate

end Route

theorem IsNormal.exists_route {path : String} (normal : IsNormal path) :
    ∃ route : Route, route.path = path := by
  obtain ⟨slashes, pieces, few, plain, text⟩ := normal
  refine ⟨⟨slashes, pieces.map String.ofList, by omega, ?_⟩, ?_⟩
  · intro name member
    obtain ⟨piece, found, rfl⟩ := List.mem_map.1 member
    rw [String.toList_ofList]
    exact plain piece found
  · have same : (String.toList ∘ String.ofList) = id := by
      funext piece
      exact String.toList_ofList
    refine String.toList_inj.1 ?_
    rw [Route.toList_path, Route.text, text, List.map_map, same, List.map_id]

end Path

theorem FileTree.getLast?_pathParts_join (folder : String) {name : String} (plain : Path.IsPlain name.toList) :
    (pathParts (Path.join folder name)).getLast? = some name := by
  have ends : ∃ front, Text.splitOn '/' (Path.join folder name).toList = front ++ [name.toList] := by
    have alone := Text.splitOn_of_not_mem plain.apart
    rw [Path.toList_join (Path.Route.not_isAbsolute plain)]
    split
    · rename_i joined
      rcases List.eq_nil_or_concat folder.toList with empty | ⟨front, last, whole⟩
      · exact ⟨[], by rw [empty, List.nil_append, alone, List.nil_append]⟩
      · rw [List.concat_eq_append] at whole
        rw [whole, List.getLast?_concat] at joined
        obtain rfl : last = '/' := by simpa using joined
        exact ⟨_, by rw [whole, List.append_assoc, List.singleton_append, Text.splitOn_append_separator, alone]⟩
    · exact ⟨_, by rw [Text.splitOn_append_separator, alone]⟩
  obtain ⟨front, parts⟩ := ends
  unfold pathParts Path.parts
  rw [parts, List.getLast?_map, List.getLast?_concat, Option.map_some, String.ofList_toList]

end JuceWorkbench
