import JuceWorkbench.Artifact.Survey
import JuceWorkbench.Proofs.Tree.Folder

/-! What a survey walks over. A place is told by the names on the way to it from the first folder,
and `Reached` says without any recursion which places the walk comes to. Names on the way are
compared one after another, so the order of the walk is the order of these lists; the paths and
the warnings of a survey are read off the list of all places in that order. -/

namespace JuceWorkbench.Artifact

def pathTo (root : String) (names : List String) : String := names.foldl Path.join root

/-- A taken place below `place` that the walk comes to: what stands on the way to it are folders
that can be listed. -/
structure Reached (tree : FileTree) (listable : String → Bool) (place : Place) (root : String)
    (names : List String) : Prop where
  below : names ≠ []
  taken : (tree.get? (place ++ names)).isSome = true
  folders : ∀ inner, inner <+: names → inner ≠ [] → inner ≠ names →
    tree.get? (place ++ inner) = some .folder
  listed : ∀ inner, inner <+: names → inner ≠ names → listable (pathTo root inner) = true

section Reached

variable {tree : FileTree} {listable : String → Bool} {place : Place} {root : String}

theorem Reached.listable_root {names : List String}
    (reached : Reached tree listable place root names) : listable root = true :=
  reached.listed [] List.nil_prefix reached.below.symm

theorem reached_cons_iff (name : String) (rest : List String) :
    Reached tree listable place root (name :: rest) ↔
      listable root = true ∧ name ∈ tree.names place ∧
        (rest = [] ∨ tree.get? (place ++ [name]) = some .folder ∧
          Reached tree listable (place ++ [name]) (Path.join root name) rest) := by
  rw [FileTree.mem_names]
  constructor
  · intro reached
    refine ⟨reached.listable_root, ?_⟩
    by_cases last : rest = []
    · subst last
      exact ⟨reached.taken, Or.inl rfl⟩
    · have first : [name] <+: name :: rest := ⟨rest, rfl⟩
      have folder := reached.folders [name] first (by simp) (by simpa using Ne.symm last)
      refine ⟨by rw [folder]; rfl, Or.inr ⟨folder, last, ?_, ?_, ?_⟩⟩
      · simpa using reached.taken
      · intro inner start filled short
        have deeper := reached.folders (name :: inner) (List.cons_prefix_cons.2 ⟨rfl, start⟩)
          (by simp) (by simpa using short)
        simpa using deeper
      · intro inner start short
        exact reached.listed (name :: inner) (List.cons_prefix_cons.2 ⟨rfl, start⟩)
          (by simpa using short)
  · rintro ⟨open_, taken, last | ⟨folder, deeper⟩⟩
    · subst last
      refine ⟨by simp, taken, ?_, ?_⟩
      · intro inner start filled short
        rcases List.prefix_concat_iff.1 (List.nil_append [name] ▸ start) with whole | none
        · exact absurd whole short
        · exact absurd (List.prefix_nil.1 none) filled
      · intro inner start short
        rcases List.prefix_concat_iff.1 (List.nil_append [name] ▸ start) with whole | none
        · exact absurd whole short
        · rw [List.prefix_nil.1 none]
          exact open_
    · refine ⟨by simp, by simpa using deeper.taken, ?_, ?_⟩
      · intro inner start filled short
        cases inner with
        | nil => exact absurd rfl filled
        | cons other inner =>
          obtain ⟨rfl, further⟩ := List.cons_prefix_cons.1 start
          by_cases here : inner = []
          · subst here
            exact folder
          · have there := deeper.folders inner further here (by simpa using short)
            simpa using there
      · intro inner start short
        cases inner with
        | nil => exact open_
        | cons other inner =>
          obtain ⟨rfl, further⟩ := List.cons_prefix_cons.1 start
          exact deeper.listed inner further (by simpa using short)

end Reached

namespace Survey

def visited (tree : FileTree) (listable : String → Bool) : Nat → Place → String → List (List String)
  | 0, _, _ => []
  | depth + 1, place, folder =>
    if listable folder then
      (tree.names place).flatMap fun name =>
        let inside :=
          if tree.get? (place ++ [name]) = some .folder then
            visited tree listable depth (place ++ [name]) (Path.join folder name)
          else []
        [name] :: inside.map (name :: ·)
    else []

/-- A depth that all taken places below a folder stay within. -/
def Deep (tree : FileTree) (place : Place) (depth : Nat) : Prop :=
  ∀ names, (tree.get? (place ++ names)).isSome = true → names.length < depth

section Walk

variable {tree : FileTree} {listable : String → Bool}

theorem deep_depth (tree : FileTree) (place : Place) : Deep tree place (tree.depth + 1) := by
  intro names taken
  have bound := tree.length_le_depth _ taken
  rw [List.length_append] at bound
  omega

theorem Deep.step {place : Place} {depth : Nat} (deep : Deep tree place (depth + 1)) (name : String) :
    Deep tree (place ++ [name]) depth := by
  intro names taken
  have bound := deep (name :: names) (by simpa using taken)
  rw [List.length_cons] at bound
  omega

theorem mem_visited_succ (depth : Nat) (place : Place) (folder : String) (names : List String) :
    names ∈ visited tree listable (depth + 1) place folder ↔
      listable folder = true ∧ ∃ name ∈ tree.names place, names = [name] ∨
        tree.get? (place ++ [name]) = some .folder ∧
          ∃ rest ∈ visited tree listable depth (place ++ [name]) (Path.join folder name),
            names = name :: rest := by
  rw [visited]
  by_cases lists : listable folder = true
  · rw [if_pos lists, List.mem_flatMap]
    simp only [lists, true_and]
    refine exists_congr fun name => and_congr_right fun _ => ?_
    rw [List.mem_cons]
    refine or_congr_right ?_
    split
    · rename_i inside
      simp [inside, eq_comm]
    · rename_i outside
      simp [outside]
  · simp [lists]

theorem mem_visited {depth : Nat} {place : Place} {folder : String} (deep : Deep tree place depth)
    (names : List String) :
    names ∈ visited tree listable depth place folder ↔
      Reached tree listable place folder names := by
  induction depth generalizing place folder names with
  | zero =>
    constructor
    · intro none
      cases none
    · intro reached
      exact absurd (deep names reached.taken) (Nat.not_lt_zero _)
  | succ depth ih =>
    rw [mem_visited_succ]
    cases names with
    | nil =>
      constructor
      · rintro ⟨-, name, -, none | ⟨-, rest, -, none⟩⟩
        · cases none
        · cases none
      · intro reached
        exact absurd rfl reached.below
    | cons name rest =>
      rw [reached_cons_iff]
      refine and_congr_right fun _ => ?_
      constructor
      · rintro ⟨other, member, last | ⟨inside, more, deeper, same⟩⟩
        · obtain ⟨rfl, rfl⟩ := List.cons.inj last
          exact ⟨member, Or.inl rfl⟩
        · obtain ⟨rfl, rfl⟩ := List.cons.inj same
          exact ⟨member, Or.inr ⟨inside, (ih (deep.step name) rest).1 deeper⟩⟩
      · rintro ⟨member, rfl | ⟨inside, deeper⟩⟩
        · exact ⟨name, member, Or.inl rfl⟩
        · exact ⟨name, member, Or.inr ⟨inside, rest, (ih (deep.step name) rest).2 deeper, rfl⟩⟩

theorem starts_of_mem {name : String} {names : List String} {inside : List (List String)}
    (member : names ∈ [name] :: inside.map (name :: ·)) : ∃ rest, names = name :: rest := by
  rcases List.mem_cons.1 member with rfl | later
  · exact ⟨[], rfl⟩
  · obtain ⟨rest, -, rfl⟩ := List.mem_map.1 later
    exact ⟨rest, rfl⟩

theorem pairwise_visited {depth : Nat} {place : Place} {folder : String}
    (deep : Deep tree place depth) : (visited tree listable depth place folder).Pairwise (· < ·) := by
  induction depth generalizing place folder with
  | zero => exact List.Pairwise.nil
  | succ depth ih =>
    rw [visited]
    split
    · rw [List.pairwise_flatMap]
      constructor
      · intro name _
        rw [List.pairwise_cons, List.pairwise_map]
        split
        · constructor
          · intro names member
            obtain ⟨rest, there, rfl⟩ := List.mem_map.1 member
            have filled := ((mem_visited (deep.step name) rest).1 there).below
            obtain ⟨first, more, rfl⟩ := List.exists_cons_of_ne_nil filled
            exact List.cons_lt_cons_iff.2 (Or.inr ⟨rfl, List.nil_lt_cons first more⟩)
          · exact (ih (deep.step name)).imp fun before =>
              List.cons_lt_cons_iff.2 (Or.inr ⟨rfl, before⟩)
        · exact ⟨by simp, List.Pairwise.nil⟩
      · refine (tree.pairwise_names place).imp ?_
        intro name other before names member others later
        obtain ⟨rest, rfl⟩ := starts_of_mem member
        obtain ⟨more, rfl⟩ := starts_of_mem later
        exact List.cons_lt_cons_iff.2 (Or.inl before)
    · exact List.Pairwise.nil

/-! The survey along the list of places. -/

def isSkipped (tree : FileTree) (listable : String → Bool) (place : Place) (root : String)
    (names : List String) : Bool :=
  tree.get? (place ++ names) = some .folder && !listable (pathTo root names)

def report (tree : FileTree) (listable : String → Bool) (place : Place) (root : String)
    (places : List (List String)) : Survey :=
  ⟨places.map (pathTo root),
    (places.filter (isSkipped tree listable place root)).map fun names =>
      warningFor (pathTo root names)⟩

theorem report_append (place : Place) (root : String) (front back : List (List String)) :
    report tree listable place root (front ++ back) =
      append (report tree listable place root front) (report tree listable place root back) := by
  simp [report, append]

theorem report_flatMap (place : Place) (root : String) (names : List String)
    (branch : String → List (List String)) :
    report tree listable place root (names.flatMap branch) =
      names.foldr (fun name more => append (report tree listable place root (branch name)) more)
        ⟨[], []⟩ := by
  induction names with
  | nil => rfl
  | cons name names ih => rw [List.flatMap_cons, report_append, ih, List.foldr_cons]

theorem isSkipped_cons (place : Place) (root name : String) (rest : List String) :
    isSkipped tree listable place root (name :: rest) =
      isSkipped tree listable (place ++ [name]) (Path.join root name) rest := by
  simp [isSkipped, pathTo]

theorem report_map_cons (place : Place) (root name : String) (places : List (List String)) :
    report tree listable place root (places.map (name :: ·)) =
      report tree listable (place ++ [name]) (Path.join root name) places := by
  have skips : isSkipped tree listable place root ∘ (name :: ·) =
      isSkipped tree listable (place ++ [name]) (Path.join root name) :=
    funext fun rest => isSkipped_cons place root name rest
  simp only [report, List.map_map, List.filter_map, skips]
  rfl

theorem report_branch (place : Place) (root name : String) (inside : List (List String)) :
    report tree listable place root ([name] :: inside.map (name :: ·)) =
      append (report tree listable place root [[name]])
        (report tree listable (place ++ [name]) (Path.join root name) inside) := by
  rw [← report_map_cons, ← report_append]
  rfl

theorem report_child (place : Place) (root name : String)
    (passes : tree.get? (place ++ [name]) = some .folder → listable (Path.join root name) = true) :
    report tree listable place root [[name]] = ⟨[Path.join root name], []⟩ := by
  have passed : isSkipped tree listable place root [name] = false := by
    simpa [isSkipped, pathTo] using passes
  simp [report, passed, pathTo]

theorem below_of_closed {depth : Nat} {place : Place} {folder : String}
    (deep : Deep tree place depth) (taken : (tree.get? place).isSome = true)
    (closed : listable folder = false) :
    below tree listable depth place folder = ⟨[], [warningFor folder]⟩ ∧
      visited tree listable depth place folder = [] := by
  cases depth with
  | zero => exact absurd (deep [] (by simpa using taken)) (Nat.not_lt_zero _)
  | succ depth =>
    rw [below, visited, closed]
    exact ⟨rfl, rfl⟩

theorem below_eq_report {depth : Nat} {place : Place} {folder : String}
    (deep : Deep tree place depth) (lists : listable folder = true) :
    below tree listable depth place folder =
      report tree listable place folder (visited tree listable depth place folder) := by
  induction depth generalizing place folder with
  | zero => rfl
  | succ depth ih =>
    rw [below, if_pos lists, visited, if_pos lists, report_flatMap]
    congr 1
    funext name more
    dsimp only
    rw [report_branch]
    by_cases enters : tree.get? (place ++ [name]) = some .folder
    · rw [if_pos enters, if_pos enters]
      by_cases further : listable (Path.join folder name) = true
      · rw [report_child _ _ _ fun _ => further, ih (deep.step name) further]
        rfl
      · obtain ⟨warned, none⟩ := below_of_closed (deep.step name) (by rw [enters]; rfl)
          (Bool.eq_false_iff.2 further)
        have skips : isSkipped tree listable place folder [name] = true := by
          simp [isSkipped, pathTo, enters, further]
        rw [warned, none]
        simp [report, skips, append, pathTo]
    · rw [if_neg enters, if_neg enters, report_child _ _ _ fun inside => absurd inside enters]
      rfl

end Walk

end Survey

end JuceWorkbench.Artifact
