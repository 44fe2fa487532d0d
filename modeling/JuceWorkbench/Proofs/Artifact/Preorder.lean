import JuceWorkbench.Proofs.Artifact.PathText
import JuceWorkbench.Proofs.Artifact.Resolution
import JuceWorkbench.Proofs.Tree.Nesting

/-! The order of a survey. A folder comes before what is in it, and of two places that part somewhere
the one with the smaller name there comes first. In a tree of plain names each path is listed once;
a place is missed only if it lies in a folder that there is a warning for. -/

namespace JuceWorkbench.Artifact
open Project

def codePoints (name : String) : List Nat := name.toList.map Char.toNat

/-- The order of a walk: what a place is on the way to comes behind it, and of two ways that part the
one with the smaller name comes first. -/
inductive ComesBefore : List String → List String → Prop
  | above (names : List String) {more : List String} (further : more ≠ []) :
    ComesBefore names (names ++ more)
  | beside (front : List String) {a b : String} (smaller : codePoints a < codePoints b)
      (rest more : List String) : ComesBefore (front ++ a :: rest) (front ++ b :: more)

theorem codePoints_lt {a b : String} (smaller : a < b) : codePoints a < codePoints b :=
  List.map_lt (fun _ _ before => Char.lt_def.1 before) (String.lt_iff.1 smaller)

theorem ComesBefore.cons {names other : List String} (before : ComesBefore names other) (name : String) :
    ComesBefore (name :: names) (name :: other) := by
  cases before with
  | above names further => exact .above (name :: names) further
  | beside front smaller rest more => exact .beside (name :: front) smaller rest more

theorem comesBefore_of_lt {names other : List String} (before : names < other) :
    ComesBefore names other := by
  induction names generalizing other with
  | nil =>
    cases other with
    | nil => exact absurd before (List.lt_irrefl [])
    | cons name rest => exact .above [] (List.cons_ne_nil name rest)
  | cons a names ih =>
    cases other with
    | nil => exact absurd before (List.not_lt_nil _)
    | cons b other =>
      rcases List.cons_lt_cons_iff.1 before with smaller | ⟨rfl, further⟩
      · exact .beside [] (codePoints_lt smaller) names other
      · exact (ih further).cons a

/-- A tree as a file system holds it: everything stands in a folder and has a plain name. -/
structure IsNamed (tree : FileTree) : Prop where
  closed : tree.Closed
  plain : ∀ {place : Place}, (tree.get? place).isSome = true → ∀ name ∈ place, Path.IsPlain name.toList

theorem isNamed_of_entries {tree : FileTree} (root : tree.get? [] = some .folder)
    (above : ∀ place ∈ tree.entries.map Prod.fst, tree.get? place.dropLast = some .folder)
    (plain : ∀ place ∈ tree.entries.map Prod.fst, ∀ name ∈ place, Path.IsPlain name.toList) :
    IsNamed tree where
  closed := by
    refine ⟨root, ?_⟩
    intro place name node there
    have folder := above _ ((tree.isSome_get?_iff _).1 (Option.isSome_of_eq_some there))
    rwa [List.dropLast_concat] at folder
  plain taken := plain _ ((tree.isSome_get?_iff _).1 taken)

section Reached

variable {tree : FileTree} {listable : String → Bool} {place : Place} {root : String}

theorem Reached.plain (named : IsNamed tree) {names : List String}
    (reached : Reached tree listable place root names) : ∀ name ∈ names, Path.IsPlain name.toList :=
  fun name member => named.plain reached.taken name (List.mem_append_right place member)

theorem Reached.concat {front : List String} {name : String}
    (reached : Reached tree listable place root front)
    (folder : tree.get? (place ++ front) = some .folder) (lists : listable (pathTo root front) = true)
    (taken : (tree.get? (place ++ (front ++ [name]))).isSome = true) :
    Reached tree listable place root (front ++ [name]) where
  below := by simp
  taken := taken
  folders := by
    intro inner start filled short
    have within := (List.prefix_concat_iff.1 start).resolve_left short
    by_cases whole : inner = front
    · rw [whole, folder]
    · exact reached.folders inner within filled whole
  listed := by
    intro inner start short
    have within := (List.prefix_concat_iff.1 start).resolve_left short
    by_cases whole : inner = front
    · rw [whole, lists]
    · exact reached.listed inner within whole

theorem reached_singleton {name : String} (lists : listable root = true)
    (taken : (tree.get? (place ++ [name])).isSome = true) : Reached tree listable place root [name] :=
  (reached_cons_iff name []).2 ⟨lists, (tree.mem_names place name).2 taken, Or.inl rfl⟩

/-- What stands below a folder is reached, or there is a folder above it that is reached and cannot
be listed. -/
theorem reached_or_skipped (closed : tree.Closed) (lists : listable root = true) {names : List String}
    (filled : names ≠ []) (taken : (tree.get? (place ++ names)).isSome = true) :
    Reached tree listable place root names ∨
      ∃ inner, Reached tree listable place root inner ∧
        Survey.isSkipped tree listable place root inner = true ∧ inner <+: names ∧ inner ≠ names := by
  induction names using List.reverseRecOn with
  | nil => exact absurd rfl filled
  | append_singleton front name ih =>
    by_cases first : front = []
    · subst first
      exact Or.inl (reached_singleton lists taken)
    obtain ⟨node, there⟩ := Option.isSome_iff_exists.1 taken
    rw [← List.append_assoc] at there
    have folder := closed.above there
    rcases ih first (by rw [folder]; rfl) with reached | ⟨inner, reached, skips, start, short⟩
    · by_cases further : listable (pathTo root front) = true
      · exact Or.inl (reached.concat folder further taken)
      · refine Or.inr ⟨front, reached, ?_, List.prefix_append front [name], by simp⟩
        simp [Survey.isSkipped, folder, further]
    · refine Or.inr ⟨inner, reached, skips, start.trans (List.prefix_append front [name]), ?_⟩
      rintro rfl
      exact absurd start.length_le (by simp)

theorem not_reached_of_skipped {inner names : List String}
    (skips : Survey.isSkipped tree listable place root inner = true) (start : inner <+: names)
    (short : inner ≠ names) : ¬Reached tree listable place root names := by
  intro reached
  rw [Survey.isSkipped, reached.listed inner start short] at skips
  simp at skips

end Reached

section Survey

variable {tree : FileTree} {surroundings : Surroundings} {root : String} {place : Place}

theorem mem_walk_of_leads (leads : tree.locate true surroundings.place root = .ok (.taken place .folder))
    (names : List String) : names ∈ walk tree surroundings root ↔
      Reached tree (canList surroundings) place root names := by
  rw [mem_walk]
  unfold Walks
  rw [leads]
  simp

theorem nodup_paths (named : IsNamed tree)
    (leads : tree.locate true surroundings.place root = .ok (.taken place .folder)) :
    ((walk tree surroundings root).map (pathTo root)).Nodup := by
  refine List.pairwise_map.2 ((pairwise_walk root).imp_of_mem ?_)
  intro names other member also before same
  have one := (mem_walk_of_leads leads names).1 member
  have two := (mem_walk_of_leads leads other).1 also
  have alike : names = other := pathTo_inj (one.plain named) one.below (two.plain named) two.below same
  exact List.lt_irrefl other (alike ▸ before)

/-- The paths below a folder that can be listed are those of the places the walk comes to, each once
and in the order of the walk, with a warning for each folder it cannot list. Links are listed and
lead nowhere, and only what is in a folder with a warning is missing. -/
theorem survey_preorder (named : IsNamed tree)
    (leads : tree.locate true surroundings.place root = .ok (.taken place .folder))
    (lists : canList surroundings root = true) :
    ∃ places skipped : List (List String),
      Survey.of tree surroundings root =
        .ok ⟨places.map (pathTo root), skipped.map fun names => Survey.warningFor (pathTo root names)⟩ ∧
      places.Pairwise ComesBefore ∧
      (places.map (pathTo root)).Nodup ∧
      (∀ names, names ∈ places ↔ Reached tree (canList surroundings) place root names) ∧
      (∀ names ∈ places, ∀ target, tree.get? (place ++ names) = some (.link target) →
        ∀ other ∈ places, names <+: other → other = names) ∧
      skipped.Sublist places ∧
      (∀ names, names ∈ skipped ↔ names ∈ places ∧
        tree.get? (place ++ names) = some .folder ∧ canList surroundings (pathTo root names) = false) ∧
      ∀ names, names ≠ [] → (tree.get? (place ++ names)).isSome = true →
        (names ∈ places ↔ ¬∃ inner ∈ skipped, inner <+: names ∧ inner ≠ names) := by
  have reached (names : List String) : names ∈ walk tree surroundings root ↔
      Reached tree (canList surroundings) place root names := mem_walk_of_leads leads names
  have skips (names : List String) :
      names ∈ (walk tree surroundings root).filter
          (Survey.isSkipped tree (canList surroundings) place root) ↔
        names ∈ walk tree surroundings root ∧ tree.get? (place ++ names) = some .folder ∧
          canList surroundings (pathTo root names) = false := by
    rw [List.mem_filter]
    simp [Survey.isSkipped]
  refine ⟨walk tree surroundings root, (walk tree surroundings root).filter
    (Survey.isSkipped tree (canList surroundings) place root), survey_of_open leads lists, ?ordered,
    nodup_paths named leads, reached, ?links, List.filter_sublist, skips, ?missed⟩
  case ordered => exact (pairwise_walk root).imp comesBefore_of_lt
  case links =>
    intro names member target linked other also start
    by_cases whole : names = other
    · exact whole.symm
    -- what is on the way to something else is a folder
    have folder := ((reached other).1 also).folders names start ((reached names).1 member).below whole
    rw [linked] at folder
    cases folder
  case missed =>
    intro names filled taken
    rw [reached]
    constructor
    · rintro there ⟨inner, member, start, short⟩
      exact not_reached_of_skipped (List.mem_filter.1 member).2 start short there
    · intro clear
      apply (reached_or_skipped named.closed lists filled taken).resolve_right
      rintro ⟨inner, there, closed, start, short⟩
      exact clear ⟨inner, List.mem_filter.2 ⟨(reached inner).2 there, closed⟩, start, short⟩

end Survey

/-! A link to the folder above, a folder that cannot be listed, and one that can. -/

def mixedTree : FileTree :=
  ⟨[([], .folder), (["W"], .folder), (["W", "out"], .folder), (["W", "out", "back"], .link ".."),
    (["W", "out", "shut"], .folder), (["W", "out", "shut", "lost"], .file [] 0o644),
    (["W", "out", "sub"], .folder), (["W", "out", "sub", "kept"], .file [] 0o644)], by decide⟩

def shutFolder : Surroundings := { unlistable := ["/W/out/shut"] }

theorem isNamed_mixedTree : IsNamed mixedTree := by
  apply isNamed_of_entries
  · rfl
  · decide
  · decide

theorem locate_mixedTree :
    mixedTree.locate true shutFolder.place "/W/out" = .ok (.taken ["W", "out"] .folder) := by
  rw [FileTree.locate_of_parts (by decide) (by decide)
    (show _ = ["", "W", "out"] by decide)]
  rw [FileTree.locateFrom_folder (by decide) rfl,
    FileTree.locateFrom_folder (by decide) rfl, FileTree.locateFrom_nil]
  rfl

theorem survey_preorder_mixedTree :
    IsNamed mixedTree ∧
      mixedTree.locate true shutFolder.place "/W/out" = .ok (.taken ["W", "out"] .folder) ∧
      canList shutFolder "/W/out" = true ∧
      ∃ places skipped : List (List String),
        Survey.of mixedTree shutFolder "/W/out" =
          .ok ⟨places.map (pathTo "/W/out"),
            skipped.map fun names => Survey.warningFor (pathTo "/W/out" names)⟩ ∧
        places.Pairwise ComesBefore ∧ ["back"] ∈ places ∧ ["shut"] ∈ skipped ∧
        ["shut", "lost"] ∉ places ∧ ["sub", "kept"] ∈ places := by
  have lists : canList shutFolder "/W/out" = true := by decide
  obtain ⟨places, skipped, told, ordered, -, reached, -, -, skips, missed⟩ :=
    survey_preorder isNamed_mixedTree locate_mixedTree lists
  have shut : ["shut"] ∈ skipped := (skips ["shut"]).2
    ⟨(reached ["shut"]).2 (reached_singleton lists rfl), rfl, by decide⟩
  have lost : ["shut", "lost"] ∉ places := fun member =>
    (missed ["shut", "lost"] (by decide) rfl).1 member ⟨["shut"], shut, by decide, by decide⟩
  have kept : Reached mixedTree (canList shutFolder) ["W", "out"] "/W/out" (["sub"] ++ ["kept"]) :=
    (reached_singleton lists rfl).concat rfl (by decide) rfl
  exact ⟨isNamed_mixedTree, locate_mixedTree, lists, places, skipped, told, ordered,
    (reached ["back"]).2 (reached_singleton lists rfl), shut, lost, (reached _).2 kept⟩

end JuceWorkbench.Artifact
