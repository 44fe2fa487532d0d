import JuceWorkbench.Proofs.Bench.Keeping

/-! What writing, making, moving and removing files do at a bench: each operation is refused and
changes nothing, or it changes what stands at the places its paths lead to. Properties that survive
these changes are kept by the work made of them. -/

namespace JuceWorkbench

/-- A path leads to a location when its last link is not followed. -/
abbrev Bench.Finds (bench : Bench) (path : String) (location : FileTree.Location) : Prop :=
  bench.tree.locate false bench.surroundings.place path = .ok location

abbrev Bench.onTree (bench : Bench) (change : FileTree → FileTree) : Bench :=
  { bench with tree := change bench.tree }

namespace Work

variable {kept : Bench → Prop} {bench : Bench} {path : String}

theorem outcome_locate_of_finds {location : FileTree.Location}
    (clean : path.toList.contains '\x00' = false) (finds : bench.Finds path location) :
    outcome (locate false path) bench = (.ok location, bench) := by
  unfold locate
  rw [if_neg (by rw [clean]; exact Bool.false_ne_true), outcome_bind_ok (outcome_tree bench),
    outcome_bind_ok (outcome_surroundings bench), finds]
  rfl

theorem outcome_locate_unfollowed (path : String) (bench : Bench) :
    (∃ location, bench.Finds path location ∧
        outcome (locate false path) bench = (.ok location, bench)) ∨
      ∃ fault, outcome (locate false path) bench = (.error (.fault fault), bench) := by
  unfold locate
  split
  · exact Or.inr ⟨_, outcome_fail _ bench⟩
  · rw [outcome_bind_ok (outcome_tree bench), outcome_bind_ok (outcome_surroundings bench)]
    unfold Bench.Finds
    cases bench.tree.locate false bench.surroundings.place path with
    | ok location => exact Or.inl ⟨location, rfl, rfl⟩
    | error reason => exact Or.inr ⟨_, outcome_fail _ bench⟩

theorem makeFolder_cases (path : String) (bench : Bench) :
    (∃ place, bench.Finds path (.free place) ∧
        outcome (makeFolder path) bench = (.ok (), bench.onTree (·.put place .folder))) ∨
      ∃ fault, outcome (makeFolder path) bench = (.error (.fault fault), bench) := by
  unfold makeFolder
  rcases outcome_locate_unfollowed path bench with ⟨location, finds, ends⟩ | ⟨fault, stops⟩
  · rw [outcome_bind_ok ends]
    cases location with
    | free place => exact Or.inl ⟨place, finds, rfl⟩
    | taken place node => exact Or.inr ⟨_, outcome_fail _ bench⟩
  · exact Or.inr ⟨fault, outcome_bind_error stops _⟩

theorem removeFile_cases (path : String) (bench : Bench) :
    (∃ place node, bench.Finds path (.taken place node) ∧ node ≠ .folder ∧
        outcome (removeFile path) bench = (.ok (), bench.onTree (·.erase place))) ∨
      ∃ fault, outcome (removeFile path) bench = (.error (.fault fault), bench) := by
  unfold removeFile
  rcases outcome_locate_unfollowed path bench with ⟨location, finds, ends⟩ | ⟨fault, stops⟩
  · rw [outcome_bind_ok ends]
    cases location with
    | free place => exact Or.inr ⟨_, outcome_fail _ bench⟩
    | taken place node =>
      cases node with
      | folder => exact Or.inr ⟨_, outcome_fail _ bench⟩
      | file contents mode => exact Or.inl ⟨place, _, finds, by rintro ⟨⟩, rfl⟩
      | link target => exact Or.inl ⟨place, _, finds, by rintro ⟨⟩, rfl⟩
  · exact Or.inr ⟨fault, outcome_bind_error stops _⟩

theorem outcome_moveFile {source target : String} {old new : Place} {node stood : Node}
    (finds : bench.Finds source (.taken old node)) (leads : bench.Finds target (.taken new stood))
    (other : stood ≠ .folder) : outcome (moveFile source target) bench =
      (.ok (), bench.onTree fun tree => (tree.erase old).put new node) := by
  unfold moveFile
  dsimp only
  rw [outcome_bind_ok (outcome_tree bench), outcome_bind_ok (outcome_surroundings bench), finds, leads]
  cases stood with
  | folder => exact absurd rfl other
  | file contents mode => rfl
  | link target => rfl

/-- A file is moved unless it is missing or a folder stands where it goes. -/
theorem moveFile_cases (source target : String) (bench : Bench) :
    (∃ old node location, bench.Finds source (.taken old node) ∧ bench.Finds target location ∧
        location.node? ≠ some .folder ∧ outcome (moveFile source target) bench =
          (.ok (), bench.onTree fun tree => (tree.erase old).put location.place node)) ∨
      (∀ old node location, bench.Finds source (.taken old node) → bench.Finds target location →
        location.node? = some .folder) ∧ ∃ reason, outcome (moveFile source target) bench =
          (.error (.fault (.file { reason, path := source, target := some target })), bench) := by
  unfold moveFile
  dsimp only
  rw [outcome_bind_ok (outcome_tree bench), outcome_bind_ok (outcome_surroundings bench)]
  unfold Bench.Finds
  cases bench.tree.locate false bench.surroundings.place source with
  | error reason => exact Or.inr ⟨by rintro old node location ⟨⟩, _, rfl⟩
  | ok start =>
    cases start with
    | free place => exact Or.inr ⟨by rintro old node location ⟨⟩, _, rfl⟩
    | taken old node =>
      cases bench.tree.locate false bench.surroundings.place target with
      | error reason => exact Or.inr ⟨by rintro old node location - ⟨⟩, _, rfl⟩
      | ok location =>
        cases location with
        | free place => exact Or.inl ⟨old, node, _, rfl, rfl, by rintro ⟨⟩, rfl⟩
        | taken place stood =>
          cases stood with
          | folder => exact Or.inr ⟨by rintro old node location - ⟨⟩; rfl, _, rfl⟩
          | file contents mode => exact Or.inl ⟨old, node, _, rfl, rfl, by rintro ⟨⟩, rfl⟩
          | link target => exact Or.inl ⟨old, node, _, rfl, rfl, by rintro ⟨⟩, rfl⟩

theorem Keeps.writeOctets (path : String) (octets : List UInt8)
    (writes : ∀ bench location, kept bench → Opens bench.tree bench.surroundings path location →
      kept (bench.write location octets)) : Keeps kept (Work.writeOctets path octets) := by
  intro bench before
  refine ⟨?_, fun _ _ => trivial⟩
  by_cases opens : ∃ location, Opens bench.tree bench.surroundings path location
  · obtain ⟨location, opens⟩ := opens
    rw [outcome_writeOctets opens]
    exact writes bench location before opens
  · obtain ⟨fault, stops⟩ := outcome_writeOctets_of_not_opens (not_exists.1 opens) octets
    rw [stops]
    exact before

theorem Keeps.makeFolder (path : String)
    (makes : ∀ bench place, kept bench → bench.Finds path (.free place) →
      kept (bench.onTree (·.put place .folder))) : Keeps kept (Work.makeFolder path) := by
  intro bench before
  refine ⟨?_, fun _ _ => trivial⟩
  rcases makeFolder_cases path bench with ⟨place, finds, ends⟩ | ⟨fault, stops⟩
  · rw [ends]
    exact makes bench place before finds
  · rw [stops]
    exact before

theorem Keeps.removeFile (path : String)
    (removes : ∀ bench place node, kept bench → bench.Finds path (.taken place node) →
      node ≠ .folder → kept (bench.onTree (·.erase place))) : Keeps kept (Work.removeFile path) := by
  intro bench before
  refine ⟨?_, fun _ _ => trivial⟩
  rcases removeFile_cases path bench with ⟨place, node, finds, other, ends⟩ | ⟨fault, stops⟩
  · rw [ends]
    exact removes bench place node before finds other
  · rw [stops]
    exact before

/-! Looking and reading change nothing. -/

theorem keeps_locate (follow : Bool) (path : String) : Keeps kept (locate follow path) := by
  unfold locate
  split
  · exact Yields.fail _
  · refine Keeps.bind (.of_unchanged outcome_tree) fun tree => ?_
    refine Keeps.bind (.of_unchanged outcome_surroundings) fun surroundings => ?_
    split
    · exact Keeps.pure _
    · exact Yields.fail _

theorem keeps_readOctets (path : String) : Keeps kept (readOctets path) := by
  unfold readOctets
  refine Keeps.bind (.of_unchanged outcome_surroundings) fun surroundings => ?_
  refine Keeps.bind (.of_unchanged (outcome_absolute path)) fun whole => ?_
  split
  · exact Yields.fail _
  · refine Keeps.bind (keeps_locate true path) fun location => ?_
    split
    · exact Keeps.pure _
    · exact Yields.fail _
    · exact Yields.fail _

theorem keeps_readExact (path : String) : Keeps kept (readExact path) := by
  refine Keeps.bind (keeps_readOctets path) fun octets => ?_
  split
  · exact Keeps.pure _
  · exact Yields.fail _

theorem keeps_fileExists (path : String) : Keeps kept (fileExists path) := .of_unchanged fun _ => rfl

theorem keeps_isFolder (path : String) : Keeps kept (isFolder path) := .of_unchanged fun _ => rfl

theorem keeps_missingUpTo (paths : List String) :
    Yields kept (missingUpTo paths) fun missing => missing ⊆ paths := by
  induction paths with
  | nil => exact Yields.pure (List.Subset.refl _)
  | cons path more ih =>
    refine Keeps.bind (keeps_fileExists path) fun found => ?_
    cases found with
    | true => exact Yields.pure (List.nil_subset _)
    | false =>
      exact Yields.bind ih fun rest below => Yields.pure (List.cons_subset_cons path below)

theorem keeps_makeFolderUnless {allowed : FileReason → Work Bool}
    (allows : ∀ reason, Keeps kept (allowed reason)) (makes : Keeps kept (Work.makeFolder path)) :
    Keeps kept (makeFolderUnless allowed path) := by
  refine Yields.bind makes.attempt fun result _ => ?_
  split
  · exact Keeps.pure ()
  · refine Keeps.bind (allows _) fun passed => ?_
    split
    · exact Keeps.pure ()
    · exact Yields.fail _
  · exact Yields.fail _

theorem keeps_makeFolders (path : String) (mayExist : Bool)
    (makes : ∀ folder ∈ path :: foldersAbove path, Keeps kept (Work.makeFolder folder)) :
    Keeps kept (makeFolders path mayExist) := by
  refine Yields.bind (keeps_missingUpTo (foldersAbove path)) fun missing among => ?_
  refine Keeps.bind (Keeps.forM fun folder member => ?_) fun _ => ?_
  · refine keeps_makeFolderUnless (fun reason => .of_unchanged fun _ => rfl) (makes folder ?_)
    exact List.mem_cons_of_mem _ (among (List.mem_reverse.1 member))
  · exact keeps_makeFolderUnless (fun reason => .of_unchanged fun _ => rfl)
      (makes path List.mem_cons_self)

theorem Keeps.putOpened (path : String) (node : FileTree → Surroundings → Node)
    (puts : ∀ {bench : Bench} {location : FileTree.Location}, kept bench →
      Opens bench.tree bench.surroundings path location →
        kept (bench.onTree (·.put location.place (node bench.tree bench.surroundings)))) :
    Keeps kept (do
      let (place, _, _) ← openForWriting path
      let tree ← tree
      let surroundings ← surroundings
      setTree ((← Work.tree).put place (node tree surroundings))) := by
  intro bench before
  refine ⟨?_, fun _ _ => trivial⟩
  by_cases opens : ∃ location, Opens bench.tree bench.surroundings path location
  · obtain ⟨location, opens⟩ := opens
    rw [outcome_bind_ok (outcome_openForWriting opens)]
    exact puts before opens
  · obtain ⟨fault, stops⟩ := outcome_openForWriting_of_not_opens (not_exists.1 opens)
    rw [outcome_bind_error stops]
    exact before

/-- A copy is written where its target leads, or into the folder that the target is. -/
theorem Keeps.copyFile (source target : String)
    (writes : ∀ {bench : Bench} {location : FileTree.Location}, kept bench →
      ∀ path ∈ [target, Path.join target (Path.baseName source)],
        Opens bench.tree bench.surroundings path location → ∀ contents mode,
          kept (bench.onTree (·.put location.place (.file contents mode)))) :
    Keeps kept (Work.copyFile source target) := by
  unfold Work.copyFile
  refine Keeps.bind (keeps_isFolder target) fun inside => ?_
  have among : (if inside then Path.join target (Path.baseName source) else target) ∈
      [target, Path.join target (Path.baseName source)] := by
    cases inside <;> simp
  refine Keeps.bind (.of_unchanged outcome_tree) fun _ => ?_
  refine Keeps.bind (.of_unchanged outcome_surroundings) fun _ => ?_
  refine Keeps.bind (.of_unchanged outcome_tree) fun _ => ?_
  refine Keeps.bind (.of_unchanged outcome_surroundings) fun _ => ?_
  dsimp only
  split
  · split
    · exact Keeps.bind (Yields.fail _) fun _ => Keeps.bind (keeps_readOctets source) fun _ =>
        Keeps.putOpened _ _ fun holds opens => writes holds _ among opens _ _
    · exact Keeps.bind (keeps_readOctets source) fun _ =>
        Keeps.putOpened _ _ fun holds opens => writes holds _ among opens _ _
  · exact Keeps.bind (keeps_readOctets source) fun _ =>
      Keeps.putOpened _ _ fun holds opens => writes holds _ among opens _ _

theorem prefix_of_mem_removals (tree : FileTree) (rank : Place → String → Nat) (depth : Nat)
    (folder : Place) {place : Place} (among : .erase place ∈ removals tree rank depth folder) :
    folder <+: place := by
  induction depth generalizing folder with
  | zero =>
    obtain ⟨⟩ := List.mem_singleton.1 among
    exact List.prefix_refl _
  | succ depth ih =>
    simp only [removals, List.mem_append, List.mem_cons, List.mem_flatMap, List.not_mem_nil, or_false,
      reduceCtorEq, false_or] at among
    rcases among with ⟨name, -, inside⟩ | last
    · refine (List.prefix_append folder [name]).trans ?_
      split at inside
      · exact ih _ inside
      · obtain ⟨⟩ := List.mem_singleton.1 inside
        exact List.prefix_refl _
    · cases last
      exact List.prefix_refl _

theorem Keeps.removeFolder (path : String)
    (erases : ∀ {bench : Bench} {folder : Place}, kept bench → bench.Finds path (.taken folder .folder) →
      ∀ {later : Bench} {place : Place}, kept later → folder <+: place →
        kept (later.onTree (·.erase place))) : Keeps kept (Work.removeFolder path) := by
  intro bench before
  refine ⟨?_, fun _ _ => trivial⟩
  unfold Work.removeFolder
  rcases outcome_locate_unfollowed path bench with ⟨location, finds, ends⟩ | ⟨fault, stops⟩
  · rw [outcome_bind_ok ends]
    match location, finds with
    | .free place, _ => exact before
    | .taken place (.link target), _ => exact before
    | .taken place (.file contents mode), _ => exact before
    | .taken folder .folder, finds =>
      refine (Keeps.bind (.of_unchanged outcome_tree) fun tree => ?_ : Keeps kept _) bench before |>.1
      refine Keeps.bind (.of_unchanged outcome_surroundings) fun _ => ?_
      refine Keeps.forM fun step among => ?_
      cases step with
      | enter place =>
        dsimp only
        split
        · exact Yields.fail _
        · exact Keeps.pure ()
      | erase place =>
        have inside := prefix_of_mem_removals _ _ _ _ among
        exact fun later holds => ⟨erases before finds holds inside, fun _ _ => trivial⟩
  · rw [outcome_bind_error stops]
    exact before

end Work

end JuceWorkbench
