import JuceWorkbench.Proofs.Artifact.Choice
import JuceWorkbench.Proofs.Artifact.Walk
import JuceWorkbench.Proofs.Text.Blank

/-! The program of a project, by what the walk comes to. A result is what `Reference` says of the
places the walk comes to, and of nothing else. The names on the way to two places are compared one
after another; that is the order of the walk (`Survey.pairwise_visited`). -/

namespace JuceWorkbench.Artifact
open Project

def IsOpen (tree : FileTree) (surroundings : Surroundings) (root : String) : Prop :=
  tree.isFolder surroundings.place root = true ∧ canList surroundings root = true

/-- The walk below a folder comes to a place. -/
def Walks (tree : FileTree) (surroundings : Surroundings) (root : String) (names : List String) : Prop :=
  ∃ place, tree.locate true surroundings.place root = .ok (.taken place .folder) ∧
    Reached tree (canList surroundings) place root names

/-- A place stands below a folder, in folders that the walk may be unable to list. -/
def StandsBelow (tree : FileTree) (surroundings : Surroundings) (root : String) (names : List String) :
    Prop :=
  ∃ place, tree.locate true surroundings.place root = .ok (.taken place .folder) ∧
    Reached tree (fun _ => true) place root names

/-- The walk comes to a folder that cannot be listed. -/
def Skips (tree : FileTree) (surroundings : Surroundings) (root : String) (names : List String) : Prop :=
  ∃ place, tree.locate true surroundings.place root = .ok (.taken place .folder) ∧
    Reached tree (canList surroundings) place root names ∧
    tree.get? (place ++ names) = some .folder ∧ canList surroundings (pathTo root names) = false

/-- A path that may be the program of the project. -/
def IsProgram (tree : FileTree) (surroundings : Surroundings) (metadata : Metadata)
    (platform : Platform) (path : String) : Prop :=
  match Strategy.of metadata.kind platform with
  | .binary =>
    Path.baseName path = platform.executableName metadata.name ∧
      isExecutableFile tree surroundings platform path = true
  | .bundle =>
    Path.extension path = ".app" ∧ metadata.name.toList <:+: (Path.baseName path).toList ∧
      (metadata.kind = .audioPlugin → "standalone".toList <:+:
        Text.asciiLower (Path.relative surroundings.here path metadata.buildFolder).toList)

/-- The build type occurs in the path, seen from the build folder. -/
def Mentions (surroundings : Surroundings) (metadata : Metadata) (path : String) : Prop :=
  metadata.buildType.word.toList <:+: (Path.relative surroundings.here path metadata.buildFolder).toList

/-- The place to choose among `programs`. -/
structure IsChoice (programs : List String → Prop) (mentions : String → Prop) (root : String)
    (names : List String) : Prop where
  program : programs names
  prefers : ∀ other, programs other → mentions (pathTo root other) → mentions (pathTo root names)
  shortest : ∀ other, programs other → (mentions (pathTo root other) ↔ mentions (pathTo root names)) →
    (pathTo root names).length ≤ (pathTo root other).length
  first : ∀ other, programs other → (mentions (pathTo root other) ↔ mentions (pathTo root names)) →
    (pathTo root other).length = (pathTo root names).length → ¬other < names

def candidateOf (tree : FileTree) (surroundings : Surroundings) (metadata : Metadata)
    (platform : Platform) (names : List String) : Candidate :=
  candidateAt tree surroundings metadata platform metadata.buildFolder (pathTo metadata.buildFolder names)

section Resolution

variable (tree : FileTree) (surroundings : Surroundings) (metadata : Metadata) (platform : Platform)

def Survives (names : List String) : Prop :=
  Walks tree surroundings metadata.buildFolder names ∧
    IsProgram tree surroundings metadata platform (pathTo metadata.buildFolder names)

/-- A place that would survive the filter if every folder could be listed. -/
def WouldSurvive (names : List String) : Prop :=
  StandsBelow tree surroundings metadata.buildFolder names ∧
    IsProgram tree surroundings metadata platform (pathTo metadata.buildFolder names)

/-- What a resolution has to give. -/
inductive Reference : Except Fault Resolution → Prop
  | rootMissing (closed : ¬IsOpen tree surroundings metadata.buildFolder) :
    Reference (.error (.rootMissing metadata.buildFolder))
  | notFound (opens : IsOpen tree surroundings metadata.buildFolder)
      (none : ∀ names, ¬Survives tree surroundings metadata platform names) :
    Reference (.error (.artifactNotFound metadata.buildType.word platform metadata.buildFolder))
  | found (names : List String) (skipped : List (List String))
      (choice : IsChoice (Survives tree surroundings metadata platform)
        (Mentions surroundings metadata) metadata.buildFolder names)
      (ordered : skipped.Pairwise (· < ·))
      (unreadable : ∀ other, other ∈ skipped ↔ Skips tree surroundings metadata.buildFolder other) :
    Reference (.ok ⟨candidateOf tree surroundings metadata platform names,
      skipped.map fun other => Survey.warningFor (pathTo metadata.buildFolder other)⟩)

variable {tree surroundings metadata platform}

theorem isFolder_iff (root : String) : tree.isFolder surroundings.place root = true ↔
    ∃ place, tree.locate true surroundings.place root = .ok (.taken place .folder) := by
  unfold FileTree.isFolder FileTree.node?
  split
  · rename_i place node leads
    rw [beq_iff_eq, leads]
    simp
  · rename_i other
    constructor
    · intro none
      cases none
    · rintro ⟨place, leads⟩
      exact absurd leads (other place .folder)

theorem Walks.opens {root : String} {names : List String} (walks : Walks tree surroundings root names) :
    IsOpen tree surroundings root := by
  obtain ⟨place, leads, reached⟩ := walks
  exact ⟨(isFolder_iff root).2 ⟨place, leads⟩, reached.listable_root⟩

theorem Survives.opens {names : List String}
    (survives : Survives tree surroundings metadata platform names) :
    IsOpen tree surroundings metadata.buildFolder := survives.1.opens

def walk (tree : FileTree) (surroundings : Surroundings) (root : String) : List (List String) :=
  match tree.locate true surroundings.place root with
  | .ok (.taken place .folder) =>
    Survey.visited tree (canList surroundings) (tree.depth + 1) place root
  | _ => []

theorem mem_walk (root : String) (names : List String) :
    names ∈ walk tree surroundings root ↔ Walks tree surroundings root names := by
  unfold walk Walks
  split
  · rename_i place leads
    rw [Survey.mem_visited (Survey.deep_depth tree place), leads]
    simp
  · rename_i other
    constructor
    · intro none
      cases none
    · rintro ⟨place, leads, -⟩
      exact absurd leads (other place)

theorem pairwise_walk (root : String) : (walk tree surroundings root).Pairwise (· < ·) := by
  unfold walk
  split
  · rename_i place _
    exact Survey.pairwise_visited (Survey.deep_depth tree place)
  · exact List.Pairwise.nil

theorem survey_of_open {root : String} {place : Place}
    (leads : tree.locate true surroundings.place root = .ok (.taken place .folder))
    (lists : canList surroundings root = true) :
    Survey.of tree surroundings root =
      .ok (Survey.report tree (canList surroundings) place root (walk tree surroundings root)) := by
  have whole : walk tree surroundings root =
      Survey.visited tree (canList surroundings) (tree.depth + 1) place root := by
    simp only [walk, leads]
  unfold Survey.of
  rw [leads, whole]
  dsimp only
  rw [if_pos lists, Survey.below_eq_report (Survey.deep_depth tree place) lists]

theorem exists_survey (root : String) (opens : IsOpen tree surroundings root) :
    ∃ skipped : List (List String), skipped.Pairwise (· < ·) ∧
      (∀ other, other ∈ skipped ↔ Skips tree surroundings root other) ∧
      Survey.of tree surroundings root =
        .ok ⟨(walk tree surroundings root).map (pathTo root),
          skipped.map fun other => Survey.warningFor (pathTo root other)⟩ := by
  obtain ⟨folder, lists⟩ := opens
  obtain ⟨place, leads⟩ := (isFolder_iff root).1 folder
  refine ⟨(walk tree surroundings root).filter
    (Survey.isSkipped tree (canList surroundings) place root), ?_, ?_, survey_of_open leads lists⟩
  · exact (pairwise_walk root).filter _
  · intro other
    rw [List.mem_filter, mem_walk]
    unfold Walks Skips
    rw [leads]
    simp [Survey.isSkipped]

theorem survey_of_closed (root : String) (closed : ¬IsOpen tree surroundings root) :
    Survey.of tree surroundings root = .error (.rootMissing root) := by
  unfold Survey.of
  split
  · rename_i place leads
    have folder : tree.isFolder surroundings.place root = true := (isFolder_iff root).2 ⟨place, leads⟩
    exact if_neg fun lists => closed ⟨folder, lists⟩
  · rfl

theorem isEmpty_join (folder path : String) (filled : path.isEmpty = false) :
    (Path.join folder path).isEmpty = false := by
  rw [Bool.eq_false_iff, Ne, String.isEmpty_iff] at *
  intro empty
  have letters := congrArg String.toList empty
  unfold Path.join at letters
  split at letters
  · exact filled (String.toList_inj.1 letters)
  · split at letters <;> simp_all

theorem relative_candidateOf (names : List String) :
    (candidateOf tree surroundings metadata platform names).relative =
      Path.relative surroundings.here (pathTo metadata.buildFolder names) metadata.buildFolder := by
  have filled : metadata.buildFolder.isEmpty = false := isEmpty_join _ _ (by decide)
  unfold candidateOf candidateAt Candidate.tag
  simp only [filled, Bool.false_eq_true, if_false]

theorem mentions_candidateOf_iff (names : List String) :
    (candidateOf tree surroundings metadata platform names).mentionsBuildType = true ↔
      Mentions surroundings metadata (pathTo metadata.buildFolder names) := by
  have told : (candidateOf tree surroundings metadata platform names).relative = _ :=
    relative_candidateOf names
  unfold Mentions
  rw [← Text.contains_iff, ← told]
  rfl

theorem candidateOf_fits_iff (names : List String) :
    (candidateOf tree surroundings metadata platform names).fits metadata platform = true ↔
      IsProgram tree surroundings metadata platform (pathTo metadata.buildFolder names) := by
  unfold Candidate.fits IsProgram
  cases Strategy.of metadata.kind platform with
  | binary =>
    simp only [Candidate.isBinary, candidateOf, candidateAt, Candidate.tag, Bool.and_eq_true, beq_iff_eq]
  | bundle =>
    rw [Candidate.isBundle, relative_candidateOf]
    simp only [candidateOf, candidateAt, Candidate.tag, Bool.and_eq_true, Bool.or_eq_true, beq_iff_eq,
      bne_iff_ne, Text.contains_iff, and_assoc, ne_eq, Decidable.imp_iff_not_or]
    rfl

/-! The choice. -/

theorem IsChoice.unique {programs : List String → Prop} {mentions : String → Prop} {root : String}
    {names others : List String} (choice : IsChoice programs mentions root names)
    (again : IsChoice programs mentions root others) : names = others := by
  have alike : mentions (pathTo root others) ↔ mentions (pathTo root names) :=
    ⟨choice.prefers others again.program, again.prefers names choice.program⟩
  have long : (pathTo root others).length = (pathTo root names).length :=
    Nat.le_antisymm (again.shortest names choice.program alike.symm)
      (choice.shortest others again.program alike)
  have notAfter := choice.first others again.program alike long
  have notBefore := again.first names choice.program alike.symm long.symm
  exact List.le_antisymm (List.not_lt.1 notAfter) (List.not_lt.1 notBefore)

theorem IsChoice.mono {programs fewer : List String → Prop} {mentions : String → Prop} {root : String}
    {names : List String} (choice : IsChoice programs mentions root names)
    (less : ∀ other, fewer other → programs other) (stays : fewer names) :
    IsChoice fewer mentions root names where
  program := stays
  prefers other member := choice.prefers other (less other member)
  shortest other member := choice.shortest other (less other member)
  first other member := choice.first other (less other member)

def survivors (tree : FileTree) (surroundings : Surroundings) (metadata : Metadata)
    (platform : Platform) : List (List String) :=
  (walk tree surroundings metadata.buildFolder).filter fun names =>
    (candidateOf tree surroundings metadata platform names).fits metadata platform

theorem mem_survivors (names : List String) : names ∈ survivors tree surroundings metadata platform ↔
    Survives tree surroundings metadata platform names := by
  unfold survivors Survives
  rw [List.mem_filter, mem_walk, candidateOf_fits_iff]

theorem pairwise_survivors : (survivors tree surroundings metadata platform).Pairwise (· < ·) :=
  (pairwise_walk metadata.buildFolder).filter _

theorem mentions_eq_of_alike {names other : List String}
    (alike : Mentions surroundings metadata (pathTo metadata.buildFolder other) ↔
      Mentions surroundings metadata (pathTo metadata.buildFolder names)) :
    (candidateOf tree surroundings metadata platform other).mentionsBuildType =
      (candidateOf tree surroundings metadata platform names).mentionsBuildType := by
  rw [Bool.eq_iff_iff, mentions_candidateOf_iff, mentions_candidateOf_iff, alike]

theorem isChoice_of_best? (chosen : Candidate)
    (best : Candidate.best? ((survivors tree surroundings metadata platform).map
      (candidateOf tree surroundings metadata platform)) = some chosen) :
    ∃ names, chosen = candidateOf tree surroundings metadata platform names ∧
      IsChoice (Survives tree surroundings metadata platform) (Mentions surroundings metadata)
        metadata.buildFolder names := by
  obtain ⟨before, after, choice⟩ := Candidate.exists_of_best? _ _ best
  obtain ⟨front, rest, split, rfl, tail⟩ := List.map_eq_append_iff.1 choice.split
  obtain ⟨names, back, rfl, rfl, rfl⟩ := List.map_eq_cons_iff.1 tail
  have member (other : List String) : Survives tree surroundings metadata platform other ↔
      other ∈ front ∨ other = names ∨ other ∈ back := by
    rw [← mem_survivors, split, List.mem_append, List.mem_cons]
  have order : (front ++ names :: back).Pairwise (· < ·) := split ▸ pairwise_survivors
  have ranked (other : List String) (survives : Survives tree surroundings metadata platform other)
      (alike : Mentions surroundings metadata (pathTo metadata.buildFolder other) ↔
        Mentions surroundings metadata (pathTo metadata.buildFolder names)) :
      (pathTo metadata.buildFolder names).length < (pathTo metadata.buildFolder other).length ∨
        (pathTo metadata.buildFolder names).length ≤ (pathTo metadata.buildFolder other).length ∧
          ¬other < names := by
    have wanted := (Candidate.isPreferred_congr (mentions_eq_of_alike alike)).trans choice.wants
    rcases (member other).1 survives with ahead | rfl | behind
    · exact Or.inl (choice.shorter (candidateOf tree surroundings metadata platform other)
        (List.mem_map_of_mem ahead) wanted)
    · exact Or.inr ⟨Nat.le_refl _, List.lt_irrefl _⟩
    · have later := (List.pairwise_cons.1 (List.pairwise_append.1 order).2.1).1 other behind
      exact Or.inr ⟨choice.notLonger (candidateOf tree surroundings metadata platform other)
        (List.mem_map_of_mem behind) wanted, List.lt_asymm later⟩
  refine ⟨names, rfl, (member names).2 (Or.inr (Or.inl rfl)), ?_, ?_, ?_⟩
  · intro other survives mentions
    have there := List.mem_map_of_mem (f := candidateOf tree surroundings metadata platform)
      ((mem_survivors other).2 survives)
    have named := Candidate.mentions_of_isPreferred choice.wants there
      ((mentions_candidateOf_iff other).2 mentions)
    exact (mentions_candidateOf_iff names).1 named
  · intro other survives alike
    rcases ranked other survives alike with shorter | ⟨notLonger, -⟩ <;> omega
  · intro other survives alike long
    rcases ranked other survives alike with shorter | ⟨-, notBefore⟩
    · omega
    · exact notBefore

/-! The resolution. -/

theorem resolve_of_closed (closed : ¬IsOpen tree surroundings metadata.buildFolder) :
    resolve tree surroundings metadata platform = .error (.rootMissing metadata.buildFolder) := by
  unfold resolve candidates
  dsimp only
  rw [survey_of_closed _ closed]
  rfl

theorem resolve_of_open (platform : Platform) (opens : IsOpen tree surroundings metadata.buildFolder) :
    ∃ skipped : List (List String), skipped.Pairwise (· < ·) ∧
      (∀ other, other ∈ skipped ↔ Skips tree surroundings metadata.buildFolder other) ∧
      resolve tree surroundings metadata platform =
        match Candidate.best? ((survivors tree surroundings metadata platform).map
          (candidateOf tree surroundings metadata platform)) with
        | some artifact => .ok ⟨artifact,
          skipped.map fun other => Survey.warningFor (pathTo metadata.buildFolder other)⟩
        | none => .error
          (.artifactNotFound metadata.buildType.word platform metadata.buildFolder) := by
  obtain ⟨skipped, ordered, unreadable, told⟩ := exists_survey metadata.buildFolder opens
  refine ⟨skipped, ordered, unreadable, ?_⟩
  unfold resolve candidates
  dsimp only
  rw [told]
  simp only [Except.map, bind, Except.bind, List.map_map, List.filter_map]
  rfl

theorem reference_resolve (tree : FileTree) (surroundings : Surroundings) (metadata : Metadata)
    (platform : Platform) : Reference tree surroundings metadata platform
    (resolve tree surroundings metadata platform) := by
  by_cases opens : IsOpen tree surroundings metadata.buildFolder
  · obtain ⟨skipped, ordered, unreadable, result⟩ := resolve_of_open platform opens
    rw [result]
    cases best : Candidate.best? ((survivors tree surroundings metadata platform).map
        (candidateOf tree surroundings metadata platform)) with
    | some chosen =>
      obtain ⟨names, rfl, choice⟩ := isChoice_of_best? chosen best
      exact .found names skipped choice ordered unreadable
    | none =>
      refine .notFound opens ?_
      intro names survives
      have empty := List.map_eq_nil_iff.1 ((Candidate.best?_eq_none_iff _).1 best)
      have member := (mem_survivors names).2 survives
      rw [empty] at member
      cases member
  · rw [resolve_of_closed opens]
    exact .rootMissing opens

theorem eq_of_ordered {first second : List (List String)} (ordered : first.Pairwise (· < ·))
    (again : second.Pairwise (· < ·)) (same : ∀ names, names ∈ first ↔ names ∈ second) :
    first = second := by
  have once {places : List (List String)} (order : places.Pairwise (· < ·)) : places.Nodup := by
    refine order.imp ?_
    rintro names _ before rfl
    exact List.lt_irrefl names before
  have perm : first.Perm second := (List.perm_ext_iff_of_nodup (once ordered) (once again)).2 same
  refine perm.eq_of_pairwise ?_ ordered again
  intro a b _ _ before after
  exact absurd after (List.lt_asymm before)

/-- The reference allows one result only. -/
theorem Reference.unique {first second : Except Fault Resolution}
    (one : Reference tree surroundings metadata platform first)
    (other : Reference tree surroundings metadata platform second) : first = second := by
  cases one with
  | rootMissing closed =>
    cases other with
    | rootMissing => rfl
    | notFound opens => exact absurd opens closed
    | found names skipped choice => exact absurd choice.program.opens closed
  | notFound opens none =>
    cases other with
    | rootMissing closed => exact absurd opens closed
    | notFound => rfl
    | found names skipped choice => exact absurd choice.program (none names)
  | found names skipped choice ordered unreadable =>
    cases other with
    | rootMissing closed => exact absurd choice.program.opens closed
    | notFound opens none => exact absurd choice.program (none names)
    | found others passed again reordered unread =>
      obtain rfl := choice.unique again
      obtain rfl := eq_of_ordered ordered reordered fun place =>
        (unreadable place).trans (unread place).symm
      rfl

theorem exists_choice_of_survives {names : List String}
    (survives : Survives tree surroundings metadata platform names) :
    ∃ chosen warnings, resolve tree surroundings metadata platform =
        .ok ⟨candidateOf tree surroundings metadata platform chosen, warnings⟩ ∧
      IsChoice (Survives tree surroundings metadata platform) (Mentions surroundings metadata)
        metadata.buildFolder chosen := by
  have result := reference_resolve tree surroundings metadata platform
  cases given : resolve tree surroundings metadata platform with
  | error fault =>
    rw [given] at result
    cases result with
    | rootMissing closed => exact absurd survives.opens closed
    | notFound _ none => exact absurd survives (none names)
  | ok found =>
    rw [given] at result
    cases result with
    | found chosen skipped choice => exact ⟨chosen, _, rfl, choice⟩

/-- Folders that cannot be listed take the places inside them from the walk, and nothing else. -/
theorem walks_iff (names : List String) :
    Walks tree surroundings metadata.buildFolder names ↔
      StandsBelow tree surroundings metadata.buildFolder names ∧
        ∀ inner, inner <+: names → inner ≠ names →
          canList surroundings (pathTo metadata.buildFolder inner) = true := by
  constructor
  · rintro ⟨place, leads, reached⟩
    exact ⟨⟨place, leads, reached.below, reached.taken, reached.folders, fun _ _ _ => rfl⟩,
      reached.listed⟩
  · rintro ⟨⟨place, leads, reached⟩, listed⟩
    exact ⟨place, leads, reached.below, reached.taken, reached.folders, listed⟩

/-- A resolution is what the reference says. Folders that cannot be listed only take the places
inside them from the walk: a choice among all places stands as long as the walk comes to it. -/
theorem resolve_eq_iff_reference (tree : FileTree) (surroundings : Surroundings) (metadata : Metadata)
    (platform : Platform) :
    (∀ result, resolve tree surroundings metadata platform = result ↔
      Reference tree surroundings metadata platform result) ∧
    (∀ names, Walks tree surroundings metadata.buildFolder names ↔
      StandsBelow tree surroundings metadata.buildFolder names ∧
        ∀ inner, inner <+: names → inner ≠ names →
          canList surroundings (pathTo metadata.buildFolder inner) = true) ∧
    (∀ names, IsChoice (WouldSurvive tree surroundings metadata platform)
        (Mentions surroundings metadata) metadata.buildFolder names →
      Walks tree surroundings metadata.buildFolder names →
      ∃ warnings, resolve tree surroundings metadata platform =
        .ok ⟨candidateOf tree surroundings metadata platform names, warnings⟩) := by
  refine ⟨?_, walks_iff, ?_⟩
  · intro result
    constructor
    · rintro rfl
      exact reference_resolve tree surroundings metadata platform
    · exact (reference_resolve tree surroundings metadata platform).unique
  · intro names choice walks
    have fewer (other : List String) (survives : Survives tree surroundings metadata platform other) :
        WouldSurvive tree surroundings metadata platform other :=
      ⟨((walks_iff other).1 survives.1).1, survives.2⟩
    have stays := choice.mono fewer ⟨walks, choice.program.2⟩
    obtain ⟨others, warnings, result, again⟩ := exists_choice_of_survives stays.program
    obtain rfl := stays.unique again
    exact ⟨warnings, result⟩

end Resolution

end JuceWorkbench.Artifact
