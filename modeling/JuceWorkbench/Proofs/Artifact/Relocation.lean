import JuceWorkbench.Proofs.Artifact.Preorder
import JuceWorkbench.Proofs.Tree.Location

/-! Projects in other places. The choice of a program looks at paths seen from the build folder, at
last names, at which of two paths is longer, and at what stands at a place. None of this changes when
the project folder is another one, on another machine, as long as the build folder holds the same. -/

namespace JuceWorkbench

namespace FileTree

theorem Way.onward {tree : FileTree} {links : Nat} {start here : Place} {parts : List String}
    {location : Location} (way : Way tree true links start parts location)
    (folder : location = .taken here .folder) :
    ∃ left, ∀ more, tree.locateFrom true links start (parts ++ more) = tree.locateFrom true left here more := by
  induction way with
  | here links start =>
    cases folder
    exact ⟨links, fun more => rfl⟩
  | stay skipped _ ih =>
    obtain ⟨left, onward⟩ := ih folder
    exact ⟨left, fun more => (locateFrom_skip skipped).trans (onward more)⟩
  | leave _ ih =>
    obtain ⟨left, onward⟩ := ih folder
    exact ⟨left, fun more => locateFrom_leave.trans (onward more)⟩
  | enter named entered _ ih =>
    obtain ⟨left, onward⟩ := ih folder
    exact ⟨left, fun more => (locateFrom_folder named entered).trans (onward more)⟩
  | pass named target linked _ _ ih =>
    obtain ⟨left, onward⟩ := ih folder
    refine ⟨left, fun more => ?_⟩
    rw [List.cons_append, locateFrom_pass named linked (by simp), ← List.append_assoc]
    exact onward more
  | file => cases folder
  | free => cases folder
  | link => cases folder

end FileTree

namespace Artifact
open Project FileTree

/-- What a look at a node tells, links not followed. -/
inductive Shape
  | file (executable : Bool)
  | folder
  | link
  deriving DecidableEq

def shapeOf : Node → Shape
  | .file _ mode => .file (mode &&& 0o111 != 0)
  | .folder => .folder
  | .link _ => .link

def outcomeOf (tree : FileTree) (surroundings : Surroundings) (path : String) : Option Shape :=
  (tree.node? surroundings.place path).map shapeOf

def LeadsInto (tree : FileTree) (surroundings : Surroundings) (root : String) (place : Place) : Prop :=
  tree.locate true surroundings.place root = .ok (.taken place .folder)

/-- Two build folders hold the same: the same kinds of nodes at the same names with the same bits, links
that lead to the same kinds, and the same readability. A folder can be listed in both or in neither, and
what stands at a path can be looked at in both or in neither. -/
structure SameBuild (tree other : FileTree) (surroundings elsewhere : Surroundings)
    (root moved : String) : Prop where
  opens : IsOpen tree surroundings root ↔ IsOpen other elsewhere moved
  shape : ∀ {place spot : Place}, LeadsInto tree surroundings root place →
    LeadsInto other elsewhere moved spot → ∀ names,
    (tree.get? (place ++ names)).map shapeOf = (other.get? (spot ++ names)).map shapeOf
  listable : ∀ {place spot : Place}, LeadsInto tree surroundings root place →
    LeadsInto other elsewhere moved spot → ∀ names, tree.get? (place ++ names) = some .folder →
    canList surroundings (pathTo root names) = canList elsewhere (pathTo moved names)
  links : ∀ {place spot : Place}, LeadsInto tree surroundings root place →
    LeadsInto other elsewhere moved spot → ∀ names target,
    tree.get? (place ++ names) = some (.link target) →
    outcomeOf tree surroundings (pathTo root names) = outcomeOf other elsewhere (pathTo moved names)
  readable : ∀ {place spot : Place}, LeadsInto tree surroundings root place →
    LeadsInto other elsewhere moved spot → ∀ names, (tree.get? (place ++ names)).isSome = true →
    ((outcomeOf tree surroundings (pathTo root names)).isSome = true ↔
      (outcomeOf other elsewhere (pathTo moved names)).isSome = true)

section Look

variable {tree other : FileTree} {surroundings elsewhere : Surroundings} {root moved : String}
  {place spot : Place}

theorem exists_node_of_shape {node : Node} (there : tree.get? place = some node)
    (same : (tree.get? place).map shapeOf = (other.get? spot).map shapeOf) :
    ∃ twin, other.get? spot = some twin ∧ shapeOf twin = shapeOf node :=
  Option.map_eq_some_iff.1 (same.symm.trans (congrArg (Option.map shapeOf) there))

/-- Going down the same names, with no link among them, leads to the same kind of node. -/
theorem shape_locateFrom {names : List String} (links left : Nat)
    (plain : ∀ name ∈ names, Path.IsPlain name.toList)
    (same : ∀ inner, inner <+: names →
      (tree.get? (place ++ inner)).map shapeOf = (other.get? (spot ++ inner)).map shapeOf)
    (unlinked : ∀ inner, inner <+: names → inner ≠ [] → ∀ target,
      tree.get? (place ++ inner) ≠ some (.link target)) :
    ((tree.locateFrom true links place names).toOption.bind Location.node?).map shapeOf =
      ((other.locateFrom true left spot names).toOption.bind Location.node?).map shapeOf := by
  induction names generalizing place spot with
  | nil =>
    rw [locateFrom_nil, locateFrom_nil]
    rfl
  | cons name rest ih =>
    obtain ⟨filled, stays⟩ := Path.isPart_of_isPlain (plain name List.mem_cons_self)
    have first : [name] <+: name :: rest := ⟨rest, rfl⟩
    by_cases long : maxNameOctets < name.utf8ByteSize
    · rw [locateFrom_long filled stays long, locateFrom_long filled stays long]
    have named : IsName name := ⟨filled, stays, long⟩
    -- both ways go on as the first node has it, and its shape is the same
    have alike := same [name] first
    cases here : tree.get? (place ++ [name]) with
    | none =>
      rw [here] at alike
      have there := Option.map_eq_none_iff.1 alike.symm
      by_cases last : rest = []
      · subst last
        rw [locateFrom_free named here, locateFrom_free named there]
        rfl
      · rw [locateFrom_missing named here last, locateFrom_missing named there last]
    | some node =>
      obtain ⟨twin, there, shape⟩ := exists_node_of_shape here alike
      cases node with
      | link target => exact absurd here (unlinked [name] first (List.cons_ne_nil name []) target)
      | file contents mode =>
        cases twin with
        | folder => cases shape
        | link target => cases shape
        | file others bits =>
          by_cases last : rest = []
          · subst last
            rw [locateFrom_file named contents mode here, locateFrom_file named others bits there]
            exact congrArg some shape.symm
          · rw [locateFrom_blocked named here last, locateFrom_blocked named there last]
      | folder =>
        cases twin with
        | file others bits => cases shape
        | link target => cases shape
        | folder =>
          rw [locateFrom_folder named here, locateFrom_folder named there]
          apply ih fun name member => plain name (List.mem_cons_of_mem _ member)
          · intro inner start
            simpa using same (name :: inner) (List.cons_prefix_cons.2 ⟨rfl, start⟩)
          · intro inner start _
            simpa using unlinked (name :: inner) (List.cons_prefix_cons.2 ⟨rfl, start⟩) (by simp)

/-- Where the path of a place below a folder leads is told by the names on the way from the folder. -/
theorem exists_locate_pathTo
    (leads : LeadsInto tree surroundings root place)
    (unslashed : Path.Unslashed root) :
    ∃ left, ∀ names, names ≠ [] → (∀ name ∈ names, Path.IsPlain name.toList) →
      tree.locate true surroundings.place (pathTo root names) =
        if maxPathOctets < (pathTo root names).utf8ByteSize then .error .nameTooLong
        else tree.locateFrom true left place names := by
  unfold LeadsInto locate at leads
  split at leads
  · cases leads
  split at leads
  · cases leads
  obtain ⟨left, onward⟩ := (way_of_locateFrom leads).onward rfl
  refine ⟨left, fun names filled plain => ?_⟩
  have more : (pathTo root names).isEmpty = false := by
    rw [Bool.eq_false_iff, Ne, String.isEmpty_iff, ← String.toList_eq_nil_iff,
      toList_pathTo plain filled, unslashed.front_eq]
    simp
  unfold locate
  rw [more, if_neg Bool.false_ne_true, pathParts_pathTo unslashed plain filled,
    isAbsolute_pathTo unslashed plain filled, onward]

theorem outcomeOf_eq (tree : FileTree) (surroundings : Surroundings) (path : String) :
    outcomeOf tree surroundings path =
      ((tree.locate true surroundings.place path).toOption.bind Location.node?).map shapeOf := by
  unfold outcomeOf node?
  cases tree.locate true surroundings.place path with
  | error reason => rfl
  | ok location => cases location <;> rfl

theorem outcomeOf_of_error {path : String} {reason : FileReason}
    (fails : tree.locate true surroundings.place path = .error reason) :
    outcomeOf tree surroundings path = none := by
  rw [outcomeOf_eq, fails]
  rfl

theorem outcomeOf_of_leadsInto (leads : LeadsInto tree surroundings root place) :
    outcomeOf tree surroundings root = some .folder := by
  rw [outcomeOf_eq, leads]
  rfl

theorem SameBuild.outcome (same : SameBuild tree other surroundings elsewhere root moved)
    (named : IsNamed tree)
    (leads : LeadsInto tree surroundings root place) (arrives : LeadsInto other elsewhere moved spot)
    (unslashed : Path.Unslashed root)
    (away : Path.Unslashed moved) {names : List String}
    (reached : Reached tree (canList surroundings) place root names) :
    outcomeOf tree surroundings (pathTo root names) = outcomeOf other elsewhere (pathTo moved names) := by
  by_cases linked : ∃ target, tree.get? (place ++ names) = some (.link target)
  · obtain ⟨target, linked⟩ := linked
    exact same.links leads arrives names target linked
  have plain := reached.plain named
  obtain ⟨left, here⟩ := exists_locate_pathTo leads unslashed
  obtain ⟨less, there⟩ := exists_locate_pathTo arrives away
  replace here := here names reached.below plain
  replace there := there names reached.below plain
  have readable := same.readable leads arrives names reached.taken
  -- A path that is too long under one root cannot be looked at there, hence under neither.
  by_cases long : maxPathOctets < (pathTo root names).utf8ByteSize
  · rw [if_pos long] at here
    rw [outcomeOf_of_error here] at readable ⊢
    exact (Option.not_isSome_iff_eq_none.1 (mt readable.2 Bool.false_ne_true)).symm
  by_cases far : maxPathOctets < (pathTo moved names).utf8ByteSize
  · rw [if_pos far] at there
    rw [outcomeOf_of_error there] at readable ⊢
    exact Option.not_isSome_iff_eq_none.1 (mt readable.1 Bool.false_ne_true)
  rw [if_neg long] at here
  rw [if_neg far] at there
  rw [outcomeOf_eq, outcomeOf_eq, here, there]
  apply shape_locateFrom left less plain fun inner _ => same.shape leads arrives inner
  intro inner start below target link
  by_cases whole : inner = names
  · exact linked ⟨target, whole ▸ link⟩
  · have folder := reached.folders inner start below whole
    rw [link] at folder
    cases folder

end Look

/-! The choice in both places. -/

section Choice

variable {tree other : FileTree} {surroundings elsewhere : Surroundings} {metadata : Metadata}
  {platform : Platform}

theorem plain_buildFolderName : Path.IsPlain "jucebuilder_build".toList := by decide

theorem unslashed_buildFolder (metadata : Metadata) : Path.Unslashed metadata.buildFolder :=
  Path.unslashed_join metadata.root plain_buildFolderName

/-- Whether a platform runs what a path leads to is told by its outcome and its last name. -/
theorem isExecutableFile_eq (tree : FileTree) (surroundings : Surroundings) (platform : Platform)
    (path : String) : isExecutableFile tree surroundings platform path =
      match outcomeOf tree surroundings path, platform with
      | some (.file _), .windows => Text.asciiLower (Path.extension path).toList == ".exe".toList
      | some (.file _), .other => true
      | some (.file executable), _ => executable
      | _, _ => false := by
  unfold isExecutableFile outcomeOf
  cases tree.node? surroundings.place path with
  | none => rfl
  | some node =>
    cases node with
    | file contents mode => cases platform <;> rfl
    | folder => rfl
    | link target => rfl

theorem extension_congr {path moved : String} (named : Path.baseName path = Path.baseName moved) :
    Path.extension path = Path.extension moved := by
  unfold Path.extension
  rw [named]

theorem isExecutableFile_congr {path moved : String} (platform : Platform)
    (same : outcomeOf tree surroundings path = outcomeOf other elsewhere moved)
    (named : Path.baseName path = Path.baseName moved) :
    isExecutableFile tree surroundings platform path = isExecutableFile other elsewhere platform moved := by
  rw [isExecutableFile_eq, isExecutableFile_eq, same, extension_congr named]

theorem SameBuild.folder {root moved : String} {place spot : Place} {names : List String}
    (same : SameBuild tree other surroundings elsewhere root moved)
    (leads : LeadsInto tree surroundings root place) (arrives : LeadsInto other elsewhere moved spot)
    (folder : tree.get? (place ++ names) = some .folder) : other.get? (spot ++ names) = some .folder := by
  obtain ⟨twin, found, shape⟩ := exists_node_of_shape folder (same.shape leads arrives names)
  cases twin with
  | folder => exact found
  | file contents mode => cases shape
  | link target => cases shape

theorem SameBuild.walks {root moved : String}
    (same : SameBuild tree other surroundings elsewhere root moved) {names : List String}
    (walks : Walks tree surroundings root names) : Walks other elsewhere moved names := by
  have opens := same.opens.1 walks.opens
  obtain ⟨place, leads, reached⟩ := walks
  obtain ⟨spot, arrives⟩ := (isFolder_iff moved).1 opens.1
  refine ⟨spot, arrives, reached.below, ?taken, ?folders, ?listed⟩
  case taken =>
    obtain ⟨node, there⟩ := Option.isSome_iff_exists.1 reached.taken
    obtain ⟨twin, found, -⟩ := exists_node_of_shape there (same.shape leads arrives names)
    exact Option.isSome_of_eq_some found
  case folders =>
    intro inner start filled short
    exact same.folder leads arrives (reached.folders inner start filled short)
  case listed =>
    intro inner start short
    by_cases filled : inner = []
    · subst filled
      exact opens.2
    · have folder := reached.folders inner start filled short
      rw [← same.listable leads arrives inner folder, reached.listed inner start short]

theorem SameBuild.symm {root moved : String}
    (same : SameBuild tree other surroundings elsewhere root moved) :
    SameBuild other tree elsewhere surroundings moved root where
  opens := same.opens.symm
  shape arrives leads names := (same.shape leads arrives names).symm
  listable := by
    intro spot place arrives leads names folder
    obtain ⟨twin, found, shape⟩ := exists_node_of_shape folder (same.shape leads arrives names).symm
    cases twin with
    | folder => exact (same.listable leads arrives names found).symm
    | file contents mode => cases shape
    | link target => cases shape
  links := by
    intro spot place arrives leads names target linked
    obtain ⟨twin, found, shape⟩ := exists_node_of_shape linked (same.shape leads arrives names).symm
    cases twin with
    | link target => exact (same.links leads arrives names target found).symm
    | file contents mode => cases shape
    | folder => cases shape
  readable := by
    intro spot place arrives leads names taken
    obtain ⟨node, there⟩ := Option.isSome_iff_exists.1 taken
    obtain ⟨twin, found, -⟩ := exists_node_of_shape there (same.shape leads arrives names).symm
    exact (same.readable leads arrives names (Option.isSome_of_eq_some found)).symm

theorem SameBuild.walks_iff {root moved : String}
    (same : SameBuild tree other surroundings elsewhere root moved) (names : List String) :
    Walks other elsewhere moved names ↔ Walks tree surroundings root names :=
  ⟨same.symm.walks, same.walks⟩

theorem IsChoice.moved {programs others : List String → Prop} {mentions mentionsToo : String → Prop}
    {root moved : String} {names : List String} (choice : IsChoice programs mentions root names)
    (same : ∀ other, others other ↔ programs other)
    (alike : ∀ other, programs other →
      (mentionsToo (pathTo moved other) ↔ mentions (pathTo root other)))
    (plain : ∀ other, programs other → other ≠ [] ∧ ∀ name ∈ other, Path.IsPlain name.toList) :
    IsChoice others mentionsToo moved names := by
  have here := alike names choice.program
  have short (other : List String) (program : programs other) :
      ((pathTo moved names).length ≤ (pathTo moved other).length ↔
        (pathTo root names).length ≤ (pathTo root other).length) ∧
      ((pathTo moved other).length = (pathTo moved names).length ↔
        (pathTo root other).length = (pathTo root names).length) := by
    obtain ⟨filled, dark⟩ := plain names choice.program
    obtain ⟨also, fine⟩ := plain other program
    rw [length_pathTo dark filled, length_pathTo dark filled, length_pathTo fine also,
      length_pathTo fine also]
    omega
  refine ⟨(same names).2 choice.program, ?_, ?_, ?_⟩
  · intro other member named
    have program := (same other).1 member
    exact here.2 (choice.prefers other program ((alike other program).1 named))
  · intro other member both
    have program := (same other).1 member
    rw [alike other program, here] at both
    exact (short other program).1.2 (choice.shortest other program both)
  · intro other member both long
    have program := (same other).1 member
    rw [alike other program, here] at both
    exact choice.first other program both ((short other program).2.1 long)

section Moved

variable {root : String}
  (named : IsNamed tree) (rooted : Path.isAbsolute surroundings.here = true)
  (away : Path.isAbsolute elsewhere.here = true)
include named rooted away

theorem relative_moved (root : String) {names : List String}
    (walks : Walks tree surroundings metadata.buildFolder names) :
    Path.relative elsewhere.here (pathTo { metadata with root }.buildFolder names)
        { metadata with root }.buildFolder =
      Path.relative surroundings.here (pathTo metadata.buildFolder names) metadata.buildFolder := by
  obtain ⟨place, leads, reached⟩ := walks
  calc
    _ = String.ofList (wayText names) := relative_pathTo away (reached.plain named) reached.below
    _ = _ := (relative_pathTo rooted (reached.plain named) reached.below).symm

variable (same : SameBuild tree other surroundings elsewhere metadata.buildFolder
    { metadata with root }.buildFolder)
include same

theorem isProgram_moved_iff {names : List String}
    (walks : Walks tree surroundings metadata.buildFolder names) :
    IsProgram other elsewhere { metadata with root } platform
        (pathTo { metadata with root }.buildFolder names) ↔
      IsProgram tree surroundings metadata platform (pathTo metadata.buildFolder names) := by
  have relatives := relative_moved named rooted away root walks
  obtain ⟨place, leads, reached⟩ := walks
  obtain ⟨spot, arrives, -⟩ := same.walks ⟨place, leads, reached⟩
  have plain := reached.plain named
  obtain ⟨name, last⟩ : ∃ name, names.getLast? = some name :=
    Option.ne_none_iff_exists'.1 fun none => reached.below (List.getLast?_eq_none_iff.1 none)
  have names_eq : Path.baseName (pathTo { metadata with root }.buildFolder names) =
      Path.baseName (pathTo metadata.buildFolder names) := by
    rw [baseName_pathTo _ plain last, baseName_pathTo _ plain last]
  have runs := isExecutableFile_congr platform
    (same.outcome named leads arrives (unslashed_buildFolder _) (unslashed_buildFolder _) reached)
    names_eq.symm
  unfold IsProgram
  rw [names_eq, extension_congr names_eq, relatives, runs]

theorem survives_moved_iff (names : List String) :
    Survives other elsewhere { metadata with root } platform names ↔
      Survives tree surroundings metadata platform names := by
  unfold Survives
  rw [same.walks_iff]
  exact and_congr_right fun walks => isProgram_moved_iff named rooted away same walks

variable (platform) in
/-- The program of a project that lives elsewhere is the same one, seen from the build folder, or it
is missing there for the same reason. -/
theorem resolve_moved :
    (∃ fault another, resolve tree surroundings metadata platform = .error fault ∧
      resolve other elsewhere { metadata with root } platform = .error another ∧
      another.kind = fault.kind) ∨
    ∃ found another, resolve tree surroundings metadata platform = .ok found ∧
      resolve other elsewhere { metadata with root } platform = .ok another ∧
      Path.relative elsewhere.here another.artifact.path { metadata with root }.buildFolder =
        Path.relative surroundings.here found.artifact.path metadata.buildFolder := by
  have survives (names : List String) :
      Survives other elsewhere { metadata with root } platform names ↔
        Survives tree surroundings metadata platform names :=
    survives_moved_iff named rooted away same names
  -- the reference allows one result only, so it is enough to meet it under the other root
  have result := reference_resolve tree surroundings metadata platform
  have twin := reference_resolve other elsewhere { metadata with root } platform
  cases given : resolve tree surroundings metadata platform with
  | error fault =>
    left
    rw [given] at result
    cases result with
    | rootMissing closed =>
      have shut := fun opens => closed (same.opens.2 opens)
      exact ⟨_, _, rfl, resolve_of_closed shut, rfl⟩
    | notFound opens none =>
      have missing := Reference.notFound (same.opens.1 opens) fun names stays =>
        none names ((survives names).1 stays)
      exact ⟨_, _, rfl, twin.unique missing, rfl⟩
  | ok found =>
    right
    rw [given] at result
    cases result with
    | found names skipped choice =>
      obtain ⟨chosen, warnings, found, again⟩ := exists_choice_of_survives ((survives names).2 choice.program)
      have stays : IsChoice (Survives other elsewhere { metadata with root } platform)
          (Mentions elsewhere { metadata with root }) { metadata with root }.buildFolder names := by
        apply choice.moved survives
        · intro other program
          unfold Mentions
          rw [relative_moved named rooted away root program.1]
        · intro other program
          obtain ⟨place, leads, reached⟩ := program.1
          exact ⟨reached.below, reached.plain named⟩
      obtain rfl := stays.unique again
      exact ⟨_, _, rfl, found, relative_moved named rooted away root choice.program.1⟩

end Moved

end Choice

/-! A project in two places. The files differ in what they hold; the link leads to the program. -/

def toolTree : FileTree :=
  ⟨[([], .folder), (["W"], .folder), (["W", "jucebuilder_build"], .folder),
    (["W", "jucebuilder_build", "Tool"], .link "Debug/Tool"),
    (["W", "jucebuilder_build", "Debug"], .folder),
    (["W", "jucebuilder_build", "Debug", "Tool"], .file [1] 0o755)], by decide⟩

def farToolTree : FileTree :=
  ⟨[([], .folder), (["V"], .folder), (["V", "far"], .folder), (["V", "far", "jucebuilder_build"], .folder),
    (["V", "far", "jucebuilder_build", "Tool"], .link "Debug/Tool"),
    (["V", "far", "jucebuilder_build", "Debug"], .folder),
    (["V", "far", "jucebuilder_build", "Debug", "Tool"], .file [2] 0o711)], by decide⟩

def tool : Metadata := ⟨"Tool", "/W", .consoleApp, .debug⟩

theorem isNamed_toolTree : IsNamed toolTree := by
  apply isNamed_of_entries
  · rfl
  · decide
  · decide

theorem isName_of_tool :
    ∀ part ∈ ["W", "V", "far", "jucebuilder_build", "Debug", "Tool"], IsName part := by
  decide

theorem leadsInto_tool : LeadsInto toolTree {} tool.buildFolder ["W", "jucebuilder_build"] := by
  unfold LeadsInto
  rw [locate_of_parts (by decide) (by decide) (show _ = ["", "W", "jucebuilder_build"] by decide),
    locateFrom_folder (isName_of_tool _ (by decide)) rfl,
    locateFrom_folder (isName_of_tool _ (by decide)) rfl, locateFrom_nil]
  rfl

theorem leadsInto_farTool : LeadsInto farToolTree {} { tool with root := "/V/far" }.buildFolder
    ["V", "far", "jucebuilder_build"] := by
  unfold LeadsInto
  rw [locate_of_parts (by decide) (by decide) (show _ = ["", "V", "far", "jucebuilder_build"] by decide),
    locateFrom_folder (isName_of_tool _ (by decide)) rfl,
    locateFrom_folder (isName_of_tool _ (by decide)) rfl,
    locateFrom_folder (isName_of_tool _ (by decide)) rfl, locateFrom_nil]
  rfl

theorem outcomeOf_toolLink : outcomeOf toolTree {} (pathTo tool.buildFolder ["Tool"]) = some (.file true) := by
  have parts : pathParts "Debug/Tool" = ["Debug", "Tool"] := by decide
  have leads : toolTree.locate true (Surroundings.place {}) (pathTo tool.buildFolder ["Tool"]) =
      .ok (.taken ["W", "jucebuilder_build", "Debug", "Tool"] (.file [1] 0o755)) := by
    rw [locate_of_parts (by decide) (by decide) (show _ = ["", "W", "jucebuilder_build", "Tool"] by decide),
      locateFrom_folder (isName_of_tool _ (by decide)) rfl,
      locateFrom_folder (isName_of_tool _ (by decide)) rfl]
    refine (locateFrom_pass (isName_of_tool _ (by decide)) rfl (by decide)).trans ?_
    rw [parts, if_neg (by decide)]
    refine (locateFrom_folder (isName_of_tool _ (by decide)) rfl).trans ?_
    exact locateFrom_file (isName_of_tool _ (by decide)) [1] 0o755 rfl
  rw [outcomeOf_eq, leads]
  rfl

theorem outcomeOf_farToolLink :
    outcomeOf farToolTree {} (pathTo { tool with root := "/V/far" }.buildFolder ["Tool"]) =
      some (.file true) := by
  have parts : pathParts "Debug/Tool" = ["Debug", "Tool"] := by decide
  have leads : farToolTree.locate true (Surroundings.place {})
      (pathTo { tool with root := "/V/far" }.buildFolder ["Tool"]) =
      .ok (.taken ["V", "far", "jucebuilder_build", "Debug", "Tool"] (.file [2] 0o711)) := by
    rw [locate_of_parts (by decide) (by decide)
        (show _ = ["", "V", "far", "jucebuilder_build", "Tool"] by decide),
      locateFrom_folder (isName_of_tool _ (by decide)) rfl,
      locateFrom_folder (isName_of_tool _ (by decide)) rfl,
      locateFrom_folder (isName_of_tool _ (by decide)) rfl]
    refine (locateFrom_pass (isName_of_tool _ (by decide)) rfl (by decide)).trans ?_
    rw [parts, if_neg (by decide)]
    refine (locateFrom_folder (isName_of_tool _ (by decide)) rfl).trans ?_
    exact locateFrom_file (isName_of_tool _ (by decide)) [2] 0o711 rfl
  rw [outcomeOf_eq, leads]
  rfl

theorem outcomeOf_debug {tree : FileTree} {surroundings : Surroundings} {root : String} {place : Place}
    {contents : List UInt8} {mode : Nat} (leads : LeadsInto tree surroundings root place)
    (unslashed : Path.Unslashed root) (folder : tree.get? (place ++ ["Debug"]) = some .folder)
    (program : tree.get? ((place ++ ["Debug"]) ++ ["Tool"]) = some (.file contents mode))
    (short : ∀ names ∈ [["Debug"], ["Debug", "Tool"]],
      ¬maxPathOctets < (pathTo root names).utf8ByteSize) :
    outcomeOf tree surroundings (pathTo root ["Debug"]) = some .folder ∧
      outcomeOf tree surroundings (pathTo root ["Debug", "Tool"]) =
        some (.file (mode &&& 0o111 != 0)) := by
  obtain ⟨left, found⟩ := exists_locate_pathTo leads unslashed
  constructor
  · rw [outcomeOf_eq, found _ (by decide) (by decide), if_neg (short _ (by decide)),
      locateFrom_folder (isName_of_tool _ (by decide)) folder, locateFrom_nil]
    rfl
  · rw [outcomeOf_eq, found _ (by decide) (by decide), if_neg (short _ (by decide)),
      locateFrom_folder (isName_of_tool _ (by decide)) folder,
      locateFrom_file (isName_of_tool _ (by decide)) contents mode program]
    rfl

theorem taken_tool_iff (names : List String) :
    ((toolTree.get? (["W", "jucebuilder_build"] ++ names)).isSome = true ↔
      names ∈ [[], ["Tool"], ["Debug"], ["Debug", "Tool"]]) ∧
    ((farToolTree.get? (["V", "far", "jucebuilder_build"] ++ names)).isSome = true ↔
      names ∈ [[], ["Tool"], ["Debug"], ["Debug", "Tool"]]) := by
  rw [isSome_get?_iff, isSome_get?_iff]
  constructor <;> simp [toolTree, farToolTree]

theorem shape_tool (names : List String) :
    (toolTree.get? (["W", "jucebuilder_build"] ++ names)).map shapeOf =
      (farToolTree.get? (["V", "far", "jucebuilder_build"] ++ names)).map shapeOf := by
  by_cases taken : names ∈ [[], ["Tool"], ["Debug"], ["Debug", "Tool"]]
  · simp only [List.mem_cons, List.not_mem_nil, or_false] at taken
    rcases taken with rfl | rfl | rfl | rfl <;> rfl
  · have near := mt (taken_tool_iff names).1.1 taken
    have far := mt (taken_tool_iff names).2.1 taken
    rw [Option.not_isSome_iff_eq_none.1 near, Option.not_isSome_iff_eq_none.1 far]

theorem LeadsInto.unique {tree : FileTree} {surroundings : Surroundings} {root : String}
    {place other : Place} (leads : LeadsInto tree surroundings root place)
    (again : LeadsInto tree surroundings root other) : place = other := by
  cases leads.symm.trans again
  rfl

theorem sameBuild_tool : SameBuild toolTree farToolTree {} {} tool.buildFolder
    { tool with root := "/V/far" }.buildFolder where
  opens := by
    have near : canList {} tool.buildFolder = true := by decide
    have far : canList {} { tool with root := "/V/far" }.buildFolder = true := by decide
    exact iff_of_true ⟨(isFolder_iff _).2 ⟨_, leadsInto_tool⟩, near⟩
      ⟨(isFolder_iff _).2 ⟨_, leadsInto_farTool⟩, far⟩
  shape leads arrives names := by
    rw [leads.unique leadsInto_tool, arrives.unique leadsInto_farTool]
    exact shape_tool names
  listable leads arrives names folder := by
    rw [leads.unique leadsInto_tool] at folder
    have taken := (taken_tool_iff names).1.1 (Option.isSome_of_eq_some folder)
    simp only [List.mem_cons, List.not_mem_nil, or_false] at taken
    rcases taken with rfl | rfl | rfl | rfl <;> decide
  links leads arrives names target linked := by
    rw [leads.unique leadsInto_tool] at linked
    have taken := (taken_tool_iff names).1.1 (Option.isSome_of_eq_some linked)
    simp only [List.mem_cons, List.not_mem_nil, or_false] at taken
    rcases taken with rfl | rfl | rfl | rfl
    · cases linked
    · exact outcomeOf_toolLink.trans outcomeOf_farToolLink.symm
    · cases linked
    · cases linked
  readable leads arrives names taken := by
    rw [leads.unique leadsInto_tool] at taken
    obtain ⟨folder, program⟩ :=
      outcomeOf_debug leadsInto_tool (unslashed_buildFolder _) rfl rfl (by decide)
    obtain ⟨farFolder, farProgram⟩ :=
      outcomeOf_debug leadsInto_farTool (unslashed_buildFolder _) rfl rfl (by decide)
    have among := (taken_tool_iff names).1.1 taken
    simp only [List.mem_cons, List.not_mem_nil, or_false] at among
    rcases among with rfl | rfl | rfl | rfl
    · exact iff_of_true (Option.isSome_of_eq_some (outcomeOf_of_leadsInto leads))
        (Option.isSome_of_eq_some (outcomeOf_of_leadsInto arrives))
    · exact iff_of_true (Option.isSome_of_eq_some outcomeOf_toolLink)
        (Option.isSome_of_eq_some outcomeOf_farToolLink)
    · exact iff_of_true (Option.isSome_of_eq_some folder) (Option.isSome_of_eq_some farFolder)
    · exact iff_of_true (Option.isSome_of_eq_some program) (Option.isSome_of_eq_some farProgram)

theorem resolve_moved_tool :
    IsNamed toolTree ∧
      SameBuild toolTree farToolTree {} {} tool.buildFolder { tool with root := "/V/far" }.buildFolder ∧
      Path.isAbsolute (Surroundings.here {}) = true ∧
      ((∃ fault another, resolve toolTree {} tool .linux = .error fault ∧
        resolve farToolTree {} { tool with root := "/V/far" } .linux = .error another ∧
        another.kind = fault.kind) ∨
      ∃ found another, resolve toolTree {} tool .linux = .ok found ∧
        resolve farToolTree {} { tool with root := "/V/far" } .linux = .ok another ∧
        Path.relative "/W" another.artifact.path "/V/far/jucebuilder_build" =
          Path.relative "/W" found.artifact.path "/W/jucebuilder_build") := by
  have rooted : Path.isAbsolute (Surroundings.here {}) = true := by decide
  have far : Metadata.buildFolder { tool with root := "/V/far" } = "/V/far/jucebuilder_build" := by decide
  have near : tool.buildFolder = "/W/jucebuilder_build" := by decide
  have moved := resolve_moved .linux isNamed_toolTree rooted rooted sameBuild_tool
  rw [far, near] at moved
  exact ⟨isNamed_toolTree, sameBuild_tool, rooted, moved⟩

end Artifact

end JuceWorkbench
