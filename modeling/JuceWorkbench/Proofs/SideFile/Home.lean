import JuceWorkbench.Build
import JuceWorkbench.Proofs.Bench.Command
import JuceWorkbench.Proofs.Bench.Folders
import JuceWorkbench.Proofs.Path.LastPart
import JuceWorkbench.Proofs.Script.File
import JuceWorkbench.Proofs.SideFile.Remembering
import JuceWorkbench.Proofs.Tree.Spine
import JuceWorkbench.Scaffold.Project

/-! The home of a side file: the folder of its project, the place it has itself, and the folders and
links that lead there. The other files of a project have names of their own, so whatever is written,
made, moved or removed for them leaves the side file and the way to it as they are. -/

namespace JuceWorkbench.SideFile
open Work

/-- The names of the files that are removed, or that others are moved over. -/
def replacedNames : List String :=
  [Scaffold.scriptName, Script.draftPath Scaffold.scriptName, Build.databaseName]

/-- The names of the other files and folders that are made, and what the rest of them end in. -/
def otherNames : List String := "jucebuilder_build" :: "src" :: replacedNames

def otherEndings : List String := [".log", ".h", ".cpp"]

/-- A name that no other file of a project gets. -/
def IsOwn (name : String) : Prop :=
  name ∉ otherNames ∧ ∀ ending ∈ otherEndings, ¬ending.toList <:+ name.toList

instance (name : String) : Decidable (IsOwn name) := inferInstanceAs (Decidable (_ ∧ _))

theorem isPart_of_replaced : ∀ name ∈ replacedNames, ¬(name = "" ∨ name = ".") ∧ name ≠ ".." := by decide

theorem mem_otherNames {name : String} (among : name ∈ replacedNames) : name ∈ otherNames :=
  List.mem_cons_of_mem _ (List.mem_cons_of_mem _ among)

/-- Where the side file of a project is: the folder that the project is given by, the place of that
folder, the place of the file, the names it goes by, and the folders and links on the way to both. -/
structure Home where
  surroundings : Surroundings
  folder : String
  base : Place
  spot : Place
  names : List String
  spine : List Place
  rooted : Path.isAbsolute surroundings.here = true
  clean : (path folder).toList.contains '\x00' = false
  cleanRoot : (path (Path.absolute surroundings.here folder)).toList.contains '\x00' = false
  reads : surroundings.canRead (path folder) = true
  writes : surroundings.canWrite (path folder) = true
  named : ∃ name ∈ names, spot.getLast? = some name
  own : ∀ name ∈ names, IsOwn name
  /-- Nothing of it is in the folder of the build. -/
  apart : ∀ place ∈ spot :: spine, ¬base ++ ["jucebuilder_build"] <+: place

namespace Home

def root (home : Home) : String := Path.absolute home.surroundings.here home.folder

def places (home : Home) : List Place := home.spot :: home.spine

def IsAlias (home : Home) (target : String) : Prop :=
  ∃ name ∈ home.names, (FileTree.pathParts target).getLast? = some name

def IsNamed (home : Home) (place : Place) : Prop := ∃ name ∈ home.names, place.getLast? = some name

def IsOther (home : Home) (path : String) : Prop :=
  ∀ name, (FileTree.pathParts path).getLast? = some name → name ∉ home.names

/-- A change that a command makes touches neither the side file nor the way to it. -/
structure Spares (home : Home) (change : Place × Option Node) : Prop where
  above : ∀ place ∈ home.places, ¬change.1 <+: place
  below : ¬home.spot <+: change.1
  plain : ∀ target, change.2 = some (.link target) → home.IsAlias target → home.IsNamed change.1

/-- The side file is at a location, or may be written there, and both forms of its path lead to it. -/
structure Holds (home : Home) (location : FileTree.Location) (bench : Bench) : Prop where
  surroundings : bench.surroundings = home.surroundings
  place : location.place = home.spot
  file : location.takesFile = true
  there : bench.tree.get? home.spot = location.node?
  given : bench.tree.LeadsBy home.spine home.surroundings.place (path home.folder) (.free home.spot)
  whole : bench.tree.LeadsBy home.spine home.surroundings.place (path home.root) (.free home.spot)
  based : bench.tree.LeadsBy home.spine home.surroundings.place home.root (.taken home.base .folder)
  /-- The way leads through folders, and through links that no other file is moved over. -/
  sound : ∀ place ∈ home.spine, bench.tree.get? place = some .folder ∨
    (∃ target, bench.tree.get? place = some (.link target)) ∧
      ∀ name ∈ replacedNames, place.getLast? ≠ some name
  /-- Only links of these names lead to what has one of them. -/
  plain : ∀ place target, bench.tree.get? place = some (.link target) → home.IsAlias target →
    home.IsNamed place
  spared : ∀ ending ∈ bench.endings, ∀ change ∈ ending.changes, home.Spares change

section Names

variable {home : Home} {path ending name : String}

theorem isOther_of_ending (among : ending ∈ otherEndings) (folder stem : String) :
    home.IsOther (Path.join folder (stem ++ ending)) := by
  have part : ∀ ending ∈ otherEndings, ending.toList ≠ [] ∧ '/' ∉ ending.toList := by decide
  have ends : ending.toList <:+ (Path.join folder (stem ++ ending)).toList := by
    refine List.IsSuffix.trans ?_ (Path.suffix_join folder _)
    rw [String.toList_append]
    exact List.suffix_append _ _
  obtain ⟨found, final, later⟩ := FileTree.exists_last_part ends (part ending among).1 (part ending among).2
  rintro name last own
  obtain rfl := Option.some.inj (last.symm.trans final)
  exact (home.own name own).2 ending among later

theorem isOther_of_name (among : name ∈ otherNames) (last : (FileTree.pathParts path).getLast? = some name) :
    home.IsOther path := by
  rintro found final own
  obtain rfl := Option.some.inj (last.symm.trans final)
  exact (home.own name own).1 among

theorem isOther_logFile (surroundings : Surroundings) : home.IsOther surroundings.logFile :=
  isOther_of_ending (show ".log" ∈ otherEndings by decide) _ _

end Names

end Home

namespace Home.Holds

variable {home : Home} {location other : FileTree.Location} {bench after : Bench} {place : Place}
  {node : Node} {path : String}

section Ways

variable (holds : home.Holds location bench)
include holds

theorem leads : Leads bench.tree bench.surroundings (SideFile.path home.folder) location :=
  ⟨home.clean, by rw [holds.surroundings]; exact holds.given.locate holds.place holds.file holds.there⟩

theorem leads_root : Leads bench.tree bench.surroundings (SideFile.path home.root) location :=
  ⟨home.cleanRoot, by rw [holds.surroundings]; exact holds.whole.locate holds.place holds.file holds.there⟩

/-- What is found by another name is not the side file. -/
theorem name_of_locate {follow : Bool}
    (leads : bench.tree.locate follow bench.surroundings.place path = .ok other)
    (single : other.node? ≠ some .folder) (named : home.IsOther path) : other.place ≠ home.spot := by
  obtain ⟨start, -, way⟩ := FileTree.way_of_locate leads
  have targets : follow = true → ∀ place part target,
      bench.tree.get? (place ++ [part]) = some (.link target) → part ∉ home.names →
      ∀ name, (FileTree.pathParts target).getLast? = some name → name ∉ home.names := by
    rintro - place part target linked differs name ends own
    obtain ⟨found, among, last⟩ := holds.plain _ target linked ⟨name, own, ends⟩
    rw [List.getLast?_concat] at last
    exact differs (Option.some.inj last ▸ among)
  obtain ⟨name, last, differs⟩ := (way.name targets named).resolve_left single
  intro same
  obtain ⟨found, among, final⟩ := home.named
  rw [same, final] at last
  exact differs (Option.some.inj last ▸ among)

end Ways

/-! What stays as it is when something else changes. -/

theorem of_same (holds : home.Holds location bench) (surroundings : after.surroundings = bench.surroundings)
    (same : ∀ place ∈ home.places, after.tree.get? place = bench.tree.get? place)
    (plain : ∀ place target, after.tree.get? place = some (.link target) → home.IsAlias target →
      home.IsNamed place)
    (endings : after.endings ⊆ bench.endings) : home.Holds location after where
  surroundings := surroundings.trans holds.surroundings
  place := holds.place
  file := holds.file
  there := (same _ List.mem_cons_self).trans holds.there
  given := holds.given.of_same fun place among => same place (List.mem_cons_of_mem _ among)
  whole := holds.whole.of_same fun place among => same place (List.mem_cons_of_mem _ among)
  based := holds.based.of_same fun place among => same place (List.mem_cons_of_mem _ among)
  sound := by
    intro place among
    rw [same place (List.mem_cons_of_mem _ among)]
    exact holds.sound place among
  plain := plain
  spared := fun ending among => holds.spared ending (endings among)

theorem put (holds : home.Holds location bench) (off : place ∉ home.places)
    (plain : ∀ target, node = .link target → home.IsAlias target → home.IsNamed place) :
    home.Holds location (bench.onTree (·.put place node)) := by
  refine holds.of_same rfl ?_ ?_ (List.Subset.refl _)
  · intro kept among
    refine FileTree.get?_put_of_ne bench.tree ?_ node
    rintro rfl
    exact off among
  · intro spot target linked
    by_cases same : spot = place
    · subst same
      rw [FileTree.get?_put_self] at linked
      exact plain target (Option.some.inj linked)
    · exact holds.plain spot target ((FileTree.get?_put_of_ne bench.tree same node).symm.trans linked)

theorem erase (holds : home.Holds location bench) (off : place ∉ home.places) :
    home.Holds location (bench.onTree (·.erase place)) := by
  refine holds.of_same rfl ?_ ?_ (List.Subset.refl _)
  · intro kept among
    refine FileTree.get?_erase_of_ne bench.tree ?_
    rintro rfl
    exact off among
  · intro spot target linked
    refine holds.plain spot target ?_
    rw [← linked]
    refine (FileTree.get?_erase_of_ne bench.tree ?_).symm
    rintro rfl
    rw [FileTree.get?_erase_self] at linked
    cases linked

theorem off_of_takesFile (holds : home.Holds location bench) (takes : bench.tree.TakesFile place)
    (other : place ≠ home.spot) : place ∉ home.places := by
  intro among
  rcases List.mem_cons.1 among with same | among
  · exact other same
  · rcases holds.sound place among with folder | ⟨⟨target, linked⟩, -⟩
    · obtain ⟨contents, mode, same⟩ := takes _ folder
      cases same
    · obtain ⟨contents, mode, same⟩ := takes _ linked
      cases same

/-- What has the name of a file that is replaced, and is no folder, is nothing of the way. -/
theorem off_of_replaced (holds : home.Holds location bench) {name : String} (among : name ∈ replacedNames)
    (finds : bench.Finds path other) (last : (FileTree.pathParts path).getLast? = some name)
    (single : other.node? ≠ some .folder) : other.place ∉ home.places := by
  obtain ⟨start, -, way⟩ := FileTree.way_of_locate finds
  have final := way.last_name last (isPart_of_replaced name among)
  intro kept
  rcases List.mem_cons.1 kept with same | way
  · obtain ⟨found, own, named⟩ := home.named
    rw [same, named] at final
    exact (home.own found own).1 (Option.some.inj final ▸ mem_otherNames among)
  · rcases holds.sound _ way with folder | ⟨-, differs⟩
    · exact single ((FileTree.get?_place_of_locate finds single).symm.trans folder)
    · exact differs name among final

theorem write (holds : home.Holds location bench) (contents : List UInt8) :
    home.Holds (.taken home.spot (.file contents location.written.2)) (bench.write location contents) := by
  have apart : ∀ place ∈ home.spine, place ≠ home.spot := by
    rintro place among rfl
    have there := holds.there
    rcases holds.sound _ among with folder | ⟨⟨target, linked⟩, -⟩
    · exact FileTree.Location.node?_of_takesFile holds.file (there.symm.trans folder)
    · have takes := holds.file
      rw [there] at linked
      match location, linked with
      | .taken _ (.link _), _ => cases takes
  have same : ∀ place ∈ home.spine,
      (bench.write location contents).tree.get? place = bench.tree.get? place := fun place among =>
    FileTree.get?_put_of_ne bench.tree (holds.place ▸ apart place among) _
  exact {
    surroundings := holds.surroundings
    place := rfl
    file := rfl
    there := by
      unfold Bench.write
      rw [holds.place]
      exact FileTree.get?_put_self ..
    given := holds.given.of_same same
    whole := holds.whole.of_same same
    based := holds.based.of_same same
    sound := by
      intro place among
      rw [same place among]
      exact holds.sound place among
    plain := by
      intro place target linked
      by_cases here : place = location.place
      · subst here
        cases (FileTree.get?_put_self ..).symm.trans linked
      · exact holds.plain place target ((FileTree.get?_put_of_ne bench.tree here _).symm.trans linked)
    spared := holds.spared }

theorem write_other (holds : home.Holds location bench) (named : home.IsOther path)
    (opens : Opens bench.tree bench.surroundings path other) (contents : List UInt8) (mode : Nat) :
    home.Holds location (bench.onTree (·.put other.place (.file contents mode))) := by
  refine holds.put ?_ (by rintro target ⟨⟩)
  exact holds.off_of_takesFile (FileTree.takesFile_of_locate opens.leads opens.file)
    (holds.name_of_locate opens.leads (FileTree.Location.node?_of_takesFile opens.file) named)

theorem ensureFolder (holds : home.Holds location bench) (other : place ≠ home.spot) :
    home.Holds location (bench.onTree (·.ensureFolder place)) := by
  unfold Bench.onTree FileTree.ensureFolder
  dsimp only
  split
  · exact holds
  · rename_i free
    have plain : ∀ target, Node.folder = .link target → home.IsAlias target → home.IsNamed place := by
      rintro target ⟨⟩
    refine holds.put (holds.off_of_takesFile ?_ other) plain
    intro node stood
    rw [stood] at free
    exact absurd rfl free

theorem change (holds : home.Holds location bench) {change : Place × Option Node}
    (spares : home.Spares change) : home.Holds location (bench.onTree (·.change change.1 change.2)) := by
  obtain ⟨place, node?⟩ := change
  have off : place ∉ home.places := fun among => spares.above place among (List.prefix_refl _)
  cases node? with
  | some node =>
    have above : ∀ places : List Place, (∀ upper ∈ places, upper ≠ home.spot) → ∀ {bench : Bench},
        home.Holds location bench →
          home.Holds location (bench.onTree fun tree => places.foldl FileTree.ensureFolder tree) := by
      intro places others
      induction places with
      | nil => exact id
      | cons upper more ih =>
        intro bench holds
        exact ih (fun place later => others place (List.mem_cons_of_mem upper later))
          (holds.ensureFolder (others upper List.mem_cons_self))
    refine (above _ ?_ holds).put off fun target linked => spares.plain target (congrArg some linked)
    rintro upper among rfl
    obtain ⟨n, -, same⟩ := List.mem_map.1 among
    exact spares.below (same ▸ List.take_prefix n place)
  | none =>
    refine holds.of_same rfl ?_ ?_ (List.Subset.refl _)
    · intro kept among
      refine (FileTree.get?_eraseUnder bench.tree place kept).trans (if_neg ?_)
      rw [List.isPrefixOf_iff_prefix]
      exact spares.above kept among
    · intro spot target linked
      have stood := (FileTree.get?_eraseUnder bench.tree place spot).symm.trans linked
      split at stood
      · cases stood
      · exact holds.plain spot target stood

/-! What the work at a bench keeps. -/

theorem keeps_writeOctets (named : home.IsOther path) (octets : List UInt8) :
    Keeps (home.Holds location) (writeOctets path octets) :=
  Keeps.writeOctets path octets fun _ _ holds opens => holds.write_other named opens octets _

theorem keeps_log (message : Message) : Keeps (home.Holds location) (Work.log message) := by
  intro bench holds
  refine ⟨?_, fun _ _ => trivial⟩
  have seen : home.Holds location (shown message bench) := by
    refine holds.of_same (shown_surroundings message bench) ?_ ?_ ?_
    · intro place _
      rw [shown_tree]
    · rw [shown_tree]
      exact holds.plain
    · rw [shown_endings]
      exact List.Subset.refl _
  by_cases opens : ∃ spot, Opens bench.tree bench.surroundings bench.surroundings.logFile spot
  · obtain ⟨spot, opens⟩ := opens
    rw [outcome_log_of_opens opens]
    refine seen.write_other (isOther_logFile bench.surroundings) ?_ _ _
    rwa [shown_tree, shown_surroundings]
  · obtain ⟨fault, stops⟩ := outcome_log_of_not_opens (not_exists.1 opens) message
    rw [stops]
    exact seen

theorem keeps_makeFolder (named : home.IsOther path) : Keeps (home.Holds location) (makeFolder path) := by
  refine Keeps.makeFolder path fun bench place holds finds => holds.put ?_ (by rintro target ⟨⟩)
  exact holds.off_of_takesFile (FileTree.takesFile_of_locate finds rfl)
    (holds.name_of_locate finds (by rintro ⟨⟩) named)

theorem keeps_runCommand (words : List String) (folder : Option String) (streamed : Bool) :
    Keeps (home.Holds location) (runCommand words folder streamed) := by
  have changes : ∀ {bench : Bench} {change : Place × Option Node}, home.Holds location bench →
      home.Spares change → home.Holds location (bench.onTree (·.change change.1 change.2)) :=
    fun holds spares => holds.change spares
  refine Work.keeps_runCommand keeps_log words folder streamed ?_ changes
  intro bench holds
  exact ⟨Bench.forall_changes holds.spared,
    holds.of_same rfl (fun _ _ => rfl) holds.plain (List.drop_subset 1 bench.endings)⟩

theorem survives (script : (FileTree.pathParts path).getLast? = some Scaffold.scriptName)
    (draft : (FileTree.pathParts (Script.draftPath path)).getLast? =
      some (Script.draftPath Scaffold.scriptName)) : Script.Survives (home.Holds location) path where
  logs := keeps_log
  writes := fun holds opens contents =>
    holds.write_other (isOther_of_name (mem_otherNames (by decide)) draft) opens contents _
  removes := fun holds finds other => holds.erase (holds.off_of_replaced (by decide) finds draft
    fun folder => other (Option.some.inj folder))
  moves := by
    intro bench place node spot holds finds other target free
    have erased := holds.erase (holds.off_of_replaced (by decide) finds draft
      fun folder => other (Option.some.inj folder))
    refine erased.put (holds.off_of_replaced (by decide) target script free) ?_
    -- a draft that is a link has a name of its own
    rintro link rfl hit
    obtain ⟨start, -, way⟩ := FileTree.way_of_locate finds
    obtain ⟨name, own, named⟩ := holds.plain place link (Script.draft_of_finds finds other).2 hit
    have again := way.last_name draft (isPart_of_replaced _ (by decide))
    refine absurd (mem_otherNames ?_) (home.own name own).1
    rw [← Option.some.inj (again.symm.trans named)]
    decide

end Home.Holds

end JuceWorkbench.SideFile
