import JuceWorkbench.Proofs.Bench.Outcome
import JuceWorkbench.Proofs.Project.Metadata
import JuceWorkbench.Proofs.SideFile.Entries

/-! Which tables give a project its metadata, and which settings take that away. The tables need a
known version, a table of the project with a name, and a table of the build with a known type;
everything else is free. A setting spoils them when it puts something else in one of these places. -/

namespace JuceWorkbench

namespace Datum

theorem text?_of_alike {a b : Datum} (alike : a.isAlike b = true) : a.text? = b.text? := by
  cases a <;> cases b
  case text.text value other =>
    obtain rfl : value = other := by simpa [isAlike] using alike
    rfl
  all_goals first | rfl | cases alike

theorem isGiven_of_alike {a b : Datum} (alike : a.isAlike b = true) : a.isGiven = b.isGiven := by
  cases a <;> cases b
  case list.list items others =>
    cases items <;> cases others <;> first | rfl | cases alike
  case table.table entries others =>
    cases entries with
    | nil =>
      cases others with
      | nil => rfl
      | cons other more => cases alike
    | cons entry more =>
      cases others with
      | nil => cases alike
      | cons other rest => rfl
  all_goals first
    | rfl
    | cases alike
    | (rw [isAlike, beq_iff_eq] at alike
       subst alike
       rfl)

theorem isAlike_getD {value other : Option Datum} (alike : Alike value other) (default : Datum)
    (same : default.isAlike default = true) :
    (value.getD default).isAlike (other.getD default) = true := by
  cases alike with
  | none => exact same
  | some like => exact like

end Datum

namespace SideFile
open Project

theorem isKnownVersion_of_alike {a b : Datum} (alike : a.isAlike b = true) :
    isKnownVersion a = isKnownVersion b := by
  cases a <;> cases b
  case integer.integer value other =>
    obtain rfl : value = other := by simpa [Datum.isAlike] using alike
    rfl
  all_goals first | rfl | cases alike

def versionIn (entries : Entries) : Datum :=
  (entries.get? "config_version").getD (.integer currentVersion)

def nameIn (root : String) (project : Entries) : Datum :=
  let name := (project.get? "name").getD .null
  if name.isGiven then name else .text (Path.baseName root)

def kindIn (project : Entries) : Kind := Kind.parse ((project.get? "template").getD .null)

def typeIn (build : Entries) : Datum := (build.get? "type").getD (.text BuildType.debug.word)

def typeFor (entries : Entries) : Option Datum → Except Fault Datum
  | some type => .ok type
  | none => do .ok (typeIn (← tableAt entries "build"))

/-- Tables that describe the project in a folder. -/
structure Describes (entries : Entries) (root : String) (project build : Entries) (name : String)
    (type : BuildType) : Prop where
  version : isKnownVersion (versionIn entries) = true
  projectTable : tableAt entries "project" = .ok project
  buildTable : tableAt entries "build" = .ok build
  named : Metadata.name? (nameIn root project) = some name
  typed : BuildType.parse? (typeIn build) = some type

def IsAccepted (entries : Entries) (root : String) : Prop :=
  ∃ project build name type, Describes entries root project build name type

section Metadata

variable {here root : String} {entries project build : Entries} {name : String} {type : BuildType}

theorem Describes.metadata (describes : Describes entries root project build name type) :
    SideFile.metadata here root entries none =
      .ok ⟨name, Path.absolute here root, kindIn project, type⟩ := by
  have version := describes.version
  have named := describes.named
  have typed := describes.typed
  unfold versionIn at version
  unfold nameIn at named
  unfold typeIn at typed
  unfold SideFile.metadata
  simp only [version, if_true, describes.projectTable, describes.buildTable, bind, Except.bind,
    Metadata.make, named, typed, kindIn, Kind.parse_known]

theorem metadata_eq (here root : String) (entries : Entries) (given : Option Datum) :
    SideFile.metadata here root entries given =
      if isKnownVersion (versionIn entries) = true then do
        let project ← tableAt entries "project"
        let type ← typeFor entries given
        Metadata.make here (nameIn root project) (.text root) (.known (kindIn project)) type
      else .error ((versionIn entries).literalFault?.getD (.unsupportedVersion (versionIn entries))) := by
  cases given with
  | some type => rfl
  | none =>
    unfold typeFor
    cases buildTable : tableAt entries "build" with
    | ok build => simp only [SideFile.metadata, buildTable]; rfl
    | error fault => simp only [SideFile.metadata, buildTable]; rfl

theorem metadata_cases {given : Option Datum} {found : Metadata}
    (loads : SideFile.metadata here root entries given = .ok found) :
    isKnownVersion (versionIn entries) = true ∧ ∃ project type, tableAt entries "project" = .ok project ∧
      Metadata.name? (nameIn root project) = some found.name ∧ typeFor entries given = .ok type ∧
      BuildType.parse? type = some found.buildType ∧
      found = ⟨found.name, Path.absolute here root, kindIn project, found.buildType⟩ := by
  rw [metadata_eq] at loads
  split at loads
  · rename_i version
    refine ⟨version, ?_⟩
    cases projectTable : tableAt entries "project" with
    | error fault =>
      rw [projectTable] at loads
      cases loads
    | ok project =>
      cases chosen : typeFor entries given with
      | error fault =>
        rw [projectTable, chosen] at loads
        cases loads
      | ok type =>
        rw [projectTable, chosen] at loads
        have makes : Metadata.make here _ (.text root) _ type = .ok found := loads
        obtain ⟨named, typed, folder, ⟨⟩, whole⟩ := Metadata.make_cases makes
        exact ⟨project, type, rfl, named, rfl, typed, whole⟩
  · cases loads

theorem exists_build {type : Datum} (chosen : typeFor entries none = .ok type) :
    ∃ build, tableAt entries "build" = .ok build ∧ type = typeIn build := by
  unfold typeFor at chosen
  cases buildTable : tableAt entries "build" with
  | error fault =>
    rw [buildTable] at chosen
    cases chosen
  | ok build =>
    rw [buildTable] at chosen
    cases chosen
    exact ⟨build, rfl, rfl⟩

theorem exists_describes {found : Metadata} (loads : SideFile.metadata here root entries none = .ok found) :
    ∃ project build, Describes entries root project build found.name found.buildType ∧
      found = ⟨found.name, Path.absolute here root, kindIn project, found.buildType⟩ := by
  obtain ⟨version, project, type, projectTable, named, chosen, typed, whole⟩ := metadata_cases loads
  obtain ⟨build, buildTable, rfl⟩ := exists_build chosen
  exact ⟨project, build, ⟨version, projectTable, buildTable, named, typed⟩, whole⟩

theorem isAccepted_iff (here : String) :
    IsAccepted entries root ↔ ∃ found, SideFile.metadata here root entries none = .ok found := by
  constructor
  · rintro ⟨project, build, name, type, describes⟩
    exact ⟨_, describes.metadata⟩
  · rintro ⟨found, loads⟩
    obtain ⟨project, build, describes, -⟩ := exists_describes loads
    exact ⟨project, build, _, _, describes⟩

end Metadata

/-! Tables that hold the same. -/

section Alike

variable {entries others : Entries}

theorem tableAt_eq_ok_iff (key : String) (inner : Entries) :
    tableAt entries key = .ok inner ↔ (entries.get? key).getD (.table []) = .table inner := by
  unfold tableAt
  cases entries.get? key with
  | none => simp
  | some value => cases value <;> simp

theorem find?_of_tableAt {key : String} {inner : Entries} (there : tableAt entries key = .ok inner)
    (keys : List String) (next : String) :
    find? (key :: next :: keys) (.table entries) = find? (next :: keys) (.table inner) := by
  have table := (tableAt_eq_ok_iff key inner).1 there
  rw [find?_cons]
  cases stored : entries.get? key with
  | none =>
    rw [stored] at table
    cases table
    rfl
  | some value =>
    rw [stored, Option.getD_some] at table
    rw [table, Option.bind_some]

theorem tableAt_of_alike (alike : (Datum.table entries).isAlike (.table others) = true) (key : String) :
    (∃ fault fault', tableAt entries key = .error fault ∧ tableAt others key = .error fault') ∨
      ∃ inner inner', tableAt entries key = .ok inner ∧ tableAt others key = .ok inner' ∧
        (Datum.table inner).isAlike (.table inner') = true := by
  have like := Datum.alike_get? alike key
  unfold tableAt
  generalize entries.get? key = value at like ⊢
  generalize others.get? key = other at like ⊢
  cases like with
  | none => exact Or.inr ⟨[], [], rfl, rfl, rfl⟩
  | @some value other like =>
    cases value <;> cases other
    case table.table => exact Or.inr ⟨_, _, rfl, rfl, like⟩
    all_goals first | exact Or.inl ⟨_, _, rfl, rfl⟩ | cases like

theorem nameIn_of_alike (root : String)
    (alike : (Datum.table entries).isAlike (.table others) = true) :
    (nameIn root entries).text? = (nameIn root others).text? := by
  have like := Datum.isAlike_getD (Datum.alike_get? alike "name") .null rfl
  unfold nameIn
  dsimp only
  rw [Datum.isGiven_of_alike like]
  split
  · exact Datum.text?_of_alike like
  · rfl

theorem kindIn_of_alike (alike : (Datum.table entries).isAlike (.table others) = true) :
    kindIn entries = kindIn others := by
  have like := Datum.isAlike_getD (Datum.alike_get? alike "template") .null rfl
  unfold kindIn
  rw [Kind.parse_eq, Kind.parse_eq, Datum.text?_of_alike like]

theorem typeFor_of_alike (alike : (Datum.table entries).isAlike (.table others) = true)
    (given : Option Datum) :
    (∃ fault fault', typeFor entries given = .error fault ∧ typeFor others given = .error fault') ∨
      ∃ type type', typeFor entries given = .ok type ∧ typeFor others given = .ok type' ∧
        type.text? = type'.text? := by
  cases given with
  | some type => exact Or.inr ⟨type, type, rfl, rfl, rfl⟩
  | none =>
    unfold typeFor
    rcases tableAt_of_alike alike "build" with ⟨fault, fault', fails, fails'⟩ |
      ⟨build, build', there, there', like⟩
    · rw [fails, fails']
      exact Or.inl ⟨fault, fault', rfl, rfl⟩
    · rw [there, there']
      exact Or.inr ⟨_, _, rfl, rfl, Datum.text?_of_alike
        (Datum.isAlike_getD (Datum.alike_get? like "type") (.text BuildType.debug.word) rfl)⟩

theorem toOption_metadata_of_alike (alike : (Datum.table entries).isAlike (.table others) = true)
    (here root : String) (given : Option Datum) :
    (SideFile.metadata here root entries given).toOption =
      (SideFile.metadata here root others given).toOption := by
  have version : isKnownVersion (versionIn entries) = isKnownVersion (versionIn others) :=
    isKnownVersion_of_alike (Datum.isAlike_getD (Datum.alike_get? alike "config_version")
      (.integer currentVersion) rfl)
  rw [metadata_eq, metadata_eq, version]
  split
  · rcases tableAt_of_alike alike "project" with ⟨fault, fault', fails, fails'⟩ |
      ⟨project, project', there, there', like⟩
    · rw [fails, fails']
      rfl
    · rw [there, there']
      rcases typeFor_of_alike alike given with ⟨fault, fault', fails, fails'⟩ |
        ⟨type, type', chosen, chosen', same⟩
      · rw [fails, fails']
        rfl
      · rw [chosen, chosen']
        exact Metadata.toOption_make_congr _ (.text root) (nameIn_of_alike root like)
          (kindIn_of_alike like) same
  · rfl

theorem isAccepted_alike_iff (alike : (Datum.table entries).isAlike (.table others) = true)
    (root : String) : IsAccepted entries root ↔ IsAccepted others root := by
  rw [isAccepted_iff "", isAccepted_iff ""]
  simp only [← toOption_eq_some_iff, toOption_metadata_of_alike alike "" root none]

end Alike

/-! Settings. -/

/-- A path of keys and a text that leave no metadata once the path was given the text. -/
inductive Spoils (root : String) : List String → String → Prop
  | version (more : List String) (value : String) : Spoils root ("config_version" :: more) value
  | project (value : String) : Spoils root ["project"] value
  | build (value : String) : Spoils root ["build"] value
  /-- An empty name stands for the name of the folder. -/
  | name (value : String) (blank : Metadata.name?
      (if value.isEmpty then .text (Path.baseName root) else .text value : Datum) = none) :
      Spoils root ["project", "name"] value
  | insideName (key : String) (more : List String) (value : String) :
      Spoils root ("project" :: "name" :: key :: more) value
  | type (value : String) (unknown : BuildType.ofWord? value = none) :
      Spoils root ["build", "type"] value
  | insideType (key : String) (more : List String) (value : String) :
      Spoils root ("build" :: "type" :: key :: more) value

section Spoils

variable {root value : String} {keys : List String}

theorem Spoils.blank (spoils : Spoils root keys value) (same : keys = ["project", "name"]) :
    Metadata.name? (if value.isEmpty then .text (Path.baseName root) else .text value : Datum) = none := by
  cases spoils with
  | name _ blank => exact blank
  | _ => simp at same

theorem Spoils.unknown (spoils : Spoils root keys value) (same : keys = ["build", "type"]) :
    BuildType.ofWord? value = none := by
  cases spoils with
  | type _ unknown => exact unknown
  | _ => simp at same

/-- Only some keys matter. -/
theorem Spoils.keys_cases (spoils : Spoils root keys value) :
    ["config_version"] <+: keys ∨ keys = ["project"] ∨ keys = ["build"] ∨
      ["project", "name"] <+: keys ∨ ["build", "type"] <+: keys := by
  cases spoils <;> simp

end Spoils

section Set

variable {root key : String} {keys more : List String} {value : Datum} {entries new : Entries}

theorem set_cons_cases (done : set (key :: keys) value entries = .ok new) :
    (keys = [] ∧ new = entries.put key value) ∨
      keys ≠ [] ∧ ∃ inner changed, tableAt entries key = .ok inner ∧ set keys value inner = .ok changed ∧
        new = entries.put key (.table changed) := by
  cases keys with
  | nil =>
    cases done
    exact Or.inl ⟨rfl, rfl⟩
  | cons next keys =>
    refine Or.inr ⟨List.cons_ne_nil next keys, ?_⟩
    rw [set] at done
    split at done
    · rename_i inner there
      cases further : set (next :: keys) value inner with
      | error fault =>
        rw [further] at done
        cases done
      | ok changed =>
        rw [further] at done
        cases done
        exact ⟨inner, changed, (tableAt_eq_ok_iff key inner).2 there, further, rfl⟩
    · cases done

theorem put_ne_nil (entries : Entries) (key : String) (value : Datum) : entries.put key value ≠ [] := by
  cases entries with
  | nil => exact List.cons_ne_nil _ _
  | cons entry more =>
    unfold Entries.put
    split <;> exact List.cons_ne_nil _ _

theorem set_ne_nil (done : set (key :: keys) value entries = .ok new) : new ≠ [] := by
  rcases set_cons_cases done with ⟨-, rfl⟩ | ⟨-, inner, changed, -, -, rfl⟩
  · exact put_ne_nil entries key _
  · exact put_ne_nil entries key _

theorem tableAt_put_self (entries : Entries) (key : String) (inner : Entries) :
    tableAt (entries.put key (.table inner)) key = .ok inner := by
  unfold tableAt
  rw [Entries.get?_put_self]

theorem tableAt_put_of_ne (entries : Entries) {other : String} (value : Datum) (ne : other ≠ key) :
    tableAt (entries.put key value) other = tableAt entries other := by
  unfold tableAt
  rw [Entries.get?_put_of_ne entries value ne]

theorem versionIn_put_of_ne (entries : Entries) (value : Datum) (ne : "config_version" ≠ key) :
    versionIn (entries.put key value) = versionIn entries := by
  unfold versionIn
  rw [Entries.get?_put_of_ne entries value ne]

end Set

section Accepted

variable {root : String} {entries new : Entries}

theorem isAccepted_put_project_iff (accepted : IsAccepted entries root) (changed : Entries) :
    IsAccepted (entries.put "project" (.table changed)) root ↔
      ∃ name, Metadata.name? (nameIn root changed) = some name := by
  obtain ⟨project, build, name, type, describes⟩ := accepted
  constructor
  · rintro ⟨other, _, found, _, again⟩
    have table := again.projectTable
    rw [tableAt_put_self] at table
    cases table
    exact ⟨found, again.named⟩
  · rintro ⟨found, named⟩
    refine ⟨changed, build, found, type, ?_, tableAt_put_self entries _ changed, ?_, named, describes.typed⟩
    · rw [versionIn_put_of_ne entries _ (by decide)]
      exact describes.version
    · rw [tableAt_put_of_ne entries _ (by decide)]
      exact describes.buildTable

theorem isAccepted_put_build_iff (accepted : IsAccepted entries root) (changed : Entries) :
    IsAccepted (entries.put "build" (.table changed)) root ↔
      ∃ type, BuildType.parse? (typeIn changed) = some type := by
  obtain ⟨project, build, name, type, describes⟩ := accepted
  constructor
  · rintro ⟨_, other, _, found, again⟩
    have table := again.buildTable
    rw [tableAt_put_self] at table
    cases table
    exact ⟨found, again.typed⟩
  · rintro ⟨found, typed⟩
    refine ⟨project, changed, name, found, ?_, ?_, tableAt_put_self entries _ changed, describes.named, typed⟩
    · rw [versionIn_put_of_ne entries _ (by decide)]
      exact describes.version
    · rw [tableAt_put_of_ne entries _ (by decide)]
      exact describes.projectTable

theorem not_isAccepted_put_version {value : Datum} (unknown : isKnownVersion value = false) :
    ¬IsAccepted (entries.put "config_version" value) root := by
  rintro ⟨_, _, _, _, describes⟩
  have version := describes.version
  unfold versionIn at version
  rw [Entries.get?_put_self, Option.getD_some, unknown] at version
  cases version

theorem not_isAccepted_put_text {key : String} (value : String)
    (needed : key = "project" ∨ key = "build") :
    ¬IsAccepted (entries.put key (.text value)) root := by
  rintro ⟨_, _, _, _, describes⟩
  have project := describes.projectTable
  have build := describes.buildTable
  unfold tableAt at project build
  rcases needed with rfl | rfl
  · rw [Entries.get?_put_self] at project
    cases project
  · rw [Entries.get?_put_self] at build
    cases build

theorem isAccepted_put_other (accepted : IsAccepted entries root) {key : String} (value : Datum)
    (version : "config_version" ≠ key) (projectKey : "project" ≠ key) (buildKey : "build" ≠ key) :
    IsAccepted (entries.put key value) root := by
  obtain ⟨project, build, name, type, describes⟩ := accepted
  refine ⟨project, build, name, type, ?_, ?_, ?_, describes.named, describes.typed⟩
  · rw [versionIn_put_of_ne entries _ version]
    exact describes.version
  · rw [tableAt_put_of_ne entries _ projectKey]
    exact describes.projectTable
  · rw [tableAt_put_of_ne entries _ buildKey]
    exact describes.buildTable

theorem nameIn_put_self (project : Entries) (given : Datum) :
    nameIn root (project.put "name" given) =
      if given.isGiven then given else .text (Path.baseName root) := by
  unfold nameIn
  rw [Entries.get?_put_self]
  rfl

theorem nameIn_put_of_ne (project : Entries) {key : String} (given : Datum) (other : "name" ≠ key) :
    nameIn root (project.put key given) = nameIn root project := by
  unfold nameIn
  rw [Entries.get?_put_of_ne project given other]

theorem typeIn_put_self (build : Entries) (given : Datum) :
    typeIn (build.put "type" given) = given := by
  unfold typeIn
  rw [Entries.get?_put_self]
  rfl

theorem typeIn_put_of_ne (build : Entries) {key : String} (given : Datum) (other : "type" ≠ key) :
    typeIn (build.put key given) = typeIn build := by
  unfold typeIn
  rw [Entries.get?_put_of_ne build given other]

theorem isAccepted_set_project_iff (accepted : IsAccepted entries root) {keys : List String}
    {value : String} (done : set ("project" :: keys) (.text value) entries = .ok new) :
    IsAccepted new root ↔ ¬Spoils root ("project" :: keys) value := by
  rcases set_cons_cases done with ⟨rfl, rfl⟩ | ⟨more, inner, changed, there, further, rfl⟩
  · exact iff_of_false (not_isAccepted_put_text value (Or.inl rfl)) (not_not_intro (.project value))
  · rw [isAccepted_put_project_iff accepted]
    obtain ⟨project, build, name, type, describes⟩ := accepted
    obtain rfl : project = inner := Except.ok.inj (describes.projectTable.symm.trans there)
    cases keys with
    | nil => exact absurd rfl more
    | cons next keys =>
      by_cases named : next = "name"
      · subst named
        rcases set_cons_cases further with ⟨rfl, rfl⟩ | ⟨deep, below, deeper, -, last, rfl⟩
        · rw [nameIn_put_self]
          have given : (if Datum.isGiven (.text value) then Datum.text value
              else .text (Path.baseName root)) =
                if value.isEmpty then .text (Path.baseName root) else .text value := by
            change (if (!value.isEmpty) = true then _ else _) = _
            cases value.isEmpty <;> rfl
          rw [given]
          constructor
          · rintro ⟨found, filled⟩ spoils
            rw [spoils.blank rfl] at filled
            cases filled
          · intro sound
            rw [← Option.ne_none_iff_exists']
            exact fun blank => sound (.name value blank)
        · cases keys with
          | nil => exact absurd rfl deep
          | cons key keys =>
            refine iff_of_false ?_ (not_not_intro (.insideName key keys value))
            have filled := set_ne_nil last
            rintro ⟨found, named⟩
            rw [nameIn_put_self] at named
            cases deeper with
            | nil => exact filled rfl
            | cons entry more => cases named
      · obtain ⟨given, rfl⟩ : ∃ given, changed = Entries.put project next given := by
          rcases set_cons_cases further with ⟨-, rfl⟩ | ⟨-, -, deeper, -, -, rfl⟩
          · exact ⟨_, rfl⟩
          · exact ⟨_, rfl⟩
        refine iff_of_true ⟨name, ?_⟩ ?_
        · rw [nameIn_put_of_ne project given (Ne.symm named)]
          exact describes.named
        · intro spoils
          have counts := spoils.keys_cases
          simp [Ne.symm named] at counts

theorem isAccepted_set_build_iff (accepted : IsAccepted entries root) {keys : List String}
    {value : String} (done : set ("build" :: keys) (.text value) entries = .ok new) :
    IsAccepted new root ↔ ¬Spoils root ("build" :: keys) value := by
  rcases set_cons_cases done with ⟨rfl, rfl⟩ | ⟨more, inner, changed, there, further, rfl⟩
  · exact iff_of_false (not_isAccepted_put_text value (Or.inr rfl)) (not_not_intro (.build value))
  · rw [isAccepted_put_build_iff accepted]
    obtain ⟨project, build, name, type, describes⟩ := accepted
    obtain rfl : build = inner := Except.ok.inj (describes.buildTable.symm.trans there)
    cases keys with
    | nil => exact absurd rfl more
    | cons next keys =>
      by_cases typed : next = "type"
      · subst typed
        rcases set_cons_cases further with ⟨rfl, rfl⟩ | ⟨deep, below, deeper, -, last, rfl⟩
        · rw [typeIn_put_self]
          constructor
          · rintro ⟨found, known⟩ spoils
            rw [BuildType.parse?, spoils.unknown rfl] at known
            cases known
          · intro sound
            rw [← Option.ne_none_iff_exists']
            exact fun unknown => sound (.type value unknown)
        · cases keys with
          | nil => exact absurd rfl deep
          | cons key keys =>
            refine iff_of_false ?_ (not_not_intro (.insideType key keys value))
            rintro ⟨found, known⟩
            rw [typeIn_put_self] at known
            cases known
      · obtain ⟨given, rfl⟩ : ∃ given, changed = Entries.put build next given := by
          rcases set_cons_cases further with ⟨-, rfl⟩ | ⟨-, -, deeper, -, -, rfl⟩
          · exact ⟨_, rfl⟩
          · exact ⟨_, rfl⟩
        refine iff_of_true ⟨type, ?_⟩ ?_
        · rw [typeIn_put_of_ne build given (Ne.symm typed)]
          exact describes.typed
        · intro spoils
          have counts := spoils.keys_cases
          simp [Ne.symm typed] at counts

/-- A setting that is carried out leaves tables to load the project with, unless it spoils them. -/
theorem isAccepted_set_iff (accepted : IsAccepted entries root) {keys : List String} {value : String}
    (done : set keys (.text value) entries = .ok new) :
    IsAccepted new root ↔ ¬Spoils root keys value := by
  cases keys with
  | nil =>
    cases done
    exact iff_of_true accepted (by rintro ⟨⟩)
  | cons key keys =>
    by_cases project : key = "project"
    · subst project
      exact isAccepted_set_project_iff accepted done
    · by_cases build : key = "build"
      · subst build
        exact isAccepted_set_build_iff accepted done
      · by_cases version : key = "config_version"
        · subst version
          refine iff_of_false ?_ (not_not_intro (.version keys value))
          rcases set_cons_cases done with ⟨-, rfl⟩ | ⟨-, -, changed, -, -, rfl⟩
          · exact not_isAccepted_put_version rfl
          · exact not_isAccepted_put_version rfl
        · refine iff_of_true ?_ ?_
          · rcases set_cons_cases done with ⟨-, rfl⟩ | ⟨-, -, changed, -, -, rfl⟩
            · exact isAccepted_put_other accepted _ (Ne.symm version) (Ne.symm project) (Ne.symm build)
            · exact isAccepted_put_other accepted _ (Ne.symm version) (Ne.symm project) (Ne.symm build)
          · intro spoils
            cases spoils with
            | version => exact version rfl
            | project | name | insideName => exact project rfl
            | build | type | insideType => exact build rfl

end Accepted

end SideFile

end JuceWorkbench
