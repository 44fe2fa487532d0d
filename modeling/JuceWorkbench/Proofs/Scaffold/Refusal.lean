import JuceWorkbench.Proofs.Scaffold.Addition
import JuceWorkbench.Proofs.Script.File

/-! What a failed addition leaves behind. An addition that is refused before it makes a folder or
writes the header changes nothing but the log. After that nothing is taken back: the folder or the
header stays, whatever fails later, and a header that stays has the same addition refused. -/

namespace JuceWorkbench.Scaffold
open Project Work

/-- An addition that is refused before anything is made. -/
inductive IsRefused (bench : Bench) (metadata : Metadata) (type name : String) : Prop
  | unknown (unknown : Element.ofWord? type = none)
  | present (element : Element) (known : Element.ofWord? type = some element)
      (there : isPresent bench metadata element name = true)
  | folder (element : Element) (known : Element.ofWord? type = some element) (stop : Stop)
      (stops : outcome (makeFolders metadata.sourceFolder true) bench = (.error stop, bench))
  | header (element : Element) (known : Element.ofWord? type = some element)
      (stays : outcome (makeFolders metadata.sourceFolder true) bench = (.ok (), bench))
      (closed : ∀ location,
        ¬Opens bench.tree bench.surroundings (headerPath metadata element name) location)

section Stays

variable {kept : Bench → Prop} {metadata : Metadata} {type name : String} {headerOnly : Bool}
  {element : Element}

theorem getLast?_scriptPath (metadata : Metadata) : (scriptPath metadata).toList.getLast? = some 't' :=
  Path.getLast?_join _ (by decide)

theorem getLast?_headerPath (metadata : Metadata) (element : Element) (name : String) :
    (headerPath metadata element name).toList.getLast? = some 'h' := by
  refine Path.getLast?_join _ ?_
  rw [String.toList_append, List.getLast?_append]
  rfl

theorem keeps_writeFile (logs : ∀ message, Keeps kept (Work.log message)) {path : String}
    (writes : ∀ octets, Keeps kept (writeOctets path octets)) (text : String) :
    Keeps kept (writeFile path text) :=
  Keeps.bind (writes _) fun _ => logs _

theorem keeps_finishElement (survives : Script.Survives kept (scriptPath metadata))
    (writes : ∀ octets, Keeps kept (writeOctets (sourcePath metadata element name) octets)) :
    Keeps kept (finishElement metadata element type name headerOnly) := by
  cases headerOnly with
  | false =>
    exact Keeps.bind (keeps_writeFile survives.logs writes _) fun _ =>
      Keeps.bind (survives.keeps_register _) fun _ =>
        Keeps.bind (survives.logs _) fun _ => Keeps.pure _
  | true => exact Keeps.bind (survives.logs _) fun _ => Keeps.pure _

/-- A property of trees that the writing of files cannot take away. -/
structure OutlastsFiles (kept : FileTree → Prop) : Prop where
  put : ∀ {tree : FileTree} {spot : Place}, kept tree → tree.TakesFile spot →
    ∀ contents mode, kept (tree.put spot (.file contents mode))

section OutlastsFiles

variable {kept : FileTree → Prop} (outlasts : OutlastsFiles kept)
include outlasts

theorem OutlastsFiles.keeps_log (message : Message) : Keeps (fun bench => kept bench.tree) (Work.log message) := by
  refine Keeps.log (fun {bench after} holds logged => ?_) message
  rcases logged.tree with same | ⟨location, contents, mode, opens, written⟩
  · rwa [same]
  · rw [written]
    exact outlasts.put holds (FileTree.takesFile_of_locate opens.leads opens.file) contents mode

theorem OutlastsFiles.write {bench : Bench} {path : String} {location : FileTree.Location}
    (holds : kept bench.tree) (opens : Opens bench.tree bench.surroundings path location)
    (contents : List UInt8) : kept (bench.write location contents).tree :=
  outlasts.put holds (FileTree.takesFile_of_locate opens.leads opens.file) _ _

theorem OutlastsFiles.keeps_writeOctets (path : String) (octets : List UInt8) :
    Keeps (fun bench => kept bench.tree) (writeOctets path octets) :=
  Keeps.writeOctets path octets fun _ _ holds opens => outlasts.write holds opens octets

end OutlastsFiles

theorem outlastsFiles_folder (place : Place) : OutlastsFiles fun tree => tree.get? place = some .folder where
  put := fun folder takes _ _ => (FileTree.Passes.put takes _).folder folder

/-- A folder stays, since only files are written and only drafts that are files are removed. -/
theorem survives_folder (place : Place) (path : String) :
    Script.Survives (fun bench => bench.tree.get? place = some .folder) path where
  logs := (outlastsFiles_folder place).keeps_log
  writes := fun folder opens contents => (outlastsFiles_folder place).write folder opens contents
  removes := by
    intro bench draft node folder finds other
    refine (FileTree.get?_erase_of_ne bench.tree ?_).trans folder
    rintro rfl
    exact other (Option.some.inj ((Script.draft_of_finds finds other).2.symm.trans folder))
  moves := by
    intro bench draft node location folder finds other target free
    refine (FileTree.get?_put_of_ne _ ?_ node).trans ((FileTree.get?_erase_of_ne bench.tree ?_).trans folder)
    · rintro rfl
      exact free ((FileTree.get?_place_of_locate target free).symm.trans folder)
    · rintro rfl
      exact other (Option.some.inj ((Script.draft_of_finds finds other).2.symm.trans folder))

theorem outlastsFiles_file (place : Place) :
    OutlastsFiles fun tree => ∃ contents mode, tree.get? place = some (.file contents mode) where
  put := by
    rintro tree spot ⟨contents, mode, there⟩ takes octets bits
    by_cases same : place = spot
    · exact ⟨octets, bits, by rw [same, FileTree.get?_put_self]⟩
    · exact ⟨contents, mode, (FileTree.get?_put_of_ne tree same _).trans there⟩

theorem survives_header {place : Place} (last : FileTree.EndsIn place 'h') {path : String}
    (script : path.toList.getLast? = some 't') :
    Script.Survives (fun bench => ∃ contents mode, bench.tree.get? place = some (.file contents mode)) path where
  logs := (outlastsFiles_file place).keeps_log
  writes := fun header opens contents => (outlastsFiles_file place).write header opens contents
  removes := by
    rintro bench draft node ⟨contents, mode, there⟩ finds other
    refine ⟨contents, mode, (FileTree.get?_erase_of_ne bench.tree ?_).trans there⟩
    rintro rfl
    cases last.unique (Script.draft_of_finds finds other).1
  moves := by
    rintro bench draft node location ⟨contents, mode, there⟩ finds other target free
    refine ⟨contents, mode, (FileTree.get?_put_of_ne _ ?_ node).trans
      ((FileTree.get?_erase_of_ne bench.tree ?_).trans there)⟩
    · rintro rfl
      cases last.unique (FileTree.endsIn_of_locate target script (by decide) (by decide))
    · rintro rfl
      cases last.unique (Script.draft_of_finds finds other).1

end Stays

def Began (base bench : Bench) : Prop :=
  bench = base ∨ ∃ place, base.tree.get? place = none ∧ bench.tree.get? place = some .folder

theorem began_makeFolders (base : Bench) (path : String) :
    Began base (outcome (makeFolders path true) base).2 := by
  refine (keeps_makeFolders path true (fun folder _ => Keeps.makeFolder folder ?_) base (Or.inl rfl)).1
  intro bench place began finds
  have free : bench.tree.get? place = none := FileTree.get?_place_of_locate finds (by rintro ⟨⟩)
  rcases began with rfl | ⟨made, unused, folder⟩
  · exact Or.inr ⟨place, free, FileTree.get?_put_self ..⟩
  · refine Or.inr ⟨made, unused, ?_⟩
    rwa [FileTree.get?_put_of_ne bench.tree ?_ _]
    rintro rfl
    cases free.symm.trans folder

section Addition

variable {metadata : Metadata} {type name : String} {headerOnly : Bool} {element : Element}
  {bench after : Bench}

theorem not_logged_of_folder {place : Place} (free : bench.tree.get? place = none)
    (folder : after.tree.get? place = some .folder) : ¬Logged bench after := by
  intro logged
  rcases logged.tree with same | ⟨location, contents, mode, opens, written⟩
  · rw [same, free] at folder
    cases folder
  · by_cases spot : place = location.place
    · rw [written, spot, FileTree.get?_put_self] at folder
      cases folder
    · rw [written, FileTree.get?_put_of_ne _ spot, free] at folder
      cases folder

theorem not_logged_of_made {place : Place} (free : bench.tree.get? place = none)
    (there : (after.tree.get? place).isSome = true)
    (apart : ∀ location, Opens bench.tree bench.surroundings bench.surroundings.logFile location →
      location.place ≠ place) : ¬Logged bench after := by
  intro logged
  rcases logged.tree with same | ⟨location, contents, mode, opens, written⟩
  · rw [same, free] at there
    cases there
  · rw [written, FileTree.get?_put_of_ne _ (apart location opens).symm, free] at there
    cases there

theorem free_of_opens (absent : isPresent bench metadata element name = false) {location : FileTree.Location}
    (opens : Opens bench.tree bench.surroundings (headerPath metadata element name) location)
    (unlinked : ∀ place target,
      ¬bench.Finds (headerPath metadata element name) (.taken place (.link target))) :
    ∃ place, location = .free place ∧ bench.Finds (headerPath metadata element name) (.free place) ∧
      FileTree.EndsIn place 'h' := by
  cases location with
  | taken place node =>
    have there : bench.tree.exists? bench.surroundings.place (headerPath metadata element name) = true := by
      unfold FileTree.exists? FileTree.node?
      rw [opens.leads]
      rfl
    unfold isPresent at absent
    rw [there] at absent
    cases absent
  | free place =>
    rcases FileTree.locate_unfollowed opens.leads with same | ⟨other, target, linked⟩
    · exact ⟨place, rfl, same, FileTree.endsIn_of_locate same
        (getLast?_headerPath metadata element name) (by decide) (by decide)⟩
    · exact absurd linked (unlinked other target)

theorem isRefused_iff_of_absent (known : Element.ofWord? type = some element)
    (absent : isPresent bench metadata element name = false) :
    IsRefused bench metadata type name ↔
      (∃ stop, outcome (makeFolders metadata.sourceFolder true) bench = (.error stop, bench)) ∨
        outcome (makeFolders metadata.sourceFolder true) bench = (.ok (), bench) ∧ ∀ location,
          ¬Opens bench.tree bench.surroundings (headerPath metadata element name) location := by
  constructor
  · intro refused
    cases refused with
    | unknown unknown => cases known.symm.trans unknown
    | present other again there =>
      obtain rfl := Option.some.inj (known.symm.trans again)
      cases absent.symm.trans there
    | folder other again stop stops => exact Or.inl ⟨stop, stops⟩
    | header other again stays closed =>
      obtain rfl := Option.some.inj (known.symm.trans again)
      exact Or.inr ⟨stays, closed⟩
  · rintro (⟨stop, stops⟩ | ⟨stays, closed⟩)
    · exact .folder element known stop stops
    · exact .header element known stays closed

theorem layElement_of_closed (type : String) (headerOnly : Bool)
    (stays : outcome (makeFolders metadata.sourceFolder true) bench = (.ok (), bench))
    (closed : ∀ location,
      ¬Opens bench.tree bench.surroundings (headerPath metadata element name) location) :
    ∃ fault, outcome (layElement metadata element type name headerOnly) bench =
      (.error (.fault fault), bench) := by
  obtain ⟨fault, refused⟩ := outcome_writeOctets_of_not_opens closed
    (Text.Utf8.encode (named element.header (element.className name)).toList)
  have stops : outcome (writeFile (headerPath metadata element name)
      (named element.header (element.className name))) bench = (.error (.fault fault), bench) :=
    outcome_bind_error refused _
  unfold layElement
  rw [outcome_bind_ok stays]
  exact ⟨fault, outcome_bind_error stops _⟩

theorem layElement_keeps_folder (element : Element) (type name : String) (headerOnly : Bool) {place : Place}
    (folder : (outcome (makeFolders metadata.sourceFolder true) bench).2.tree.get? place = some .folder) :
    (outcome (layElement metadata element type name headerOnly) bench).2.tree.get? place = some .folder := by
  have survives := survives_folder place (scriptPath metadata)
  have writes := (outlastsFiles_folder place).keeps_writeOctets
  exact kept_bind (fun _ => Keeps.bind (keeps_writeFile survives.logs (writes _) _) fun _ =>
    keeps_finishElement survives (writes _)) folder

theorem layElement_keeps_header (type : String) (headerOnly : Bool) {place : Place}
    (stays : outcome (makeFolders metadata.sourceFolder true) bench = (.ok (), bench))
    (opens : Opens bench.tree bench.surroundings (headerPath metadata element name) (.free place))
    (last : FileTree.EndsIn place 'h') : ∃ contents mode,
      (outcome (layElement metadata element type name headerOnly) bench).2.tree.get? place =
        some (.file contents mode) := by
  have survives := survives_header last (getLast?_scriptPath metadata)
  have finishes : Keeps _ (finishElement metadata element type name headerOnly) :=
    keeps_finishElement survives ((outlastsFiles_file place).keeps_writeOctets _)
  unfold layElement
  rw [outcome_bind_ok stays]
  refine kept_bind (fun _ => finishes) ?_
  have writes := outcome_writeOctets opens
    (Text.Utf8.encode (named element.header (element.className name)).toList)
  refine kept_bind (fun _ => survives.logs _) ?_
  unfold Work.writeText
  rw [writes]
  exact ⟨_, _, FileTree.get?_put_self ..⟩

theorem layElement_logged_iff {stop : Stop} (known : Element.ofWord? type = some element)
    (absent : isPresent bench metadata element name = false)
    (fails : outcome (layElement metadata element type name headerOnly) bench = (.error stop, after))
    (unlinked : ∀ place target,
      ¬bench.Finds (headerPath metadata element name) (.taken place (.link target)))
    (apart : ∀ place, bench.Finds (headerPath metadata element name) (.free place) → ∀ location,
      Opens bench.tree bench.surroundings bench.surroundings.logFile location →
        location.place ≠ place) :
    Logged bench after ↔ IsRefused bench metadata type name := by
  rw [isRefused_iff_of_absent known absent]
  have began := began_makeFolders bench metadata.sourceFolder
  rcases makes : outcome (makeFolders metadata.sourceFolder true) bench with ⟨result, mid⟩
  rw [makes] at began
  -- a folder or a header that was made is never taken back, so then more than the log was written
  rcases began with same | ⟨place, free, folder⟩
  · obtain rfl : mid = bench := same
    cases result with
    | error stop =>
      have stops : outcome (layElement metadata element type name headerOnly) mid = (.error stop, mid) :=
        outcome_bind_error makes _
      obtain ⟨-, rfl⟩ := Prod.mk.inj (fails.symm.trans stops)
      exact iff_of_true (.refl _) (Or.inl ⟨stop, rfl⟩)
    | ok value =>
      by_cases closed : ∀ location,
          ¬Opens mid.tree mid.surroundings (headerPath metadata element name) location
      · obtain ⟨fault, refused⟩ := layElement_of_closed type headerOnly makes closed
        obtain ⟨-, rfl⟩ := Prod.mk.inj (fails.symm.trans refused)
        exact iff_of_true (.refl _) (Or.inr ⟨rfl, closed⟩)
      · obtain ⟨location, opens⟩ := Classical.not_forall_not.1 closed
        obtain ⟨place, rfl, finds, last⟩ := free_of_opens absent opens unlinked
        obtain ⟨contents, mode, file⟩ := layElement_keeps_header type headerOnly makes opens last
        rw [fails] at file
        have free : mid.tree.get? place = none := FileTree.get?_place_of_locate finds (by rintro ⟨⟩)
        have there : (after.tree.get? place).isSome = true := by rw [file, Option.isSome_some]
        refine iff_of_false (not_logged_of_made free there (apart place finds)) ?_
        rintro (⟨stop, same⟩ | ⟨-, shut⟩)
        · cases same
        · exact closed shut
  · have moved : mid ≠ bench := by
      rintro rfl
      cases free.symm.trans folder
    have stays := layElement_keeps_folder element type name headerOnly (by rw [makes]; exact folder)
    rw [fails] at stays
    refine iff_of_false (not_logged_of_folder free stays) ?_
    rintro (⟨stop, same⟩ | ⟨same, -⟩)
    · exact moved (Prod.mk.inj same).2
    · exact moved (Prod.mk.inj same).2

/-- An addition that fails leaves everything but the log as it was exactly if it was refused before
anything was made. -/
theorem addElement_logged_iff {stop : Stop}
    (fails : outcome (addElement metadata type name headerOnly) bench = (.error stop, after))
    (unlinked : ∀ element, Element.ofWord? type = some element → ∀ place target,
      ¬bench.Finds (headerPath metadata element name) (.taken place (.link target)))
    (apart : ∀ element, Element.ofWord? type = some element → ∀ place,
      bench.Finds (headerPath metadata element name) (.free place) → ∀ location,
        Opens bench.tree bench.surroundings bench.surroundings.logFile location →
          location.place ≠ place) :
    Logged bench after ↔ IsRefused bench metadata type name := by
  cases known : Element.ofWord? type with
  | none =>
    rw [outcome_addElement_of_unknown known] at fails
    obtain ⟨-, rfl⟩ := Prod.mk.inj fails
    exact iff_of_true (.refl bench) (.unknown known)
  | some element =>
    cases present : isPresent bench metadata element name with
    | true =>
      rw [outcome_addElement_of_present known present] at fails
      obtain ⟨-, rfl⟩ := Prod.mk.inj fails
      exact iff_of_true (.refl bench) (.present element known present)
    | false =>
      rw [outcome_addElement_of_absent known present] at fails
      exact layElement_logged_iff known present fails (unlinked element known) (apart element known)

end Addition

def scriptlessBench : Bench where
  tree := ⟨[([], .folder), (["W"], .folder), (["W", "src"], .folder), (["L"], .folder)], by decide⟩
  surroundings := {}

def scriptlessApp : Metadata := ⟨"App", "/W", .consoleApp, .debug⟩

def scriptlessAddition : Work (List String) := addElement scriptlessApp "class" "Foo" false

theorem scriptlessAddition_fails : ∃ stop,
    outcome scriptlessAddition scriptlessBench = (.error stop, (outcome scriptlessAddition scriptlessBench).2) :=
  exists_error_of_toOption (by decide +kernel)

theorem finds_header : scriptlessBench.Finds "/W/src/Foo.h" (.free ["W", "src", "Foo.h"]) :=
  toOption_eq_some_iff.1 (by decide)

theorem opens_log {location : FileTree.Location} (opens : Opens scriptlessBench.tree
    scriptlessBench.surroundings scriptlessBench.surroundings.logFile location) :
    location.place ≠ ["W", "src", "Foo.h"] := by
  have leads : Leads scriptlessBench.tree scriptlessBench.surroundings scriptlessBench.surroundings.logFile
      (.free ["L", "jucebuilder_20240102_030405.log"]) :=
    ⟨by decide, toOption_eq_some_iff.1 (by decide)⟩
  obtain rfl := opens.toLeads.unique leads
  decide

theorem headerPath_of_class {element : Element} (known : Element.ofWord? "class" = some element) :
    headerPath scriptlessApp element "Foo" = "/W/src/Foo.h" := by
  have plain : Element.ofWord? "class" = some .plainClass := by decide
  obtain rfl := Option.some.inj (known.symm.trans plain)
  decide

theorem addElement_logged_iff_scriptless : ∃ stop,
    outcome scriptlessAddition scriptlessBench = (.error stop, (outcome scriptlessAddition scriptlessBench).2) ∧
      (Logged scriptlessBench (outcome scriptlessAddition scriptlessBench).2 ↔
        IsRefused scriptlessBench scriptlessApp "class" "Foo") := by
  obtain ⟨stop, fails⟩ := scriptlessAddition_fails
  refine ⟨stop, fails, addElement_logged_iff fails ?_ ?_⟩
  · intro element known place target linked
    rw [headerPath_of_class known] at linked
    cases finds_header.symm.trans linked
  · intro element known place finds location opens
    rw [headerPath_of_class known] at finds
    cases finds_header.symm.trans finds
    exact opens_log opens

/-- The script cannot be read after the header and the source were written. Both stay, and because of
them the same addition is refused from then on. -/
theorem addElement_not_logged_of_scriptless : ∃ stop after,
    outcome scriptlessAddition scriptlessBench = (.error stop, after) ∧ ¬Logged scriptlessBench after ∧
      outcome scriptlessAddition after = (.error (.fault (.elementExists "class" "Foo")), after) := by
  obtain ⟨stop, fails⟩ := scriptlessAddition_fails
  refine ⟨stop, _, fails, ?_, ?_⟩
  · refine not_logged_of_made ?_ (by decide +kernel) fun location => opens_log
    exact FileTree.get?_place_of_locate finds_header (by rintro ⟨⟩)
  · exact outcome_addElement_of_present (show Element.ofWord? "class" = some .plainClass by decide)
      (by decide +kernel)

end JuceWorkbench.Scaffold
