import JuceWorkbench.Proofs.Bench.Removal
import JuceWorkbench.Proofs.SideFile.Acceptance
import JuceWorkbench.Proofs.SideFile.Loading

/-! Loading the metadata of a project, and loading them again. They come from the tables that were
loaded. As long as the path of the side file leads where it led, the same tables are loaded; once there
is no side file any more, the name of the folder has to stand in for what it held. -/

namespace JuceWorkbench.SideFile
open Project Work

variable {bench mid after : Bench} {folder root : String} {entries : Entries} {metadata : Metadata}

theorem root_of_metadata {here : String} {entries : Entries} {given : Option Datum}
    (rooted : Path.isAbsolute here = true)
    (loads : SideFile.metadata here (Path.absolute here folder) entries given = .ok metadata) :
    metadata.root = Path.absolute here folder := by
  obtain ⟨-, project, type, -, -, -, -, whole⟩ := metadata_cases loads
  rw [whole]
  exact Path.absolute_absolute rooted folder

theorem logged_of_load {result : Except Stop Entries} (ends : outcome (load folder) bench = (result, after)) :
    Logged bench after := by
  have kept := keeps_load (fun message _ => Keeps.log .trans message) folder bench (Logged.refl bench)
  rw [ends] at kept
  exact kept.1

theorem keeps_loadMetadata {kept : Bench → Prop} (logs : ∀ message, Keeps kept (Work.log message))
    (folder : String) (given : Option Datum) : Keeps kept (loadMetadata folder given) :=
  Keeps.bind (.of_unchanged (outcome_absolute folder)) fun root =>
    Keeps.bind (keeps_load (fun message _ => logs message) root) fun _ =>
      Keeps.bind (.of_unchanged outcome_here) fun _ => Yields.ofExcept fun _ _ => trivial

theorem exists_load {given : Option Datum}
    (ends : outcome (loadMetadata folder given) bench = (.ok metadata, after)) :
    Logged bench after ∧ ∃ entries,
      outcome (load (Path.absolute bench.surroundings.here folder)) bench = (.ok entries, after) ∧
      SideFile.metadata bench.surroundings.here (Path.absolute bench.surroundings.here folder) entries given =
        .ok metadata := by
  rcases loads : outcome (load (Path.absolute bench.surroundings.here folder)) bench with ⟨stop | entries, mid⟩
  · unfold loadMetadata at ends
    rw [outcome_bind_ok (outcome_absolute folder bench), outcome_bind_error loads] at ends
    cases ends
  · have logged := logged_of_load loads
    rw [outcome_loadMetadata_of_load loads, logged.surroundings] at ends
    cases made : SideFile.metadata bench.surroundings.here (Path.absolute bench.surroundings.here folder)
        entries given with
    | error fault =>
      rw [made] at ends
      cases ends
    | ok found =>
      rw [made] at ends
      cases ends
      exact ⟨logged, entries, rfl, made⟩

theorem yields_root {kept : Bench → Prop} (logs : ∀ message, Keeps kept (Work.log message))
    (same : ∀ {later}, kept later → later.surroundings = bench.surroundings)
    (rooted : Path.isAbsolute bench.surroundings.here = true) (folder : String) :
    Yields kept (loadMetadata folder none) fun metadata =>
      metadata.root = Path.absolute bench.surroundings.here folder := by
  intro later holds
  refine ⟨(keeps_loadMetadata logs folder none later holds).1, fun metadata ends => ?_⟩
  rw [← toOption_eq_some_iff] at ends
  obtain ⟨-, entries, -, made⟩ := exists_load (eq_of_toOption ends)
  rw [same holds] at made
  exact root_of_metadata rooted made

theorem load_again (loads : outcome (load folder) bench = (.ok entries, mid))
    (shows : Shows (SideFile.path folder) bench after) (records : after.CanRecord)
    (there : after.tree.exists? after.surroundings.place (SideFile.path folder) = true) :
    ∃ last, outcome (load folder) after = (.ok entries, last) := by
  obtain ⟨place, node, led⟩ := FileTree.exists_locate there
  -- the path led there before, so the first loading tells what the second one will find
  have before := shows.taken led
  have same := shows.surroundings
  rcases answers_or_fails bench folder with answers | fails
  · cases answers with
    | absent free =>
      unfold FileTree.exists? FileTree.node? at free
      rw [before] at free
      cases free
    | read leads read again =>
      cases loads.symm.trans again
      cases before.symm.trans leads.leads
      exact ⟨_, load_of_read ⟨leads.named, led⟩ (same ▸ read)⟩
    | told stood because again =>
      cases loads.symm.trans again
      have still : ∃ trouble, Trouble after (SideFile.path folder) trouble := by
        cases because with
        | denied denied => exact ⟨_, .denied (same ▸ denied)⟩
        | folder reads leads =>
          cases before.symm.trans leads.leads
          exact ⟨_, .folder (same ▸ reads) ⟨leads.named, led⟩⟩
        | malformed reads leads decodes rejected =>
          cases before.symm.trans leads.leads
          exact ⟨_, .malformed (same ▸ reads) ⟨leads.named, led⟩ decodes (same ▸ rejected)⟩
      obtain ⟨trouble, because⟩ := still
      obtain ⟨advice, reports⟩ := load_of_trouble there because
      obtain ⟨last, ends, -⟩ := tells_of_canRecord records trouble advice ([] : Entries)
      exact ⟨last, reports.trans ends⟩
  · obtain ⟨fault, last, stops, -⟩ := fails.stops
    cases loads.symm.trans stops

theorem isAccepted_nil_iff : IsAccepted [] root ↔ Text.trim (Path.baseName root).toList ≠ [] := by
  have named : nameIn root [] = .text (Path.baseName root) := rfl
  constructor
  · rintro ⟨project, build, name, type, describes⟩
    obtain rfl : [] = project := Except.ok.inj describes.projectTable
    obtain ⟨same, filled⟩ := Metadata.name?_eq_some_iff.1 (named ▸ describes.named)
    cases same
    exact filled
  · intro filled
    have accepted := Metadata.name?_eq_some_iff.2 ⟨congrArg Raw.datum named, filled⟩
    exact ⟨[], [], Path.baseName root, .debug, rfl, rfl, rfl, accepted, rfl⟩

/-- A project whose side file may have got lost can be loaded again unless nothing gives it a name. -/
theorem exists_loadMetadata_iff
    (loads : outcome (loadMetadata folder none) bench = (.ok metadata, mid))
    (shows : Shows (SideFile.path (Path.absolute bench.surroundings.here folder)) bench after)
    (records : after.CanRecord) :
    (∃ metadata last, outcome (loadMetadata folder none) after = (.ok metadata, last)) ↔
      Text.trim (Path.baseName (Path.absolute bench.surroundings.here folder)).toList ≠ [] ∨
        after.tree.exists? after.surroundings.place
          (SideFile.path (Path.absolute bench.surroundings.here folder)) = true := by
  obtain ⟨-, entries, loaded, made⟩ := exists_load loads
  cases there : after.tree.exists? after.surroundings.place
      (SideFile.path (Path.absolute bench.surroundings.here folder)) with
  | true =>
    obtain ⟨last, again⟩ := load_again loaded shows records there
    refine iff_of_true ⟨metadata, last, ?_⟩ (Or.inr rfl)
    rw [← shows.surroundings] at again made
    rw [outcome_loadMetadata_of_load again, (logged_of_load again).surroundings, made]
    rfl
  | false =>
    have again := load_of_absent there
    rw [or_iff_left Bool.false_ne_true, ← isAccepted_nil_iff, isAccepted_iff after.surroundings.here]
    rw [← shows.surroundings] at again ⊢
    constructor
    · rintro ⟨metadata, last, ends⟩
      obtain ⟨-, entries, loaded, made⟩ := exists_load ends
      cases loaded.symm.trans again
      exact ⟨metadata, made⟩
    · rintro ⟨metadata, made⟩
      rw [outcome_loadMetadata_of_load again, made]
      exact ⟨metadata, after, rfl⟩

end JuceWorkbench.SideFile
