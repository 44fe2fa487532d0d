import Mathlib.Data.List.Induction
import JuceWorkbench.CommandLine.Run
import JuceWorkbench.Proofs.CommandLine.Guard
import JuceWorkbench.Proofs.Path.Normal
import JuceWorkbench.Proofs.SideFile.Acceptance
import JuceWorkbench.Proofs.SideFile.Remembering
import JuceWorkbench.Proofs.Text.Utf8

/-! Runs of settings. A setting that is carried out writes the side file, every other one only logs
why it was refused. So a project can be loaded all along a run exactly if no setting of the run that
is carried out spoils its tables. -/

namespace JuceWorkbench.SideFile
open Project CommandLine

/-- A side file stands where the folder is given as it is and where it is given in its absolute
form, and the log is written elsewhere. -/
structure HasFile (bench : Bench) (folder : String) (place : Place) (octets : List UInt8) (mode : Nat) :
    Prop extends Stands bench (path folder) place octets mode where
  again : Leads bench.tree bench.surroundings (path (Path.absolute bench.surroundings.here folder))
    (.taken place (.file octets mode))
  rooted : Path.isAbsolute bench.surroundings.here = true

def IsLoadable (folder : String) (bench : Bench) : Prop :=
  ∃ metadata, (Work.outcome (loadMetadata folder none) bench).1 = .ok metadata

def tables (bench : Bench) (folder : String) : Entries :=
  match bench.tree.node? bench.surroundings.place (path folder) with
  | some (.file octets _) => loaded bench.surroundings (path folder) octets
  | _ => []

/-- A setting that is carried out, and the tables it writes. -/
structure CarriesOut (bench : Bench) (folder key value : String) (new : Entries) : Prop where
  filled : tables bench folder ≠ []
  allowed : ∀ values, allowedValues key = some values → value ∈ values
  done : set (keyParts key) (.text value) (tables bench folder) = .ok new
  writes : bench.surroundings.canWrite (path folder) = true

def afterSetting (folder : String) (bench : Bench) (setting : String × String) : Bench :=
  (Work.outcome (lastResort (perform folder (.set setting.1 setting.2))) bench).2

def afterSettings (folder : String) (bench : Bench) (settings : List (String × String)) : Bench :=
  settings.foldl (afterSetting folder) bench

section HasFile

variable {bench after : Bench} {folder : String} {place : Place} {octets : List UInt8} {mode : Nat}

theorem canRead_path_absolute {surroundings : Surroundings}
    (rooted : Path.isAbsolute surroundings.here = true) (folder : String) :
    surroundings.canRead (path (Path.absolute surroundings.here folder)) =
      surroundings.canRead (path folder) := by
  unfold Surroundings.canRead path
  rw [Path.absolute_join_absolute rooted]

theorem HasFile.logged (has : HasFile bench folder place octets mode) (logged : Logged bench after) :
    HasFile after folder place octets mode := by
  have again : Stands bench _ place octets mode := ⟨has.again, has.apart⟩
  refine ⟨logged.stands has.toStands, ?_, ?_⟩
  · have still := (logged.stands again).toLeads
    rwa [logged.surroundings] at still ⊢
  · rw [logged.surroundings]
    exact has.rooted

theorem stands_write {file : String} (stands : Stands bench file place octets mode) (new : List UInt8) :
    Stands (bench.write (.taken place (.file octets mode)) new) file place new mode := by
  have stood : bench.tree.get? place = some (.file octets mode) :=
    FileTree.get?_place_of_locate stands.leads (by rintro ⟨⟩)
  have takes := FileTree.takesFile_of_locate stands.leads rfl
  refine ⟨⟨stands.named, ?_⟩, ?_⟩
  · exact (FileTree.locate_put stands.leads takes new mode).trans
      (congrArg Except.ok (FileTree.Location.after_self rfl rfl _))
  · intro location leads
    have moved := leads.leads
    change (bench.tree.put place (.file new mode)).locate true bench.surroundings.place
      bench.surroundings.logFile = _ at moved
    rw [FileTree.locate_rewritten stood] at moved
    cases before : bench.tree.locate true bench.surroundings.place bench.surroundings.logFile with
    | error reason =>
      rw [before] at moved
      cases moved
    | ok old =>
      rw [before] at moved
      cases moved
      rw [FileTree.Location.place_rewritten]
      exact stands.apart old ⟨leads.named, before⟩

theorem HasFile.write (has : HasFile bench folder place octets mode) (new : List UInt8) :
    HasFile (bench.write (.taken place (.file octets mode)) new) folder place new mode :=
  have again : Stands bench _ place octets mode := ⟨has.again, has.apart⟩
  ⟨stands_write has.toStands new, (stands_write again new).toLeads, has.rooted⟩

theorem tables_of_leads
    (leads : Leads bench.tree bench.surroundings (path folder) (.taken place (.file octets mode))) :
    tables bench folder = loaded bench.surroundings (path folder) octets := by
  unfold tables FileTree.node?
  rw [leads.leads]

theorem HasFile.tables_eq (has : HasFile bench folder place octets mode) :
    tables bench folder = loaded bench.surroundings (path folder) octets :=
  tables_of_leads has.toLeads

theorem IsRead.of_canRead {surroundings : Surroundings} {file other : String} {entries : Entries}
    (read : IsRead surroundings file octets entries)
    (same : surroundings.canRead other = surroundings.canRead file) :
    IsRead surroundings other octets entries :=
  ⟨same.trans read.reads, read.tables⟩

theorem CountsEmpty.of_canRead {surroundings : Surroundings} {file other : String}
    (empty : CountsEmpty surroundings file octets)
    (same : surroundings.canRead other = surroundings.canRead file) :
    CountsEmpty surroundings other octets := by
  cases empty with
  | denied denied => exact .denied (same.trans denied)
  | malformed text report reads decodes rejected =>
    exact .malformed text report (same.trans reads) decodes rejected

theorem load_of_empty
    (leads : Leads bench.tree bench.surroundings (path folder) (.taken place (.file octets mode)))
    (empty : CountsEmpty bench.surroundings (path folder) octets) :
    ∃ trouble advice, Work.outcome (load folder) bench =
      Work.outcome (reported trouble advice []) bench := by
  rcases load_cases leads with ⟨entries, read, -⟩ | ⟨-, loads⟩ | ⟨filled, -⟩
  · exact absurd read (empty.not_read entries)
  · exact loads
  · exact absurd empty filled

theorem loadMetadata_of_load {entries : Entries}
    (loads : Work.outcome (load (Path.absolute bench.surroundings.here folder)) bench =
      (.ok entries, after)) (same : after.surroundings = bench.surroundings) :
    (Work.outcome (loadMetadata folder none) bench).1.toOption =
      (metadata bench.surroundings.here (Path.absolute bench.surroundings.here folder) entries
        none).toOption := by
  rw [outcome_loadMetadata_of_load loads, same]
  cases metadata bench.surroundings.here (Path.absolute bench.surroundings.here folder) entries none <;> rfl

theorem not_isLoadable_of_load {stop : Stop}
    (stops : Work.outcome (load (Path.absolute bench.surroundings.here folder)) bench =
      (.error stop, after)) : ¬IsLoadable folder bench := by
  have ends : Work.outcome (loadMetadata folder none) bench = (.error stop, after) :=
    (Work.outcome_bind_ok (Work.outcome_absolute folder bench) _).trans
      (Work.outcome_bind_error stops _)
  rintro ⟨metadata, done⟩
  rw [ends] at done
  cases done

/-- A side file that counts as empty is loaded all the same, if it can be reported. -/
theorem isLoadable_iff (has : HasFile bench folder place octets mode) :
    IsLoadable folder bench ↔
      (∃ entries, IsRead bench.surroundings (path folder) octets entries ∧
        IsAccepted entries (Path.absolute bench.surroundings.here folder)) ∨
      CountsEmpty bench.surroundings (path folder) octets ∧ bench.CanRecord ∧
        IsAccepted [] (Path.absolute bench.surroundings.here folder) := by
  have same := canRead_path_absolute has.rooted folder
  have toOption : ∀ {entries : Entries} {after : Bench}, after.surroundings = bench.surroundings →
      Work.outcome (load (Path.absolute bench.surroundings.here folder)) bench = (.ok entries, after) →
      (IsLoadable folder bench ↔
        IsAccepted entries (Path.absolute bench.surroundings.here folder)) := by
    intro entries after still loads
    have equal := loadMetadata_of_load loads still
    rw [isAccepted_iff bench.surroundings.here]
    unfold IsLoadable
    simp only [← toOption_eq_some_iff, equal]
  -- the file is read, counts as empty, or stops the loading
  by_cases read : ∃ entries, IsRead bench.surroundings (path folder) octets entries
  · obtain ⟨entries, read⟩ := read
    rw [toOption rfl (load_of_read has.again (read.of_canRead same))]
    constructor
    · exact fun accepted => Or.inl ⟨entries, read, accepted⟩
    · rintro (⟨other, again, accepted⟩ | ⟨empty, -⟩)
      · cases read.tables.symm.trans again.tables
        exact accepted
      · exact absurd read (empty.not_read entries)
  · by_cases empty : CountsEmpty bench.surroundings (path folder) octets
    · obtain ⟨trouble, advice, loads⟩ := load_of_empty has.again (empty.of_canRead same)
      by_cases records : bench.CanRecord
      · obtain ⟨after, ends, logged⟩ := reported_of_canRecord records trouble advice ([] : Entries)
        rw [toOption logged.surroundings (loads.trans ends)]
        constructor
        · exact fun accepted => Or.inr ⟨empty, records, accepted⟩
        · rintro (⟨entries, again, -⟩ | ⟨-, -, accepted⟩)
          · exact absurd ⟨entries, again⟩ read
          · exact accepted
      · obtain ⟨fault, after, stops, -⟩ :=
          reported_of_not_canRecord records trouble advice ([] : Entries)
        refine iff_of_false (not_isLoadable_of_load (loads.trans stops)) ?_
        rintro (⟨entries, again, -⟩ | ⟨-, recorded, -⟩)
        · exact read ⟨entries, again⟩
        · exact records recorded
    · refine iff_of_false ?_ ?_
      · rcases load_cases has.again with ⟨entries, again, -⟩ | ⟨again, -⟩ | ⟨-, fault, after, stops, -⟩
        · exact absurd ⟨entries, again.of_canRead same.symm⟩ read
        · exact absurd (again.of_canRead same.symm) empty
        · exact not_isLoadable_of_load stops
      · rintro (⟨entries, again, -⟩ | ⟨again, -⟩)
        · exact read ⟨entries, again⟩
        · exact empty again

/-! One setting. -/

def setAmong (folder key value : String) (entries : Entries) : Work Unit :=
  match (allowedValues key).filter fun allowed => !allowed.contains value with
  | some allowed =>
    Work.error ("Error: Invalid value '" ++ value ++ "' for '" ++ key ++
      "'. Expected one of: " ++ commaList allowed ++ ".")
  | none => do
    let entries ← Work.ofExcept (SideFile.set (keyParts key) (.text value) entries)
    if ← SideFile.save entries folder then
      Work.info ("Set '" ++ key ++ "' to '" ++ value ++ "'")

theorem outcome_loadOrReport_of_filled {entries : Entries} (filled : entries ≠ [])
    (loads : Work.outcome (load folder) bench = (.ok entries, bench)) :
    Work.outcome (loadOrReport folder) bench = (.ok (some entries), bench) := by
  have given : ¬entries.isEmpty = true := by simpa using filled
  unfold loadOrReport
  rw [Work.outcome_bind_ok loads, if_neg given]
  rfl

theorem outcome_setValue_of_filled {entries : Entries} (filled : entries ≠ [])
    (loads : Work.outcome (load folder) bench = (.ok entries, bench)) (key value : String) :
    Work.outcome (setValue folder key value) bench =
      Work.outcome (setAmong folder key value entries) bench := by
  unfold setValue
  rw [Work.outcome_bind_ok (outcome_loadOrReport_of_filled filled loads)]
  rfl

theorem kept_setValue_of_empty {kept : Bench → Prop}
    (logs : ∀ message, Work.Complains message → Work.Keeps kept (Work.log message))
    {result : Except Stop Entries} (loads : Work.outcome (load folder) bench = (result, after))
    (holds : kept after) (empty : ∀ entries, result = .ok entries → entries = []) (key value : String) :
    kept (Work.outcome (setValue folder key value) bench).2 := by
  unfold setValue loadOrReport
  cases result with
  | error stop =>
    rw [Work.outcome_bind_error (Work.outcome_bind_error loads _)]
    exact holds
  | ok entries =>
    obtain rfl := empty entries rfl
    have reports : Work.Yields kept (do
        Work.error "Error: No jucebuilder.toml found. Please run 'jucebuilder new' first."
        return none : Work (Option Entries)) (· = none) :=
      Work.Keeps.bind (logs _ (.trouble _ rfl)) fun _ => .pure rfl
    obtain ⟨still, none⟩ := reports after holds
    rw [Work.outcome_bind, Work.outcome_bind_ok loads]
    dsimp only [List.isEmpty_nil]
    rw [if_pos rfl]
    split
    · rename_i found last ends
      rw [ends] at still none
      rw [none found rfl]
      exact still
    · rename_i stop last ends
      rw [ends] at still
      exact still

theorem outcome_setAmong_of_done {entries new : Entries} {key value : String}
    (allowed : ((allowedValues key).filter fun allowed => !allowed.contains value) = none)
    (done : SideFile.set (keyParts key) (.text value) entries = .ok new) (bench : Bench) :
    Work.outcome (setAmong folder key value entries) bench =
      Work.outcome (save new folder >>= fun saved =>
        if saved then Work.info ("Set '" ++ key ++ "' to '" ++ value ++ "'") else pure ()) bench := by
  unfold setAmong
  rw [allowed, done]
  exact Work.outcome_bind_ok (Work.outcome_pure new bench) _

theorem loaded_of_unread {surroundings : Surroundings} {file : String}
    (unread : ∀ entries, ¬IsRead surroundings file octets entries) :
    loaded surroundings file octets = [] := by
  unfold loaded
  split
  · rename_i reads
    cases tables : tablesOf surroundings.format octets with
    | none => rfl
    | some entries => exact absurd ⟨reads, tables⟩ (unread entries)
  · rfl

theorem allowed_iff (key value : String) :
    ((allowedValues key).filter fun allowed => !allowed.contains value) = none ↔
      ∀ values, allowedValues key = some values → value ∈ values := by
  cases allowedValues key with
  | none => simp
  | some values => simp [Option.filter]

theorem kept_afterSetting_of_refused {kept : Bench → Prop}
    (logs : ∀ message, Work.Complains message → Work.Keeps kept (Work.log message)) (holds : kept bench)
    {key value : String}
    (refused : ∀ place octets mode new,
      Leads bench.tree bench.surroundings (path folder) (.taken place (.file octets mode)) →
        ¬CarriesOut bench folder key value new) :
    kept (afterSetting folder bench (key, value)) := by
  refine kept_lastResort_of_complains logs ?_
  change kept (Work.outcome (setValue folder key value) bench).2
  rcases load_ends bench folder with ⟨place, octets, mode, entries, leads, read, loads⟩ | ⟨result, after, loads, empty⟩
  · by_cases filled : entries = []
    · exact kept_setValue_of_empty logs loads holds
        (fun other same => (Except.ok.inj same).symm.trans filled) key value
    · rw [outcome_setValue_of_filled filled loads]
      have held : tables bench folder = entries := (tables_of_leads leads).trans (loaded_of_read read)
      cases allowed : (allowedValues key).filter fun allowed => !allowed.contains value with
      | some words =>
        unfold setAmong
        rw [allowed]
        exact (logs _ (.trouble _ rfl) bench holds).1
      | none =>
        cases done : SideFile.set (keyParts key) (.text value) entries with
        | error fault =>
          unfold setAmong
          rw [allowed, done]
          exact holds
        | ok new =>
          have closed : ∀ location, ¬Opens bench.tree bench.surroundings (path folder) location := by
            refine fun location opens => refused place octets mode new leads
              ⟨?_, (allowed_iff key value).1 allowed, ?_, opens.writes⟩
            · rwa [held]
            · rwa [held]
          obtain ⟨still, unsaved⟩ := refuses_save logs holds closed new
          rw [outcome_setAmong_of_done allowed done]
          refine Work.kept_bind_of_value (fun saved ends => ?_) still
          rw [unsaved saved ends]
          exact Work.Keeps.pure ()
  · have still := (keeps_load logs folder bench holds).1
    rw [loads] at still
    exact kept_setValue_of_empty logs loads still empty key value

theorem CarriesOut.isRead
    (leads : Leads bench.tree bench.surroundings (path folder) (.taken place (.file octets mode)))
    {key value : String} {new : Entries} (carries : CarriesOut bench folder key value new) :
    IsRead bench.surroundings (path folder) octets (tables bench folder) := by
  refine Classical.byContradiction fun unread => carries.filled ?_
  rw [tables_of_leads leads] at unread ⊢
  refine loaded_of_unread fun entries read => unread ?_
  rwa [loaded_of_read read]

theorem afterSetting_of_carriesOut
    (leads : Leads bench.tree bench.surroundings (path folder) (.taken place (.file octets mode)))
    {key value : String} {new : Entries} (carries : CarriesOut bench folder key value new) {text : String}
    (printed : bench.surroundings.format.write new = .ok text) : afterSetting folder bench (key, value) =
      (Work.outcome (lastResort (Work.info ("Set '" ++ key ++ "' to '" ++ value ++ "'")))
        (bench.write (.taken place (.file octets mode)) (Text.Utf8.encode text.toList))).2 := by
  have opens : Opens _ _ _ _ := ⟨leads, carries.writes, rfl⟩
  have sets : Work.outcome (setValue folder key value) bench =
      Work.outcome (Work.info ("Set '" ++ key ++ "' to '" ++ value ++ "'"))
        (bench.write (.taken place (.file octets mode)) (Text.Utf8.encode text.toList)) := by
    rw [outcome_setValue_of_filled carries.filled (load_of_read leads (carries.isRead leads)),
      outcome_setAmong_of_done ((allowed_iff key value).2 carries.allowed) carries.done,
      Work.outcome_bind_ok (save_of_opens opens printed), if_pos rfl]
  exact congrArg Prod.snd (outcome_lastResort_congr sets)

theorem logged_of_not_carriesOut {key value : String}
    (refused : ∀ new, ¬CarriesOut bench folder key value new) :
    Logged bench (afterSetting folder bench (key, value)) :=
  kept_afterSetting_of_refused (fun message _ => Work.Keeps.log .trans message) (Logged.refl bench)
    fun _ _ _ new _ => refused new

theorem logged_of_carriesOut
    (leads : Leads bench.tree bench.surroundings (path folder) (.taken place (.file octets mode)))
    {key value : String} {new : Entries} (carries : CarriesOut bench folder key value new) {text : String}
    (printed : bench.surroundings.format.write new = .ok text) :
    Logged (bench.write (.taken place (.file octets mode)) (Text.Utf8.encode text.toList))
      (afterSetting folder bench (key, value)) := by
  rw [afterSetting_of_carriesOut leads carries printed]
  exact kept_lastResort (Work.Keeps.log .trans) (Work.Keeps.log .trans _ _ (Logged.refl _)).1

theorem isLoadable_iff_of_read (has : HasFile bench folder place octets mode) {entries : Entries}
    (read : IsRead bench.surroundings (path folder) octets entries) :
    IsLoadable folder bench ↔
      IsAccepted entries (Path.absolute bench.surroundings.here folder) := by
  rw [isLoadable_iff has]
  constructor
  · rintro (⟨other, again, accepted⟩ | ⟨empty, -⟩)
    · cases read.tables.symm.trans again.tables
      exact accepted
    · exact absurd read (empty.not_read entries)
  · exact fun accepted => Or.inl ⟨entries, read, accepted⟩

theorem IsLoadable.logged (has : HasFile bench folder place octets mode)
    (loads : IsLoadable folder bench) (logged : Logged bench after) : IsLoadable folder after := by
  rw [isLoadable_iff has] at loads
  rw [isLoadable_iff (has.logged logged), logged.surroundings]
  rcases loads with read | ⟨empty, records, accepted⟩
  · exact Or.inl read
  · exact Or.inr ⟨empty, logged.canRecord records, accepted⟩

/-- One setting leaves the project loadable unless it is carried out and spoils the tables. -/
theorem isLoadable_afterSetting_iff (has : HasFile bench folder place octets mode)
    (loads : IsLoadable folder bench) {key value : String}
    (readsBack : ∀ new, CarriesOut bench folder key value new → ReadsBack bench.surroundings.format new) :
    IsLoadable folder (afterSetting folder bench (key, value)) ↔
      ∀ new, CarriesOut bench folder key value new →
        ¬Spoils (Path.absolute bench.surroundings.here folder) (keyParts key) value := by
  by_cases carried : ∃ new, CarriesOut bench folder key value new
  · obtain ⟨new, carries⟩ := carried
    obtain ⟨text, back, printed, read, alike⟩ := readsBack new carries
    have logged := logged_of_carriesOut has.toLeads carries printed
    have still := (has.write (Text.Utf8.encode text.toList)).logged logged
    have reads : IsRead (afterSetting folder bench (key, value)).surroundings (path folder)
        (Text.Utf8.encode text.toList) back := by
      rw [logged.surroundings]
      exact ⟨(carries.isRead has.toLeads).reads, read⟩
    have same : (afterSetting folder bench (key, value)).surroundings = bench.surroundings :=
      logged.surroundings
    rw [isLoadable_iff_of_read has (carries.isRead has.toLeads)] at loads
    rw [isLoadable_iff_of_read still reads, same, ← isAccepted_alike_iff alike,
      isAccepted_set_iff loads carries.done]
    exact ⟨fun sound _ _ => sound, fun sound => sound new carries⟩
  · have refused := not_exists.1 carried
    have logged := logged_of_not_carriesOut refused
    exact iff_of_true (loads.logged has logged) fun new carries => absurd carries (refused new)

theorem HasFile.setting (has : HasFile bench folder place octets mode) (setting : String × String)
    (readsBack : ∀ new, CarriesOut bench folder setting.1 setting.2 new →
      ReadsBack bench.surroundings.format new) :
    (afterSetting folder bench setting).surroundings = bench.surroundings ∧
      ∃ contents, HasFile (afterSetting folder bench setting) folder place contents mode := by
  by_cases carried : ∃ new, CarriesOut bench folder setting.1 setting.2 new
  · obtain ⟨new, carries⟩ := carried
    obtain ⟨text, back, printed, -, -⟩ := readsBack new carries
    have logged := logged_of_carriesOut has.toLeads carries printed
    exact ⟨logged.surroundings, _, (has.write _).logged logged⟩
  · have logged := logged_of_not_carriesOut (not_exists.1 carried)
    exact ⟨logged.surroundings, octets, has.logged logged⟩

end HasFile

/-! Runs of settings. -/

section Run

variable {bench : Bench} {folder : String} {place : Place} {octets : List UInt8} {mode : Nat}
  {settings : List (String × String)}

theorem afterSettings_concat (done : List (String × String)) (setting : String × String) :
    afterSettings folder bench (done ++ [setting]) =
      afterSetting folder (afterSettings folder bench done) setting := by
  unfold afterSettings
  rw [List.foldl_append]
  rfl

theorem HasFile.run (has : HasFile bench folder place octets mode)
    (readsBack : ∀ done setting new, done ++ [setting] <+: settings →
      CarriesOut (afterSettings folder bench done) folder setting.1 setting.2 new →
        ReadsBack bench.surroundings.format new)
    {done : List (String × String)} (front : done <+: settings) :
    (afterSettings folder bench done).surroundings = bench.surroundings ∧
      ∃ contents, HasFile (afterSettings folder bench done) folder place contents mode := by
  induction done using List.reverseRecOn with
  | nil => exact ⟨rfl, octets, has⟩
  | append_singleton done setting ih =>
    obtain ⟨same, contents, still⟩ := ih ((List.prefix_append done [setting]).trans front)
    obtain ⟨next, more⟩ := still.setting setting fun new => same ▸ readsBack done setting new front
    rw [afterSettings_concat]
    exact ⟨next.trans same, more⟩

/-- A project can be loaded all along a run of settings exactly if no setting that is carried out
spoils its tables. -/
theorem isLoadable_run_iff (has : HasFile bench folder place octets mode)
    (loads : IsLoadable folder bench)
    (readsBack : ∀ done setting new, done ++ [setting] <+: settings →
      CarriesOut (afterSettings folder bench done) folder setting.1 setting.2 new →
        ReadsBack bench.surroundings.format new) :
    (∀ done, done <+: settings → IsLoadable folder (afterSettings folder bench done)) ↔
      ∀ done setting new, done ++ [setting] <+: settings →
        CarriesOut (afterSettings folder bench done) folder setting.1 setting.2 new →
        ¬Spoils (Path.absolute bench.surroundings.here folder) (keyParts setting.1) setting.2 := by
  have step : ∀ done setting, done ++ [setting] <+: settings →
      IsLoadable folder (afterSettings folder bench done) →
      (IsLoadable folder (afterSettings folder bench (done ++ [setting])) ↔
        ∀ new, CarriesOut (afterSettings folder bench done) folder setting.1 setting.2 new →
          ¬Spoils (Path.absolute bench.surroundings.here folder) (keyParts setting.1) setting.2) := by
    intro done setting front before
    obtain ⟨same, contents, still⟩ :=
      has.run readsBack ((List.prefix_append done [setting]).trans front)
    rw [afterSettings_concat, isLoadable_afterSetting_iff still before fun new =>
      same ▸ readsBack done setting new front, same]
  constructor
  · intro always done setting new front
    exact (step done setting front (always done ((List.prefix_append done [setting]).trans front))).1
      (always _ front) new
  · intro sound done front
    induction done using List.reverseRecOn with
    | nil => exact loads
    | append_singleton done setting ih =>
      refine (step done setting front (ih ((List.prefix_append done [setting]).trans front))).2 ?_
      exact fun new => sound done setting new front

end Run

/-! A side file with nothing but its version, and the folder the bench stands in. -/

theorem leads_project (octets : List UInt8) :
    Leads (projectBench octets).tree {} (path ".")
      (.taken ["W", "jucebuilder.toml"] (.file octets newFileMode)) where
  named := by decide
  leads := by
    have parts : FileTree.pathParts (path ".") = [".", "jucebuilder.toml"] := by decide
    have start : Surroundings.place {} = ["W"] := by decide
    unfold FileTree.locate
    rw [if_neg (by decide), if_neg (by decide), if_neg (by decide), parts, start,
      FileTree.locateFrom_skip (Or.inr rfl)]
    exact FileTree.locateFrom_file (isName_of_project _ (by decide)) octets newFileMode rfl

theorem hasFile_project (octets : List UInt8) :
    HasFile (projectBench octets) "." ["W", "jucebuilder.toml"] octets newFileMode where
  toLeads := leads_project octets
  apart := (stands_project octets).apart
  again := by
    have whole : path (Path.absolute "/W" ".") = path "/W" := by decide
    change Leads _ _ (path (Path.absolute "/W" ".")) _
    rw [whole]
    exact (stands_project octets).toLeads
  rooted := by
    change Path.isAbsolute "/W" = true
    decide

def versionText : String := "config_version = 1\n"

def versionEntries : Entries := [("config_version", .integer 1)]

theorem isRead_version : IsRead {} (path ".") (Text.Utf8.encode versionText.toList) versionEntries where
  reads := by decide
  tables := by
    have read : Toml.read versionText.toList = .ok versionEntries := by with_unfolding_all rfl
    exact tablesOf_encode (by decide) read

def versionBench : Bench := projectBench (Text.Utf8.encode versionText.toList)

theorem tables_versionBench : tables versionBench "." = versionEntries :=
  (hasFile_project _).tables_eq.trans (loaded_of_read isRead_version)

theorem isLoadable_versionBench : IsLoadable "." versionBench := by
  refine (isLoadable_iff_of_read (hasFile_project _) isRead_version).2
    ⟨[], [], "W", .debug, by decide, rfl, rfl, by decide, by decide⟩

theorem carriesOut_versionBench {key value : String} {new : Entries}
    (allowed : allowedValues key = none)
    (done : set (keyParts key) (.text value) versionEntries = .ok new) :
    CarriesOut versionBench "." key value new where
  filled := by
    rw [tables_versionBench]
    exact List.cons_ne_nil _ _
  allowed := by
    rw [allowed]
    rintro values ⟨⟩
  done := by rwa [tables_versionBench]
  writes := by decide

theorem eq_of_carriesOut {key value : String} {new other : Entries}
    (carries : CarriesOut versionBench "." key value new)
    (done : set (keyParts key) (.text value) versionEntries = .ok other) : new = other := by
  have set := carries.done
  rw [tables_versionBench, done] at set
  exact (Except.ok.inj set).symm

theorem set_name : set (keyParts "project.name") (.text "App") versionEntries =
    .ok (versionEntries ++ [("project", .table [("name", .text "App")])]) := by
  have parts : keyParts "project.name" = ["project", "name"] := by decide
  rw [parts]
  rfl

theorem set_version : set (keyParts "config_version") (.text "1") versionEntries =
    .ok [("config_version", .text "1")] := by
  have parts : keyParts "config_version" = ["config_version"] := by decide
  rw [parts]
  rfl

theorem readsBack_name :
    ReadsBack Toml.format (versionEntries ++ [("project", .table [("name", .text "App")])]) := by
  decide +kernel

theorem eq_of_concat_prefix {done : List (String × String)} {setting only : String × String}
    (front : done ++ [setting] <+: [only]) : done = [] ∧ setting = only := by
  have short := front.length_le
  rw [List.length_append, List.length_singleton, List.length_singleton] at short
  obtain rfl : done = [] := List.length_eq_zero_iff.1 (by omega)
  obtain ⟨more, same⟩ := front
  exact ⟨rfl, (List.cons.inj same).1⟩

theorem isLoadable_run_iff_name :
    HasFile versionBench "." ["W", "jucebuilder.toml"] (Text.Utf8.encode versionText.toList) newFileMode ∧
      IsLoadable "." versionBench ∧
      ∀ done, done <+: [("project.name", "App")] →
        IsLoadable "." (afterSettings "." versionBench done) := by
  refine ⟨hasFile_project _, isLoadable_versionBench, ?_⟩
  refine (isLoadable_run_iff (hasFile_project _) isLoadable_versionBench ?_).2 ?_
  · intro done setting new front carries
    obtain ⟨rfl, rfl⟩ := eq_of_concat_prefix front
    rw [eq_of_carriesOut carries set_name]
    exact readsBack_name
  · intro done setting new front carries spoils
    obtain ⟨rfl, rfl⟩ := eq_of_concat_prefix front
    have blank := spoils.blank (by decide)
    have filled : Metadata.name? (.text "App") = some "App" := by decide
    cases filled.symm.trans blank

/-- The version becomes a text, and then it is not one that is known. -/
theorem not_isLoadable_of_version :
    HasFile versionBench "." ["W", "jucebuilder.toml"] (Text.Utf8.encode versionText.toList) newFileMode ∧
      IsLoadable "." versionBench ∧
      (∀ new, CarriesOut versionBench "." "config_version" "1" new → ReadsBack Toml.format new) ∧
      ¬IsLoadable "." (afterSettings "." versionBench [("config_version", "1")]) := by
  have carries := carriesOut_versionBench (by decide) set_version
  have readsBack : ∀ new, CarriesOut versionBench "." "config_version" "1" new →
      ReadsBack Toml.format new := by
    intro new again
    rw [eq_of_carriesOut again set_version]
    decide +kernel
  refine ⟨hasFile_project _, isLoadable_versionBench, readsBack, ?_⟩
  intro loads
  have sound := (isLoadable_afterSetting_iff (hasFile_project _) isLoadable_versionBench readsBack).1 loads
  refine sound _ carries ?_
  have parts : keyParts "config_version" = ["config_version"] := by decide
  rw [parts]
  exact .version [] "1"

end JuceWorkbench.SideFile
