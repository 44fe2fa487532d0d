import JuceWorkbench.Proofs.Bench.Changes
import JuceWorkbench.Proofs.SideFile.Entries
import JuceWorkbench.Proofs.Text.Utf8

/-! What loading makes of every state the side file can be in. A file that is missing counts as
empty, and so does one that cannot be opened or is no document, once the reason was logged. A file
that is not UTF-8 is not among them: it stops the work. -/

namespace JuceWorkbench.SideFile

def tablesOf (format : Format) (octets : List UInt8) : Option Entries :=
  match Text.Utf8.decode octets with
  | .ok text => (format.read (Text.unifyBreaks text)).toOption
  | .error _ => none

structure IsRead (surroundings : Surroundings) (file : String) (octets : List UInt8)
    (entries : Entries) : Prop where
  reads : surroundings.canRead file = true
  tables : tablesOf surroundings.format octets = some entries

/-- A file counts as empty: it cannot be read, or it is no document. -/
inductive CountsEmpty (surroundings : Surroundings) (file : String) (octets : List UInt8) : Prop
  | denied (denied : surroundings.canRead file = false)
  | malformed (text : List Char) (report : String) (reads : surroundings.canRead file = true)
      (decodes : Text.Utf8.decode octets = .ok text)
      (rejected : surroundings.format.read (Text.unifyBreaks text) = .error (.malformed report))

theorem tablesOf_of_read {format : Format} {octets : List UInt8} {text : List Char}
    {read : Except Rejection Entries} (decodes : Text.Utf8.decode octets = .ok text)
    (reads : format.read (Text.unifyBreaks text) = read) : tablesOf format octets = read.toOption := by
  unfold tablesOf
  rw [decodes]
  dsimp only
  rw [reads]

theorem tablesOf_eq_some_iff {format : Format} {octets : List UInt8} {entries : Entries} :
    tablesOf format octets = some entries ↔ ∃ text, Text.Utf8.decode octets = .ok text ∧
      format.read (Text.unifyBreaks text) = .ok entries := by
  constructor
  · intro tables
    unfold tablesOf at tables
    split at tables
    · rename_i text decodes
      exact ⟨text, decodes, toOption_eq_some_iff.1 tables⟩
    · cases tables
  · rintro ⟨text, decodes, reads⟩
    exact tablesOf_of_read decodes reads

theorem tablesOf_encode {format : Format} {text : String} {entries : Entries}
    (unified : Text.unifyBreaks text.toList = text.toList) (reads : format.read text.toList = .ok entries) :
    tablesOf format (Text.Utf8.encode text.toList) = some entries :=
  tablesOf_of_read (Text.Utf8.decode_encode text.toList) ((congrArg format.read unified).trans reads)

theorem CountsEmpty.not_read {surroundings : Surroundings} {file : String} {octets : List UInt8}
    (empty : CountsEmpty surroundings file octets) (entries : Entries) :
    ¬IsRead surroundings file octets entries := by
  intro read
  cases empty with
  | denied denied =>
    rw [read.reads] at denied
    cases denied
  | malformed text report reads decodes rejected =>
    have tables := read.tables
    rw [tablesOf_of_read decodes rejected] at tables
    cases tables

/-- Why a file that exists gives no tables, in the words of the log. -/
inductive Trouble (bench : Bench) (file : String) : String → Prop
  | denied (denied : bench.surroundings.canRead file = false) :
      Trouble bench file ("Error reading configuration file at " ++ file ++ ": " ++
        FileFault.message { reason := .denied, path := file })
  | folder (reads : bench.surroundings.canRead file = true) {place : Place}
      (leads : Leads bench.tree bench.surroundings file (.taken place .folder)) :
      Trouble bench file ("Error reading configuration file at " ++ file ++ ": " ++
        FileFault.message { reason := .isFolder, path := file })
  | malformed (reads : bench.surroundings.canRead file = true) {place : Place} {octets : List UInt8}
      {mode : Nat} (leads : Leads bench.tree bench.surroundings file (.taken place (.file octets mode)))
      {text : List Char} {report : String} (decodes : Text.Utf8.decode octets = .ok text)
      (rejected : bench.surroundings.format.read (Text.unifyBreaks text) = .error (.malformed report)) :
      Trouble bench file ("Error decoding TOML file at " ++ file ++ ": " ++ report)

/-- A trouble was logged as an error: on the stream of errors, and in the log file behind all that
stood there. -/
structure Tells (bench : Bench) (trouble : String) (after : Bench) : Prop where
  errors : after.errors = bench.errors ++
    Message.consoleLine bench.surroundings.now.time.text { level := .error, text := trouble }
  recorded : ∃ location more,
    Opens bench.tree bench.surroundings bench.surroundings.logFile location ∧
      after.tree = bench.tree.put location.place (.file (location.written.1 ++
        Text.Utf8.encode (Message.record bench.surroundings.now.time.text
          { level := .error, text := trouble }).toList ++ more) location.written.2)
  surroundings : after.surroundings = bench.surroundings

/-- Loading gives tables: none where nothing stands, those of a file that is read, and none with
the reason logged where a file or a folder stands that gives none. -/
inductive Answers (bench : Bench) (folder : String) : Prop
  | absent (free : bench.tree.exists? bench.surroundings.place (path folder) = false)
      (loads : Work.outcome (load folder) bench = (.ok [], bench))
  | read {place : Place} {octets : List UInt8} {mode : Nat} {entries : Entries}
      (leads : Leads bench.tree bench.surroundings (path folder) (.taken place (.file octets mode)))
      (read : IsRead bench.surroundings (path folder) octets entries)
      (loads : Work.outcome (load folder) bench = (.ok entries, bench))
  | told (there : bench.tree.exists? bench.surroundings.place (path folder) = true) {trouble : String}
      (because : Trouble bench (path folder) trouble) {after : Bench}
      (loads : Work.outcome (load folder) bench = (.ok [], after)) (tells : Tells bench trouble after)

/-- What loading does not answer: contents that are not UTF-8, a fault of the reader, a trouble that
cannot be recorded, and a path with a null character at which something stands. -/
inductive Fails (bench : Bench) (folder : String) : Prop
  | undecodable (reads : bench.surroundings.canRead (path folder) = true) {place : Place}
      {octets : List UInt8} {mode : Nat}
      (leads : Leads bench.tree bench.surroundings (path folder) (.taken place (.file octets mode)))
      {sequence : Text.Utf8.Malformed} (malformed : Text.Utf8.decode octets = .error sequence)
  | broken (reads : bench.surroundings.canRead (path folder) = true) {place : Place}
      {octets : List UInt8} {mode : Nat}
      (leads : Leads bench.tree bench.surroundings (path folder) (.taken place (.file octets mode)))
      {text : List Char} {fault : Fault} (decodes : Text.Utf8.decode octets = .ok text)
      (breaks : bench.surroundings.format.read (Text.unifyBreaks text) = .error (.broken fault))
  | unrecorded (there : bench.tree.exists? bench.surroundings.place (path folder) = true)
      {trouble : String} (because : Trouble bench (path folder) trouble) (unrecorded : ¬bench.CanRecord)
  | null (there : bench.tree.exists? bench.surroundings.place (path folder) = true)
      (reads : bench.surroundings.canRead (path folder) = true)
      (null : (path folder).toList.contains '\x00' = true)

def digest (format : Format) (file : String) : Except Fault (List Char) → Work Entries
  | .ok text =>
    match format.read text with
    | .ok entries => pure entries
    | .error (.malformed report) =>
      reported ("Error decoding TOML file at " ++ file ++ ": " ++ report)
        "Please check the file's format for syntax errors." []
    | .error (.broken fault) => Work.fail fault
  | .error fault =>
    if fault.kind.isFile then
      reported ("Error reading configuration file at " ++ file ++ ": " ++ fault.message)
        "Please check file permissions." []
    else Work.fail fault

section Loading

variable {bench after : Bench} {folder : String} {place : Place} {node : Node} {octets : List UInt8}
  {mode : Nat}

theorem exists_of_leads {path : String} (leads : Leads bench.tree bench.surroundings path (.taken place node)) :
    bench.tree.exists? bench.surroundings.place path = true := by
  unfold FileTree.exists? FileTree.node?
  rw [leads.leads]
  rfl

theorem load_of_absent (free : bench.tree.exists? bench.surroundings.place (path folder) = false) :
    Work.outcome (load folder) bench = (.ok [], bench) := by
  have missing : Work.outcome (Work.fileExists (path folder)) bench = (.ok false, bench) := by
    change (Except.ok (bench.tree.exists? bench.surroundings.place (path folder)), bench) = _
    rw [free]
  unfold load
  exact (Work.outcome_bind_ok (Work.outcome_surroundings bench) _).trans (Work.outcome_bind_ok missing _)

theorem outcome_load {result : Except Fault (List Char)}
    (there : bench.tree.exists? bench.surroundings.place (path folder) = true)
    (ends : Work.outcome (Work.attempt (Work.readText (path folder))) bench = (.ok result, bench)) :
    Work.outcome (load folder) bench =
      Work.outcome (digest bench.surroundings.format (path folder) result) bench := by
  have found : Work.outcome (Work.fileExists (path folder)) bench = (.ok true, bench) := by
    change (Except.ok (bench.tree.exists? bench.surroundings.place (path folder)), bench) = _
    rw [there]
  unfold load
  rw [Work.outcome_bind_ok (Work.outcome_surroundings bench)]
  exact (Work.outcome_bind_ok found _).trans (Work.outcome_bind_ok ends _)

theorem outcome_load_of_fault {fault : Fault}
    (there : bench.tree.exists? bench.surroundings.place (path folder) = true)
    (refused : Work.outcome (Work.readText (path folder)) bench = (.error (.fault fault), bench)) :
    Work.outcome (load folder) bench =
      Work.outcome (digest bench.surroundings.format (path folder) (.error fault)) bench :=
  outcome_load there (Work.outcome_attempt_of_fault refused)

theorem outcome_load_of_decoded {text : List Char}
    (leads : Leads bench.tree bench.surroundings (path folder) (.taken place (.file octets mode)))
    (reads : bench.surroundings.canRead (path folder) = true)
    (decodes : Text.Utf8.decode octets = .ok text) : Work.outcome (load folder) bench =
      Work.outcome (digest bench.surroundings.format (path folder) (.ok (Text.unifyBreaks text))) bench :=
  outcome_load (exists_of_leads leads)
    (Work.outcome_attempt_of_ok (Work.outcome_readText (Work.outcome_readOctets leads reads) decodes))

theorem load_of_read
    (leads : Leads bench.tree bench.surroundings (path folder) (.taken place (.file octets mode)))
    {entries : Entries} (read : IsRead bench.surroundings (path folder) octets entries) :
    Work.outcome (load folder) bench = (.ok entries, bench) := by
  obtain ⟨text, decodes, reads⟩ := tablesOf_eq_some_iff.1 read.tables
  rw [outcome_load_of_decoded leads read.reads decodes, digest, reads]
  rfl

theorem outcome_loadMetadata_of_load {entries : Entries}
    (loads : Work.outcome (load (Path.absolute bench.surroundings.here folder)) bench = (.ok entries, after))
    (given : Option Datum) : Work.outcome (loadMetadata folder given) bench =
      Work.outcome (Work.ofExcept (metadata after.surroundings.here
        (Path.absolute bench.surroundings.here folder) entries given)) after := by
  unfold loadMetadata
  rw [Work.outcome_bind_ok (Work.outcome_absolute folder bench), Work.outcome_bind_ok loads,
    Work.outcome_bind_ok (Work.outcome_here after)]

theorem load_of_trouble (there : bench.tree.exists? bench.surroundings.place (path folder) = true)
    {trouble : String} (because : Trouble bench (path folder) trouble) :
    ∃ advice, Work.outcome (load folder) bench = Work.outcome (reported trouble advice []) bench := by
  cases because with
  | denied denied =>
    exact ⟨_, outcome_load_of_fault there (Work.outcome_readText_of_denied denied)⟩
  | folder reads leads =>
    exact ⟨_, outcome_load_of_fault there
      (Work.outcome_readText_of_stop (Work.outcome_readOctets_of_folder leads reads))⟩
  | malformed reads leads decodes rejected =>
    rw [outcome_load_of_decoded leads reads decodes, digest, rejected]
    exact ⟨_, rfl⟩

theorem CountsEmpty.trouble (empty : CountsEmpty bench.surroundings (path folder) octets)
    (leads : Leads bench.tree bench.surroundings (path folder) (.taken place (.file octets mode))) :
    ∃ trouble, Trouble bench (path folder) trouble := by
  cases empty with
  | denied denied => exact ⟨_, .denied denied⟩
  | malformed text report reads decodes rejected => exact ⟨_, .malformed reads leads decodes rejected⟩

theorem keeps_load {kept : Bench → Prop}
    (logs : ∀ message, Work.Complains message → Work.Keeps kept (Work.log message)) (folder : String) :
    Work.Keeps kept (load folder) := by
  refine Work.Keeps.bind (.of_unchanged Work.outcome_surroundings) fun surroundings => ?_
  refine Work.Keeps.bind (Work.keeps_fileExists _) fun there => ?_
  split
  · have reads : Work.Keeps kept (Work.readText (path folder)) :=
      Work.Keeps.bind (Work.keeps_readExact _) fun text => Work.Keeps.pure _
    refine Work.Yields.bind reads.attempt fun result _ => ?_
    split
    · split
      · exact Work.Keeps.pure _
      · exact Work.yields_reported logs _ (by decide) trivial
      · exact Work.Yields.fail _
    · split
      · exact Work.yields_reported logs _ (by decide) trivial
      · exact Work.Yields.fail _
  · exact Work.Keeps.pure _

theorem Trouble.countsEmpty {trouble : String} (because : Trouble bench (path folder) trouble)
    (leads : Leads bench.tree bench.surroundings (path folder) (.taken place (.file octets mode))) :
    CountsEmpty bench.surroundings (path folder) octets := by
  cases because with
  | denied denied => exact .denied denied
  | folder _ again => cases leads.unique again
  | malformed reads again decodes rejected =>
    cases leads.unique again
    exact .malformed _ _ reads decodes rejected

theorem Fails.stops (fails : Fails bench folder) : ∃ fault after,
    Work.outcome (load folder) bench = (.error (.fault fault), after) ∧ Logged bench after := by
  cases fails with
  | undecodable reads leads malformed =>
    exact ⟨_, bench, outcome_load_of_fault (exists_of_leads leads)
      (Work.outcome_readText_of_malformed (Work.outcome_readOctets leads reads) malformed),
      Logged.refl bench⟩
  | broken reads leads decodes breaks =>
    have stops := outcome_load_of_decoded leads reads decodes
    rw [digest, breaks] at stops
    exact ⟨_, bench, stops, Logged.refl bench⟩
  | unrecorded there because unrecorded =>
    obtain ⟨advice, loads⟩ := load_of_trouble there because
    rw [loads]
    exact reported_of_not_canRecord unrecorded _ advice []
  | null there reads null =>
    exact ⟨_, bench, outcome_load_of_fault there
      (Work.outcome_readText_of_stop (Work.outcome_readOctets_of_null null reads)), Logged.refl bench⟩

theorem Answers.ends (answers : Answers bench folder) :
    ∃ entries after, Work.outcome (load folder) bench = (.ok entries, after) := by
  cases answers with
  | absent _ loads => exact ⟨_, _, loads⟩
  | read _ _ loads => exact ⟨_, _, loads⟩
  | told _ _ loads => exact ⟨_, _, loads⟩

theorem tells_of_canRecord {α : Type} (records : bench.CanRecord) (trouble advice : String) (value : α) :
    ∃ after, Work.outcome (reported trouble advice value) bench = (.ok value, after) ∧
      Tells bench trouble after := by
  obtain ⟨location, opens⟩ := records
  let told : Message := { level := .error, text := trouble }
  have first := Work.outcome_log_of_opens opens told
  have still := Work.opens_logFile_of_shown opens told
    (location.written.1 ++ Text.Utf8.encode (told.record bench.surroundings.now.time.text).toList)
  have second := Work.outcome_log_of_opens still { level := .info, text := advice }
  refine ⟨_, (Work.outcome_bind_ok first _).trans (Work.outcome_bind_ok second _), ?_, ?_, ?_⟩
  · rfl
  · exact ⟨location, _, opens, FileTree.put_put ..⟩
  · rfl

theorem answers_or_fails_of_trouble
    (there : bench.tree.exists? bench.surroundings.place (path folder) = true) {trouble : String}
    (because : Trouble bench (path folder) trouble) : Answers bench folder ∨ Fails bench folder := by
  by_cases records : bench.CanRecord
  · obtain ⟨advice, loads⟩ := load_of_trouble there because
    obtain ⟨after, ends, tells⟩ := tells_of_canRecord records trouble advice ([] : Entries)
    exact Or.inl (.told there because (loads.trans ends) tells)
  · exact Or.inr (.unrecorded there because records)

theorem answers_or_fails_of_file
    (leads : Leads bench.tree bench.surroundings (path folder) (.taken place (.file octets mode)))
    (reads : bench.surroundings.canRead (path folder) = true) :
    Answers bench folder ∨ Fails bench folder := by
  cases decodes : Text.Utf8.decode octets with
  | error sequence => exact Or.inr (.undecodable reads leads decodes)
  | ok text =>
    cases read : bench.surroundings.format.read (Text.unifyBreaks text) with
    | ok entries =>
      have whole : IsRead _ _ _ entries := ⟨reads, tablesOf_eq_some_iff.2 ⟨text, decodes, read⟩⟩
      exact Or.inl (.read leads whole (load_of_read leads whole))
    | error rejection =>
      cases rejection with
      | malformed report =>
        exact answers_or_fails_of_trouble (exists_of_leads leads) (.malformed reads leads decodes read)
      | broken fault => exact Or.inr (.broken reads leads decodes read)

theorem answers_or_fails (bench : Bench) (folder : String) : Answers bench folder ∨ Fails bench folder := by
  cases there : bench.tree.exists? bench.surroundings.place (path folder) with
  | false => exact Or.inl (.absent there (load_of_absent there))
  | true =>
    cases reads : bench.surroundings.canRead (path folder) with
    | false => exact answers_or_fails_of_trouble there (.denied reads)
    | true =>
      cases named : (path folder).toList.contains '\x00' with
      | true => exact Or.inr (.null there reads named)
      | false =>
        obtain ⟨place, node, leads⟩ := FileTree.exists_locate there
        match node, leads with
        | .file octets mode, leads => exact answers_or_fails_of_file ⟨named, leads⟩ reads
        | .folder, leads => exact answers_or_fails_of_trouble there (.folder reads ⟨named, leads⟩)
        | .link target, leads => exact absurd leads (FileTree.locate_ne_link _ _ _ _ _)

/-- Loading answers unless it is stopped by contents that are not UTF-8, by the reader, or by a
trouble that cannot be recorded. -/
theorem answers_iff (bench : Bench) (folder : String) : Answers bench folder ↔ ¬Fails bench folder := by
  constructor
  · intro answers fails
    obtain ⟨entries, after, loads⟩ := answers.ends
    obtain ⟨fault, last, stops, -⟩ := fails.stops
    cases loads.symm.trans stops
  · exact (answers_or_fails bench folder).resolve_right

theorem load_cases
    (leads : Leads bench.tree bench.surroundings (path folder) (.taken place (.file octets mode))) :
    (∃ entries, IsRead bench.surroundings (path folder) octets entries ∧
        Work.outcome (load folder) bench = (.ok entries, bench)) ∨
      (CountsEmpty bench.surroundings (path folder) octets ∧ ∃ trouble advice,
        Work.outcome (load folder) bench = Work.outcome (reported trouble advice []) bench) ∨
      ¬CountsEmpty bench.surroundings (path folder) octets ∧ ∃ fault after,
        Work.outcome (load folder) bench = (.error (.fault fault), after) ∧ Logged bench after := by
  by_cases empty : CountsEmpty bench.surroundings (path folder) octets
  · obtain ⟨trouble, because⟩ := empty.trouble leads
    obtain ⟨advice, loads⟩ := load_of_trouble (exists_of_leads leads) because
    exact Or.inr (Or.inl ⟨empty, trouble, advice, loads⟩)
  · rcases answers_or_fails bench folder with answers | fails
    · cases answers with
      | absent free =>
        rw [exists_of_leads leads] at free
        cases free
      | read again read loads =>
        cases leads.unique again
        exact Or.inl ⟨_, read, loads⟩
      | told _ because => exact absurd (because.countsEmpty leads) empty
    · exact Or.inr (Or.inr ⟨empty, fails.stops⟩)

theorem load_ends (bench : Bench) (folder : String) :
    (∃ place octets mode entries,
        Leads bench.tree bench.surroundings (path folder) (.taken place (.file octets mode)) ∧
        IsRead bench.surroundings (path folder) octets entries ∧
        Work.outcome (load folder) bench = (.ok entries, bench)) ∨
      ∃ result after, Work.outcome (load folder) bench = (result, after) ∧
        ∀ entries, result = .ok entries → entries = [] := by
  rcases answers_or_fails bench folder with answers | fails
  · cases answers with
    | absent _ loads => exact Or.inr ⟨_, _, loads, fun entries same => (Except.ok.inj same).symm⟩
    | read leads read loads => exact Or.inl ⟨_, _, _, _, leads, read, loads⟩
    | told _ _ loads => exact Or.inr ⟨_, _, loads, fun entries same => (Except.ok.inj same).symm⟩
  · obtain ⟨fault, after, stops, -⟩ := fails.stops
    exact Or.inr ⟨_, after, stops, by rintro entries ⟨⟩⟩

end Loading

/-! A project folder with a side file, and the log folder beside it. -/

def projectBench (octets : List UInt8) : Bench where
  tree := ⟨[([], .folder), (["W"], .folder), (["W", "jucebuilder.toml"], .file octets newFileMode),
    (["L"], .folder)], by simp⟩
  surroundings := {}

def logName : String := "jucebuilder_20240102_030405.log"

theorem isName_of_project : ∀ part ∈ ["W", "jucebuilder.toml", "L", logName], FileTree.IsName part := by
  decide

theorem opens_log (octets : List UInt8) :
    Opens (projectBench octets).tree {} (Surroundings.logFile {}) (.free ["L", logName]) where
  named := by decide
  leads := by
    rw [FileTree.locate_of_parts (by decide) (by decide)
      (show _ = ["", "L", logName] by decide)]
    rw [FileTree.locateFrom_folder (isName_of_project _ (by decide)) rfl]
    exact FileTree.locateFrom_free (isName_of_project _ (by decide)) rfl
  writes := by decide
  file := rfl

theorem stands_project (octets : List UInt8) :
    Stands (projectBench octets) (path "/W") ["W", "jucebuilder.toml"] octets newFileMode where
  named := by decide
  leads := by
    rw [FileTree.locate_of_parts (by decide) (by decide)
      (show _ = ["", "W", "jucebuilder.toml"] by decide)]
    rw [FileTree.locateFrom_folder (isName_of_project _ (by decide)) rfl]
    exact FileTree.locateFrom_file (isName_of_project _ (by decide)) octets newFileMode rfl
  apart := by
    intro location leads
    obtain rfl := (opens_log octets).toLeads.unique leads
    decide

theorem not_answers_octet : (projectBench [0xff]).CanRecord ∧
    Work.outcome (load "/W") (projectBench [0xff]) =
      (.error (.fault (.malformedText ⟨0, 1, 0xff, .start⟩)), projectBench [0xff]) ∧
    ¬Answers (projectBench [0xff]) "/W" := by
  have leads := (stands_project [0xff]).toLeads
  have reads : (projectBench [0xff]).surroundings.canRead (path "/W") = true := by decide
  have malformed : Text.Utf8.decode [0xff] = .error ⟨0, 1, 0xff, .start⟩ := rfl
  have stops : Work.outcome (load "/W") (projectBench [0xff]) = (.error (.fault _), _) :=
    outcome_load_of_fault (exists_of_leads leads)
      (Work.outcome_readText_of_malformed (Work.outcome_readOctets leads reads) malformed)
  refine ⟨⟨_, opens_log _⟩, stops, fun answers => ?_⟩
  obtain ⟨entries, after, loads⟩ := answers.ends
  cases loads.symm.trans stops

end JuceWorkbench.SideFile
