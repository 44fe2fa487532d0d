import JuceWorkbench.Bench.Log
import JuceWorkbench.Proofs.Bench.Outcome
import JuceWorkbench.Proofs.Tree.Location

/-! What reading, writing and logging do at a bench. Opening a file changes nothing. Writing puts
the file at the place its path leads to. Logging is writing to the log file. -/

namespace JuceWorkbench

def Surroundings.canRead (surroundings : Surroundings) (path : String) : Bool :=
  !surroundings.unreadable.contains (Path.absolute surroundings.here path)

def Surroundings.canWrite (surroundings : Surroundings) (path : String) : Bool :=
  !surroundings.unwritable.contains (Path.absolute surroundings.here path)

/-- A path leads to a location. -/
structure Leads (tree : FileTree) (surroundings : Surroundings) (path : String)
    (location : FileTree.Location) : Prop where
  named : path.toList.contains '\x00' = false
  leads : tree.locate true surroundings.place path = .ok location

/-- A file can be opened for writing at a location. -/
structure Opens (tree : FileTree) (surroundings : Surroundings) (path : String)
    (location : FileTree.Location) : Prop extends Leads tree surroundings path location where
  writes : surroundings.canWrite path = true
  file : location.takesFile = true

def FileTree.Location.written : FileTree.Location → List UInt8 × Nat
  | .taken _ (.file contents mode) => (contents, mode)
  | _ => ([], newFileMode)

theorem Leads.unique {tree : FileTree} {surroundings : Surroundings} {path : String}
    {location other : FileTree.Location} (leads : Leads tree surroundings path location)
    (again : Leads tree surroundings path other) : location = other := by
  have same := leads.leads.symm.trans again.leads
  injection same

theorem Opens.put {tree : FileTree} {surroundings : Surroundings} {path : String}
    {location : FileTree.Location} (opens : Opens tree surroundings path location)
    (contents : List UInt8) (mode : Nat) :
    Opens (tree.put location.place (.file contents mode)) surroundings path
      (.taken location.place (.file contents mode)) where
  named := opens.named
  leads := by
    rw [FileTree.locate_put opens.leads (FileTree.takesFile_of_locate opens.leads opens.file),
      FileTree.Location.after_self opens.file rfl]
  writes := opens.writes
  file := rfl

def Bench.write (bench : Bench) (location : FileTree.Location) (contents : List UInt8) : Bench :=
  { bench with tree := bench.tree.put location.place (.file contents location.written.2) }

theorem Bench.write_write (bench : Bench) (location : FileTree.Location) (contents more : List UInt8) :
    (bench.write location contents).write
        (.taken location.place (.file contents location.written.2)) more =
      bench.write location more := by
  unfold Bench.write
  simp only [FileTree.Location.place, FileTree.Location.written, FileTree.put_put]

/-- What a message adds to the output; messages of trouble go to the other stream. -/
def Message.printed (clock : String) (message : Message) : String :=
  if message.level.isTrouble then "" else message.consoleLine clock

namespace Work

variable {tree : FileTree} {bench : Bench} {path : String} {location : FileTree.Location}

theorem outcome_locate (leads : Leads bench.tree bench.surroundings path location) :
    outcome (locate true path) bench = (.ok location, bench) := by
  unfold locate
  rw [if_neg (by rw [leads.named]; exact Bool.false_ne_true)]
  rw [outcome_bind_ok (outcome_tree bench), outcome_bind_ok (outcome_surroundings bench), leads.leads]
  rfl

theorem outcome_locate_of_not_leads
    (lost : ∀ location, ¬Leads bench.tree bench.surroundings path location) :
    ∃ fault, outcome (locate true path) bench = (.error (.fault fault), bench) := by
  unfold locate
  by_cases named : path.toList.contains '\x00' = true
  · rw [if_pos named]
    exact ⟨_, outcome_fail _ bench⟩
  · rw [if_neg named, outcome_bind_ok (outcome_tree bench),
      outcome_bind_ok (outcome_surroundings bench)]
    cases leads : bench.tree.locate true bench.surroundings.place path with
    | ok location => exact absurd ⟨Bool.eq_false_iff.2 named, leads⟩ (lost location)
    | error reason => exact ⟨_, outcome_fail _ bench⟩

theorem outcome_fileExists (leads : Leads bench.tree bench.surroundings path location) :
    outcome (fileExists path) bench = (.ok location.node?.isSome, bench) := by
  have found : bench.tree.exists? bench.surroundings.place path = location.node?.isSome := by
    unfold FileTree.exists? FileTree.node?
    rw [leads.leads]
    cases location <;> rfl
  exact found ▸ rfl

theorem outcome_absolute (path : String) (bench : Bench) :
    outcome (absolute path) bench = (.ok (Path.absolute bench.surroundings.here path), bench) := rfl

theorem outcome_readOctets_of_canRead (reads : bench.surroundings.canRead path = true) :
    outcome (readOctets path) bench = outcome (locate true path >>= fun location => match location with
      | .taken _ (.file contents _) => pure contents
      | .taken _ .folder => refuse .isFolder path
      | _ => refuse .missing path) bench := by
  have kept : ¬bench.surroundings.unreadable.contains (Path.absolute bench.surroundings.here path) = true := by
    simpa [Surroundings.canRead] using reads
  unfold readOctets
  refine (outcome_bind_ok (outcome_surroundings bench) _).trans ?_
  refine (outcome_bind_ok (outcome_absolute path bench) _).trans ?_
  exact congrArg (outcome · bench) (if_neg kept)

theorem outcome_readOctets {place : Place} {contents : List UInt8} {mode : Nat}
    (leads : Leads bench.tree bench.surroundings path (.taken place (.file contents mode)))
    (reads : bench.surroundings.canRead path = true) :
    outcome (readOctets path) bench = (.ok contents, bench) := by
  rw [outcome_readOctets_of_canRead reads, outcome_bind_ok (outcome_locate leads)]
  rfl

theorem outcome_readOctets_of_folder {place : Place}
    (leads : Leads bench.tree bench.surroundings path (.taken place .folder))
    (reads : bench.surroundings.canRead path = true) :
    outcome (readOctets path) bench = (.error (.fault (.file { reason := .isFolder, path })), bench) := by
  rw [outcome_readOctets_of_canRead reads, outcome_bind_ok (outcome_locate leads)]
  rfl

theorem outcome_readOctets_of_null (null : path.toList.contains '\x00' = true)
    (reads : bench.surroundings.canRead path = true) :
    outcome (readOctets path) bench = (.error (.fault .nullInPath), bench) := by
  have stops : outcome (locate true path) bench = (.error (.fault .nullInPath), bench) := by
    unfold locate
    rw [if_pos null]
    rfl
  rw [outcome_readOctets_of_canRead reads, outcome_bind_error stops]

theorem outcome_readOctets_of_denied (denied : bench.surroundings.canRead path = false) :
    outcome (readOctets path) bench = (.error (.fault (.file { reason := .denied, path })), bench) := by
  have refused : bench.surroundings.unreadable.contains (Path.absolute bench.surroundings.here path) = true := by
    simpa [Surroundings.canRead] using denied
  unfold readOctets
  rw [outcome_bind_ok (outcome_surroundings bench), outcome_bind_ok (outcome_absolute path bench),
    if_pos refused]
  rfl

theorem leads_of_readOctets {octets : List UInt8} {after : Bench}
    (ends : outcome (readOctets path) bench = (.ok octets, after)) :
    bench.surroundings.canRead path = true ∧ ∃ place mode,
      Leads bench.tree bench.surroundings path (.taken place (.file octets mode)) := by
  by_cases reads : bench.surroundings.canRead path = true
  · refine ⟨reads, ?_⟩
    rw [outcome_readOctets_of_canRead reads] at ends
    by_cases lost : ∀ location, ¬Leads bench.tree bench.surroundings path location
    · obtain ⟨fault, stops⟩ := outcome_locate_of_not_leads lost
      cases ends.symm.trans (outcome_bind_error stops _)
    · obtain ⟨location, leads⟩ := Classical.not_forall_not.1 lost
      rw [outcome_bind_ok (outcome_locate leads)] at ends
      match location, leads, ends with
      | .taken place (.file contents mode), leads, rfl => exact ⟨place, mode, leads⟩
  · cases ends.symm.trans (outcome_readOctets_of_denied (Bool.eq_false_iff.2 reads))

theorem outcome_readExact {octets : List UInt8} {text : List Char}
    (ends : outcome (readOctets path) bench = (.ok octets, bench))
    (decodes : Text.Utf8.decode octets = .ok text) :
    outcome (readExact path) bench = (.ok text, bench) := by
  unfold readExact
  rw [outcome_bind_ok ends, decodes]
  rfl

theorem leads_of_readExact {text : List Char} {after : Bench}
    (ends : outcome (readExact path) bench = (.ok text, after)) :
    bench.surroundings.canRead path = true ∧ ∃ place contents mode,
      Leads bench.tree bench.surroundings path (.taken place (.file contents mode)) ∧
        Text.Utf8.decode contents = .ok text := by
  obtain ⟨octets, mid, opened, rest⟩ := exists_mid ends
  obtain ⟨reads, place, mode, leads⟩ := leads_of_readOctets opened
  refine ⟨reads, place, octets, mode, leads, ?_⟩
  cases decodes : Text.Utf8.decode octets with
  | ok decoded =>
    rw [decodes] at rest
    cases rest
    rfl
  | error sequence =>
    rw [decodes] at rest
    cases rest

theorem outcome_readText {octets : List UInt8} {text : List Char}
    (ends : outcome (readOctets path) bench = (.ok octets, bench))
    (decodes : Text.Utf8.decode octets = .ok text) :
    outcome (readText path) bench = (.ok (Text.unifyBreaks text), bench) :=
  outcome_bind_ok (outcome_readExact ends decodes) _

theorem outcome_readText_of_malformed {octets : List UInt8} {sequence : Text.Utf8.Malformed}
    (ends : outcome (readOctets path) bench = (.ok octets, bench))
    (malformed : Text.Utf8.decode octets = .error sequence) :
    outcome (readText path) bench = (.error (.fault (.malformedText sequence)), bench) := by
  have stops : outcome (readExact path) bench = (.error (.fault (.malformedText sequence)), bench) := by
    unfold readExact
    rw [outcome_bind_ok ends, malformed]
    rfl
  exact outcome_bind_error stops _

theorem outcome_readText_of_stop {stop : Stop}
    (stops : outcome (readOctets path) bench = (.error stop, bench)) :
    outcome (readText path) bench = (.error stop, bench) :=
  outcome_bind_error (outcome_bind_error stops _) _

theorem outcome_readText_of_denied (denied : bench.surroundings.canRead path = false) :
    outcome (readText path) bench = (.error (.fault (.file { reason := .denied, path })), bench) :=
  outcome_readText_of_stop (outcome_readOctets_of_denied denied)

theorem outcome_openForWriting (opens : Opens bench.tree bench.surroundings path location) :
    outcome (openForWriting path) bench = (.ok (location.place, location.written), bench) := by
  have kept : ¬bench.surroundings.unwritable.contains (Path.absolute bench.surroundings.here path) = true := by
    simpa [Surroundings.canWrite] using opens.writes
  unfold openForWriting
  rw [outcome_bind_ok (outcome_surroundings bench), outcome_bind_ok (outcome_absolute path bench),
    if_neg kept, outcome_bind_ok (outcome_locate opens.toLeads)]
  match location, opens.file with
  | .taken place (.file contents mode), _ => rfl
  | .free place, _ => rfl

theorem outcome_openForWriting_of_not_opens
    (closed : ∀ location, ¬Opens bench.tree bench.surroundings path location) :
    ∃ fault, outcome (openForWriting path) bench = (.error (.fault fault), bench) := by
  unfold openForWriting
  rw [outcome_bind_ok (outcome_surroundings bench), outcome_bind_ok (outcome_absolute path bench)]
  by_cases refused : bench.surroundings.unwritable.contains
      (Path.absolute bench.surroundings.here path) = true
  · rw [if_pos refused]
    exact ⟨_, outcome_fail _ bench⟩
  · rw [if_neg refused]
    have writes : bench.surroundings.canWrite path = true := by
      simpa [Surroundings.canWrite] using refused
    by_cases lost : ∀ location, ¬Leads bench.tree bench.surroundings path location
    · obtain ⟨fault, ends⟩ := outcome_locate_of_not_leads lost
      exact ⟨fault, outcome_bind_error ends _⟩
    · obtain ⟨location, leads⟩ := Classical.not_forall_not.1 lost
      rw [outcome_bind_ok (outcome_locate leads)]
      cases location with
      | free place => exact absurd ⟨leads, writes, rfl⟩ (closed (.free place))
      | taken place node =>
        cases node with
        | file contents mode => exact absurd ⟨leads, writes, rfl⟩ (closed _)
        | folder => exact ⟨_, outcome_fail _ bench⟩
        | link target => exact ⟨_, outcome_fail _ bench⟩

theorem outcome_writeOctets (opens : Opens bench.tree bench.surroundings path location)
    (octets : List UInt8) :
    outcome (writeOctets path octets) bench = (.ok (), bench.write location octets) := by
  unfold writeOctets
  rw [outcome_bind_ok (outcome_openForWriting opens), outcome_bind_ok (outcome_tree bench)]
  exact outcome_setTree _ bench

theorem outcome_writeOctets_of_not_opens
    (closed : ∀ location, ¬Opens bench.tree bench.surroundings path location) (octets : List UInt8) :
    ∃ fault, outcome (writeOctets path octets) bench = (.error (.fault fault), bench) := by
  obtain ⟨fault, ends⟩ := outcome_openForWriting_of_not_opens closed
  exact ⟨fault, outcome_bind_error ends _⟩

theorem outcome_appendOctets (opens : Opens bench.tree bench.surroundings path location)
    (octets : List UInt8) :
    outcome (appendOctets path octets) bench =
      (.ok (), bench.write location (location.written.1 ++ octets)) := by
  unfold appendOctets
  rw [outcome_bind_ok (outcome_openForWriting opens), outcome_bind_ok (outcome_tree bench)]
  exact outcome_setTree _ bench

theorem outcome_appendOctets_of_not_opens
    (closed : ∀ location, ¬Opens bench.tree bench.surroundings path location) (octets : List UInt8) :
    ∃ fault, outcome (appendOctets path octets) bench = (.error (.fault fault), bench) := by
  obtain ⟨fault, ends⟩ := outcome_openForWriting_of_not_opens closed
  exact ⟨fault, outcome_bind_error ends _⟩

/-! The log. -/

def shown (message : Message) (bench : Bench) : Bench :=
  let line := message.consoleLine bench.surroundings.now.time.text
  if message.level.isTrouble then { bench with errors := bench.errors ++ line }
  else { bench with output := bench.output ++ line }

@[simp] theorem shown_tree (message : Message) (bench : Bench) : (shown message bench).tree = bench.tree := by
  unfold shown
  dsimp only
  split <;> rfl

@[simp] theorem shown_surroundings (message : Message) (bench : Bench) :
    (shown message bench).surroundings = bench.surroundings := by
  unfold shown
  dsimp only
  split <;> rfl

theorem outcome_log (message : Message) (bench : Bench) :
    outcome (log message) bench =
      outcome (appendText bench.surroundings.logFile
        (message.record bench.surroundings.now.time.text).toList) (shown message bench) := by
  unfold log shown
  rw [outcome_bind_ok (outcome_surroundings bench)]
  dsimp only
  split
  · exact outcome_bind_ok rfl _
  · exact outcome_bind_ok rfl _

theorem outcome_log_of_opens
    (opens : Opens bench.tree bench.surroundings bench.surroundings.logFile location)
    (message : Message) : outcome (log message) bench =
      (.ok (), (shown message bench).write location (location.written.1 ++
        Text.Utf8.encode (message.record bench.surroundings.now.time.text).toList)) := by
  rw [outcome_log]
  have still : Opens (shown message bench).tree (shown message bench).surroundings
      bench.surroundings.logFile location := by
    rw [shown_tree, shown_surroundings]
    exact opens
  exact outcome_appendOctets still _

theorem opens_logFile_of_shown
    (opens : Opens bench.tree bench.surroundings bench.surroundings.logFile location) (message : Message)
    (contents : List UInt8) :
    Opens ((shown message bench).write location contents).tree
      ((shown message bench).write location contents).surroundings
      ((shown message bench).write location contents).surroundings.logFile
      (.taken location.place (.file contents location.written.2)) := by
  change Opens ((shown message bench).tree.put location.place _) (shown message bench).surroundings
    (shown message bench).surroundings.logFile _
  rw [shown_tree, shown_surroundings]
  exact opens.put contents location.written.2

theorem outcome_log_of_not_opens
    (closed : ∀ location, ¬Opens bench.tree bench.surroundings bench.surroundings.logFile location)
    (message : Message) : ∃ fault, outcome (log message) bench =
      (.error (.fault fault), shown message bench) := by
  rw [outcome_log]
  refine outcome_appendOctets_of_not_opens ?_ _
  intro location
  rw [shown_tree, shown_surroundings]
  exact closed location

/-- A message is put out even if it cannot be recorded. -/
theorem output_log (message : Message) (bench : Bench) : (outcome (log message) bench).2.output =
    bench.output ++ message.printed bench.surroundings.now.time.text := by
  have shows : (shown message bench).output =
      bench.output ++ message.printed bench.surroundings.now.time.text := by
    unfold shown Message.printed
    dsimp only
    split
    · exact (String.append_empty ..).symm
    · rfl
  by_cases opens : ∃ location, Opens bench.tree bench.surroundings bench.surroundings.logFile location
  · obtain ⟨location, opens⟩ := opens
    rw [outcome_log_of_opens opens]
    exact shows
  · obtain ⟨fault, ends⟩ := outcome_log_of_not_opens (not_exists.1 opens) message
    rw [ends]
    exact shows

end Work

/-- Messages can be recorded: the log file can be opened for writing. -/
def Bench.CanRecord (bench : Bench) : Prop :=
  ∃ location, Opens bench.tree bench.surroundings bench.surroundings.logFile location

/-- Between two benches nothing but the log file was written. -/
structure Logged (bench after : Bench) : Prop where
  surroundings : after.surroundings = bench.surroundings
  tree : after.tree = bench.tree ∨ ∃ location contents mode,
    Opens bench.tree bench.surroundings bench.surroundings.logFile location ∧
      after.tree = bench.tree.put location.place (.file contents mode)

/-- A file stands at a path, and the log is written elsewhere. -/
structure Stands (bench : Bench) (path : String) (place : Place) (contents : List UInt8) (mode : Nat) :
    Prop extends Leads bench.tree bench.surroundings path (.taken place (.file contents mode)) where
  apart : ∀ location, Leads bench.tree bench.surroundings bench.surroundings.logFile location →
    location.place ≠ place

section Logged

variable {bench after last : Bench}

theorem Logged.refl (bench : Bench) : Logged bench bench := ⟨rfl, Or.inl rfl⟩

theorem Logged.trans (first : Logged bench after) (second : Logged after last) : Logged bench last := by
  refine ⟨second.surroundings.trans first.surroundings, ?_⟩
  rcases second.tree with same | ⟨location, contents, mode, opens, written⟩
  · rw [same]
    exact first.tree
  · rw [first.surroundings] at opens
    rcases first.tree with same | ⟨spot, old, oldMode, opened, before⟩
    · rw [same] at opens written
      exact Or.inr ⟨location, contents, mode, opens, written⟩
    · rw [before] at opens written
      obtain rfl := (opened.put old oldMode).unique opens.toLeads
      rw [FileTree.Location.place, FileTree.put_put] at written
      exact Or.inr ⟨spot, contents, mode, opened, written⟩

theorem Logged.get? (logged : Logged bench after) {spot : Place}
    (apart : ∀ location, Opens bench.tree bench.surroundings bench.surroundings.logFile location →
      location.place ≠ spot) : after.tree.get? spot = bench.tree.get? spot := by
  rcases logged.tree with same | ⟨location, contents, mode, opens, written⟩
  · rw [same]
  · rw [written, FileTree.get?_put_of_ne _ (apart location opens).symm]

theorem Logged.canRecord (logged : Logged bench after) (records : bench.CanRecord) : after.CanRecord := by
  unfold Bench.CanRecord
  rw [logged.surroundings]
  rcases logged.tree with same | ⟨location, contents, mode, opens, written⟩
  · rw [same]
    exact records
  · rw [written]
    exact ⟨_, opens.put contents mode⟩

theorem Logged.stands (logged : Logged bench after) {path : String} {place : Place}
    {contents : List UInt8} {mode : Nat} (stands : Stands bench path place contents mode) :
    Stands after path place contents mode := by
  rcases logged with ⟨surroundings, same | ⟨spot, record, recordMode, opens, written⟩⟩
  · refine ⟨?_, ?_⟩
    · rw [same, surroundings]
      exact stands.toLeads
    · rw [same, surroundings]
      exact stands.apart
  · have elsewhere : (FileTree.Location.taken place (.file contents mode)).place ≠ spot.place :=
      Ne.symm (stands.apart spot opens.toLeads)
    refine ⟨⟨stands.named, ?_⟩, ?_⟩
    · rw [written, surroundings,
        FileTree.locate_put stands.leads (FileTree.takesFile_of_locate opens.leads opens.file),
        FileTree.Location.after_of_ne elsewhere]
    · rw [written, surroundings]
      intro location leads
      obtain rfl := (opens.put record recordMode).unique leads
      exact elsewhere.symm

theorem log_of_canRecord (records : bench.CanRecord) (message : Message) :
    ∃ after, Work.outcome (Work.log message) bench = (.ok (), after) ∧ Logged bench after := by
  obtain ⟨location, opens⟩ := records
  refine ⟨_, Work.outcome_log_of_opens opens message, Work.shown_surroundings message bench,
    Or.inr ⟨location, _, _, opens, congrArg (FileTree.put · _ _) (Work.shown_tree message bench)⟩⟩

theorem log_of_not_canRecord (unrecorded : ¬bench.CanRecord) (message : Message) :
    ∃ fault after, Work.outcome (Work.log message) bench = (.error (.fault fault), after) ∧
      Logged bench after := by
  obtain ⟨fault, ends⟩ := Work.outcome_log_of_not_opens (not_exists.1 unrecorded) message
  exact ⟨fault, _, ends, Work.shown_surroundings message bench, Or.inl (Work.shown_tree message bench)⟩

def reported {α : Type} (trouble advice : String) (value : α) : Work α := do
  Work.error trouble
  Work.info advice
  pure value

theorem reported_of_canRecord {α : Type} (records : bench.CanRecord) (trouble advice : String) (value : α) :
    ∃ after, Work.outcome (reported trouble advice value) bench = (.ok value, after) ∧
      Logged bench after := by
  obtain ⟨after, ends, first⟩ := log_of_canRecord records { level := .error, text := trouble }
  obtain ⟨last, done, second⟩ := log_of_canRecord (first.canRecord records)
    { level := .info, text := advice }
  refine ⟨last, ?_, first.trans second⟩
  exact (Work.outcome_bind_ok ends _).trans (Work.outcome_bind_ok done _)

theorem reported_of_not_canRecord {α : Type} (unrecorded : ¬bench.CanRecord) (trouble advice : String)
    (value : α) : ∃ fault after, Work.outcome (reported trouble advice value) bench =
      (.error (.fault fault), after) ∧ Logged bench after := by
  obtain ⟨fault, after, ends, logged⟩ := log_of_not_canRecord unrecorded
    { level := .error, text := trouble }
  exact ⟨fault, after, Work.outcome_bind_error ends _, logged⟩

end Logged

end JuceWorkbench
