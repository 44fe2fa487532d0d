import JuceWorkbench.Bench.Command
import JuceWorkbench.Proofs.Bench.Changes

/-! Which commands work starts. A command that is started takes the next ending and gives its code,
unless the log cannot be written any more; all other work starts none. Where the log stops work, the
message that could not be recorded is one that the work had to say (`StoppedAt`, `Tells`). -/

namespace JuceWorkbench

/-- The exit code a command ends with; -1 if it was not found. -/
def Ending.code : Ending → Int
  | .notFound _ => -1
  | .ended _ _ code _ => code

def Bench.ending (bench : Bench) (n : Nat) : Ending := bench.endings[n]?.getD .quiet

def Bench.code (bench : Bench) (n : Nat) : Int := (bench.ending n).code

/-- Between two benches these commands were started, and as many endings were taken. -/
structure Ran (bench after : Bench) (commands : List Started) : Prop where
  started : after.started = bench.started ++ commands
  endings : after.endings = bench.endings.drop commands.length
  surroundings : after.surroundings = bench.surroundings

def Bench.HasLog (bench : Bench) : Prop :=
  ∃ place contents mode, Opens bench.tree bench.surroundings bench.surroundings.logFile
    (.taken place (.file contents mode))

variable {bench mid after : Bench} {commands more : List Started}

theorem Ran.refl (bench : Bench) : Ran bench bench [] := ⟨by simp, rfl, rfl⟩

theorem Ran.trans (first : Ran bench mid commands) (second : Ran mid after more) :
    Ran bench after (commands ++ more) where
  started := by rw [second.started, first.started, List.append_assoc]
  endings := by rw [second.endings, first.endings, List.drop_drop, List.length_append]
  surroundings := second.surroundings.trans first.surroundings

theorem Ran.onTree (bench : Bench) (change : FileTree → FileTree) : Ran bench (bench.onTree change) [] :=
  ⟨by simp, rfl, rfl⟩

theorem Ran.ending (ran : Ran bench after commands) (n : Nat) :
    after.ending n = bench.ending (commands.length + n) := by
  unfold Bench.ending
  rw [ran.endings, List.getElem?_drop]

theorem Ran.code (ran : Ran bench after commands) (n : Nat) :
    after.code n = bench.code (commands.length + n) := congrArg Ending.code (ran.ending n)

namespace Work

variable {α β : Type}

def StartsNone (work : Work α) : Prop := ∀ bench, Ran bench (outcome work bench).2 []

theorem startsNone_of_keeps {work : Work α} (keeps : ∀ bench, Keeps (Ran bench · []) work) :
    StartsNone work := fun bench => (keeps bench bench (.refl bench)).1

theorem StartsNone.keeps {work : Work α} (none : StartsNone work) (bench : Bench) :
    Keeps (Ran bench · []) work := fun mid before =>
  ⟨before.trans (none mid), fun _ _ => trivial⟩

theorem StartsNone.bind {work : Work α} {next : α → Work β} (first : StartsNone work)
    (second : ∀ value, StartsNone (next value)) : StartsNone (work >>= next) :=
  startsNone_of_keeps fun bench => Keeps.bind (first.keeps bench) fun value => (second value).keeps bench

@[simp] theorem shown_started (message : Message) (bench : Bench) :
    (shown message bench).started = bench.started := by
  unfold shown
  dsimp only
  split <;> rfl

@[simp] theorem shown_endings (message : Message) (bench : Bench) :
    (shown message bench).endings = bench.endings := by
  unfold shown
  dsimp only
  split <;> rfl

theorem ran_shown (message : Message) (bench : Bench) : Ran bench (shown message bench) [] :=
  ⟨by simp, by simp, by simp⟩

theorem startsNone_log (message : Message) : StartsNone (log message) := by
  intro bench
  by_cases records : bench.CanRecord
  · obtain ⟨location, opens⟩ := records
    rw [outcome_log_of_opens opens]
    exact (ran_shown message bench).trans (.onTree _ (·.put location.place _))
  · obtain ⟨fault, ends⟩ := outcome_log_of_not_opens (not_exists.1 records) message
    rw [ends]
    exact ran_shown message bench

theorem hasLog_of_log {message : Message} (ends : outcome (log message) bench = (.ok (), after)) :
    after.HasLog := by
  by_cases records : bench.CanRecord
  · obtain ⟨location, opens⟩ := records
    have recorded := outcome_log_of_opens opens message
    rw [ends] at recorded
    generalize location.written.1 ++ _ = record at recorded
    rw [(Prod.mk.inj recorded).2]
    rw [← shown_tree message bench, ← shown_surroundings message bench] at opens
    exact ⟨_, _, _, opens.put record location.written.2⟩
  · obtain ⟨fault, stops⟩ := outcome_log_of_not_opens (not_exists.1 records) message
    cases stops.symm.trans ends

theorem rewrites_of_log (has : bench.HasLog) {message : Message}
    (ends : outcome (log message) bench = (.ok (), after)) :
    after.surroundings = bench.surroundings ∧ ∃ place old record mode,
      bench.tree.get? place = some (.file old mode) ∧
        after.tree = bench.tree.put place (.file record mode) := by
  obtain ⟨place, old, mode, opens⟩ := has
  have written := outcome_log_of_opens opens message
  rw [ends] at written
  generalize _ ++ Text.Utf8.encode _ = record at written
  rw [(Prod.mk.inj written).2]
  refine ⟨shown_surroundings message bench, place, old, record, mode, ?_, ?_⟩
  · exact FileTree.get?_place_of_locate opens.leads (by rintro ⟨⟩)
  · exact congrArg (FileTree.put · _ _) (shown_tree message bench)

/-- Work stopped at a message that could not be recorded. -/
def StoppedAt (message : Message) (stop : Stop) (after : Bench) : Prop :=
  ∃ bench, outcome (log message) bench = (.error stop, after)

theorem StoppedAt.broken {message : Message} {stop : Stop} (stopped : StoppedAt message stop after) :
    ¬after.CanRecord := by
  obtain ⟨bench, stops⟩ := stopped
  by_cases records : bench.CanRecord
  · obtain ⟨last, ends, -⟩ := log_of_canRecord records message
    cases ends.symm.trans stops
  · obtain ⟨fault, ends⟩ := outcome_log_of_not_opens (not_exists.1 records) message
    obtain ⟨-, rfl⟩ := Prod.mk.inj (ends.symm.trans stops)
    unfold Bench.CanRecord
    rw [shown_tree, shown_surroundings]
    exact records

/-- How logging a message can go. -/
inductive Noted (message : Message) (bench : Bench) : Except Stop Unit → Bench → Prop
  | noted {after : Bench} (ran : Ran bench after []) (logged : Logged bench after) (has : after.HasLog) :
      Noted message bench (.ok ()) after
  | broken {stop : Stop} {after : Bench} (ran : Ran bench after []) (stopped : StoppedAt message stop after) :
      Noted message bench (.error stop) after

theorem noted_log {message : Message} {result : Except Stop Unit}
    (ends : outcome (log message) bench = (result, after)) : Noted message bench result after := by
  have ran := startsNone_log message bench
  rw [ends] at ran
  cases result with
  | error stop => exact .broken ran ⟨bench, ends⟩
  | ok value =>
    have records : bench.CanRecord := Classical.byContradiction fun unrecorded => by
      obtain ⟨fault, other, stops, -⟩ := log_of_not_canRecord unrecorded message
      cases stops.symm.trans ends
    obtain ⟨other, notes, logged⟩ := log_of_canRecord records message
    obtain ⟨-, rfl⟩ := Prod.mk.inj (notes.symm.trans ends)
    exact .noted ran logged (hasLog_of_log ends)

theorem noted_forM {items : List α} {say : α → Message} {result : Except Stop Unit}
    (ends : outcome (items.forM fun item => log (say item)) bench = (result, after)) :
    Ran bench after [] ∧ (result = .ok () ∨
      ∃ item ∈ items, ∃ stop, result = .error stop ∧ StoppedAt (say item) stop after) := by
  induction items generalizing bench with
  | nil =>
    obtain ⟨rfl, rfl⟩ := Prod.mk.inj ends
    exact ⟨.refl bench, Or.inl rfl⟩
  | cons item more ih =>
    rw [List.forM_eq_forM, List.forM_cons] at ends
    rcases outcome_bind_cases ends with ⟨stop, stops, rfl⟩ | ⟨⟨⟩, mid, shows, ends⟩
    · cases noted_log stops with
      | broken ran stopped => exact ⟨ran, Or.inr ⟨item, List.mem_cons_self, stop, rfl, stopped⟩⟩
    · cases noted_log shows with
      | noted ran
      obtain ⟨further, goes⟩ := ih ends
      refine ⟨ran.trans further, goes.imp_right ?_⟩
      rintro ⟨other, later, rest⟩
      exact ⟨other, List.mem_cons_of_mem item later, rest⟩

/-! Commands. -/

def startMessage (words : List String) : Message :=
  { level := .step, text := "+ " ++ commandLine words, indent := 0, timed := false }

def lineMessage (line : List Char) : Message :=
  { level := .step, text := String.ofList (Text.trimRight line), indent := 2, timed := false }

def notFoundMessage (path : String) : Message := { level := .error, text := "Command not found: " ++ path }

/-- What there is to say about a command that ended: that it was not found, or the lines of its output.
A log that is missing at one of the lines is itself taken for a command that was not found. -/
inductive Tells : Ending → Message → Prop
  | notFound (name : String) : Tells (.notFound name) (notFoundMessage name)
  | line {output errors : String} {code : Int} {changes : List (Place × Option Node)} {line : List Char}
      (among : line ∈ Text.feedLines output.toList) :
      Tells (.ended output errors code changes) (lineMessage line)
  | logMissing {output errors : String} {code : Int} {changes : List (Place × Option Node)}
      {line : List Char} (among : line ∈ Text.feedLines output.toList) (path : String) :
      Tells (.ended output errors code changes) (notFoundMessage path)

theorem not_tells_of_silent {errors : String} {code : Int} {changes : List (Place × Option Node)}
    {message : Message} : ¬Tells (.ended "" errors code changes) message := by
  rintro (_ | among | among)
  · cases among
  · cases among

/-- How it can go to tell how a command ended. -/
inductive Concluded (ending : Ending) (bench : Bench) : Except Stop Finished → Bench → Prop
  | known {done : Finished} {after : Bench} (ran : Ran bench after []) (code : done.code = ending.code) :
      Concluded ending bench (.ok done) after
  | unreported {message : Message} {stop : Stop} {after : Bench} (ran : Ran bench after [])
      (tells : Tells ending message) (stopped : StoppedAt message stop after) :
      Concluded ending bench (.error stop) after

theorem outcome_orNotFound_of_ok {work : Work Finished} {done : Finished}
    (ends : outcome work bench = (.ok done, mid)) : outcome (orNotFound work) bench = (.ok done, mid) := by
  unfold orNotFound
  rw [outcome_bind_ok (outcome_attempt_of_ok ends)]
  rfl

theorem outcome_orNotFound_of_missing {work : Work Finished} {fault : FileFault}
    (fails : outcome work bench = (.error (.fault (.file fault)), mid)) (missing : fault.reason = .missing) :
    outcome (orNotFound work) bench = outcome (do
      log (notFoundMessage fault.path)
      return ⟨"", fault.message, -1⟩) mid := by
  unfold orNotFound
  rw [outcome_bind_ok (outcome_attempt_of_fault fails)]
  dsimp only
  rw [if_pos missing]
  rfl

/-- What is no missing file stops the work as it did. -/
theorem outcome_orNotFound_of_other {work : Work Finished} {stop : Stop}
    (fails : outcome work bench = (.error stop, mid))
    (other : ∀ fault, stop = .fault (.file fault) → fault.reason ≠ .missing) :
    outcome (orNotFound work) bench = (.error stop, mid) := by
  unfold orNotFound
  cases stop with
  | exit status =>
    have leaves : outcome (attempt work) bench = (.error (.exit status), mid) := by
      rw [outcome_attempt, fails]
    exact outcome_bind_error leaves _
  | fault fault =>
    rw [outcome_bind_ok (outcome_attempt_of_fault fails)]
    cases fault with
    | file fault => exact congrArg (outcome · mid) (if_neg (other fault rfl))
    | _ => rfl

theorem concluded_of_notFound {name : String} {streamed : Bool} {result : Except Stop Finished}
    (ends : outcome (orNotFound (conclude streamed (.notFound name))) bench = (result, after)) :
    Concluded (.notFound name) bench result after := by
  have fails : outcome (conclude streamed (.notFound name)) bench =
      (.error (.fault (.file { reason := .missing, path := name })), bench) := rfl
  rw [outcome_orNotFound_of_missing fails rfl] at ends
  rcases outcome_bind_cases ends with ⟨stop, stops, rfl⟩ | ⟨⟨⟩, told, shows, ends⟩
  · cases noted_log stops with
    | broken ran stopped => exact .unreported ran (.notFound name) stopped
  · cases noted_log shows with
    | noted ran
    obtain ⟨rfl, rfl⟩ := Prod.mk.inj ends
    exact .known ran rfl

/-- Where a line cannot be recorded the log is no better for a second message. -/
theorem concluded_of_line {output errors : String} {code : Int} {changes : List (Place × Option Node)}
    {line : List Char} {work : Work Finished} {stop : Stop} {result : Except Stop Finished}
    (among : line ∈ Text.feedLines output.toList) (ran : Ran bench mid [])
    (fails : outcome work bench = (.error stop, mid)) (stopped : StoppedAt (lineMessage line) stop mid)
    (ends : outcome (orNotFound work) bench = (result, after)) :
    Concluded (.ended output errors code changes) bench result after := by
  by_cases missing : ∃ fault, stop = .fault (.file fault) ∧ fault.reason = .missing
  · obtain ⟨fault, rfl, missing⟩ := missing
    rw [outcome_orNotFound_of_missing fails missing] at ends
    obtain ⟨again, last, stops, -⟩ := log_of_not_canRecord stopped.broken (notFoundMessage fault.path)
    have more := startsNone_log (notFoundMessage fault.path) mid
    rw [stops] at more
    obtain ⟨rfl, rfl⟩ := Prod.mk.inj ((outcome_bind_error stops _).symm.trans ends)
    exact .unreported (ran.trans more) (.logMissing among fault.path) ⟨mid, stops⟩
  · have other : ∀ fault, stop = .fault (.file fault) → fault.reason ≠ .missing :=
      fun fault same here => missing ⟨fault, same, here⟩
    obtain ⟨rfl, rfl⟩ := Prod.mk.inj ((outcome_orNotFound_of_other fails other).symm.trans ends)
    exact .unreported ran (.line among) stopped

theorem concluded_conclude {ending : Ending} {streamed : Bool} {result : Except Stop Finished}
    (ends : outcome (orNotFound (conclude streamed ending)) bench = (result, after)) :
    Concluded ending bench result after := by
  cases ending with
  | notFound name => exact concluded_of_notFound ends
  | ended output errors code changes =>
    let changed := bench.onTree fun tree =>
      changes.foldl (fun tree change => tree.change change.1 change.2) tree
    have quiet : Ran bench changed [] := .onTree bench _
    cases streamed with
    | false =>
      have done : outcome (conclude false (.ended output errors code changes)) bench =
          (.ok ⟨output, errors, code⟩, changed) := rfl
      obtain ⟨rfl, rfl⟩ := Prod.mk.inj ((outcome_orNotFound_of_ok done).symm.trans ends)
      exact .known quiet rfl
    | true =>
      have goes : outcome (conclude true (.ended output errors code changes)) bench = outcome (do
          (Text.feedLines output.toList).forM fun line => log (lineMessage line)
          return ⟨output, "", code⟩) changed := rfl
      rcases tells : outcome ((Text.feedLines output.toList).forM fun line => log (lineMessage line)) changed
        with ⟨told, mid⟩
      -- a line that is not recorded ends the telling, and may be taken for a missing command
      obtain ⟨more, rfl | ⟨line, among, stop, rfl, stopped⟩⟩ := noted_forM tells
      · obtain ⟨rfl, rfl⟩ := Prod.mk.inj
          ((outcome_orNotFound_of_ok (goes.trans (outcome_bind_ok tells _))).symm.trans ends)
        exact .known (quiet.trans more) rfl
      · exact concluded_of_line among (quiet.trans more) (goes.trans (outcome_bind_error tells _)) stopped ends

theorem outcome_nextEnding (bench : Bench) : outcome nextEnding bench =
    (.ok (bench.ending 0), { bench with endings := bench.endings.drop 1 }) := by
  obtain ⟨tree, surroundings, endings, started, input, output, errors⟩ := bench
  cases endings with
  | nil => rfl
  | cons ending more => rfl

/-- How running a command can go. -/
inductive Run (command : Started) (bench : Bench) : Except Stop Finished → Bench → Prop
  | unstarted {stop : Stop} {after : Bench} (ran : Ran bench after [])
      (stopped : StoppedAt (startMessage command.words) stop after) : Run command bench (.error stop) after
  | unreported {message : Message} {stop : Stop} {after : Bench} (ran : Ran bench after [command])
      (tells : Tells (bench.ending 0) message) (stopped : StoppedAt message stop after) :
      Run command bench (.error stop) after
  | finished {done : Finished} {after : Bench} (ran : Ran bench after [command])
      (code : done.code = bench.code 0) : Run command bench (.ok done) after

theorem run_runCommand {words : List String} {folder : Option String} {streamed : Bool}
    {result : Except Stop Finished}
    (ends : outcome (runCommand words folder streamed) bench = (result, after)) :
    Run ⟨words, folder, streamed⟩ bench result after := by
  rcases outcome_bind_cases ends with ⟨stop, stops, rfl⟩ | ⟨⟨⟩, mid, shows, ends⟩
  · cases noted_log stops with
    | broken ran stopped => exact .unstarted ran stopped
  cases noted_log shows with
  | noted ran
  -- the command counts as started before its ending is taken
  let counted : Bench := { mid with started := mid.started ++ [⟨words, folder, streamed⟩] }
  let begun : Bench := { counted with endings := mid.endings.drop 1 }
  have starts : Ran bench begun [⟨words, folder, streamed⟩] := ran.trans ⟨rfl, rfl, rfl⟩
  have same : mid.ending 0 = bench.ending 0 := ran.ending 0
  rw [outcome_bind_ok (show outcome (modify _) mid = (.ok (), counted) from rfl),
    outcome_bind_ok (outcome_nextEnding counted)] at ends
  cases concluded_conclude ends with
  | known more code => exact .finished (starts.trans more) (code.trans (congrArg Ending.code same))
  | unreported more tells stopped => exact .unreported (starts.trans more) (same ▸ tells) stopped

end Work

end JuceWorkbench
