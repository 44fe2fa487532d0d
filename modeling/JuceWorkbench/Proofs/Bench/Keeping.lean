import JuceWorkbench.Bench.Log
import JuceWorkbench.Proofs.Bench.Files

/-! Properties of a bench that work keeps, however it ends, with something known of the value if it
ends with one. There is one rule for each way to put work together. -/

namespace JuceWorkbench.Work

variable {α β : Type} {kept : Bench → Prop} {good : α → Prop} {fine : β → Prop}

/-- Work keeps a property of the bench, and its value is `good` if it has one. -/
def Yields (kept : Bench → Prop) (work : Work α) (good : α → Prop) : Prop :=
  ∀ bench, kept bench → kept (outcome work bench).2 ∧
    ∀ value, (outcome work bench).1 = .ok value → good value

abbrev Keeps (kept : Bench → Prop) (work : Work α) : Prop := Yields kept work fun _ => True

theorem Yields.pure {value : α} (holds : good value) : Yields kept (Pure.pure value) good := by
  intro bench before
  refine ⟨before, ?_⟩
  rintro other ⟨⟩
  exact holds

theorem Keeps.pure (value : α) : Keeps kept (Pure.pure value : Work α) := Yields.pure trivial

theorem Yields.fail (fault : Fault) : Yields kept (Work.fail fault : Work α) good := by
  intro bench before
  refine ⟨before, ?_⟩
  rintro value ⟨⟩

theorem Yields.exit (status : Int) : Yields kept (Work.exit status : Work α) good := by
  intro bench before
  refine ⟨before, ?_⟩
  rintro value ⟨⟩

theorem Yields.ofExcept {result : Except Fault α} (holds : ∀ value, result = .ok value → good value) :
    Yields kept (Work.ofExcept result) good := by
  cases result with
  | ok value => exact Yields.pure (holds value rfl)
  | error fault => exact Yields.fail fault

theorem Yields.bind {work : Work α} {next : α → Work β} (first : Yields kept work good)
    (second : ∀ value, good value → Yields kept (next value) fine) :
    Yields kept (work >>= next) fine := by
  intro bench before
  obtain ⟨still, holds⟩ := first bench before
  cases ends : outcome work bench with
  | mk result after =>
    rw [ends] at still holds
    cases result with
    | ok value =>
      rw [outcome_bind_ok ends]
      exact second value (holds value rfl) after still
    | error stop =>
      rw [outcome_bind_error ends]
      exact ⟨still, by rintro value ⟨⟩⟩

theorem Keeps.bind {work : Work α} {next : α → Work β} (first : Keeps kept work)
    (second : ∀ value, Yields kept (next value) fine) : Yields kept (work >>= next) fine :=
  Yields.bind first fun value _ => second value

theorem Yields.attempt {work : Work α} (yields : Yields kept work good) :
    Yields kept (Work.attempt work) fun result => ∀ value, result = .ok value → good value := by
  intro bench before
  obtain ⟨still, holds⟩ := yields bench before
  rw [outcome_attempt]
  rcases ends : outcome work bench with ⟨(fault | status) | value, after⟩
  all_goals rw [ends] at still holds; refine ⟨still, ?_⟩
  · rintro result ⟨⟩ value ⟨⟩
  · rintro result ⟨⟩
  · rintro result ⟨⟩ other ⟨⟩
    exact holds value rfl

/-- What holds once the work has ended still holds once more work was done. -/
theorem kept_bind_of_value {work : Work α} {next : α → Work β} {bench : Bench}
    (goes : ∀ value, (outcome work bench).1 = .ok value → Keeps kept (next value))
    (holds : kept (outcome work bench).2) : kept (outcome (work >>= next) bench).2 := by
  rw [outcome_bind]
  rcases ends : outcome work bench with ⟨stop | value, after⟩
  all_goals rw [ends] at holds
  · exact holds
  · exact (goes value (congrArg Prod.fst ends) after holds).1

theorem kept_bind {work : Work α} {next : α → Work β} (goes : ∀ value, Keeps kept (next value))
    {bench : Bench} (holds : kept (outcome work bench).2) :
    kept (outcome (work >>= next) bench).2 := kept_bind_of_value (fun value _ => goes value) holds

theorem kept_tryCatch {work : Work α} {handler : Stop → Work α}
    (handles : ∀ stop, Keeps kept (handler stop)) {bench : Bench} (holds : kept (outcome work bench).2) :
    kept (outcome (MonadExcept.tryCatch work handler) bench).2 := by
  rw [outcome_tryCatch]
  rcases ends : outcome work bench with ⟨stop | value, after⟩
  all_goals rw [ends] at holds
  · exact (handles stop after holds).1
  · exact holds

theorem Keeps.forM {items : List α} {next : α → Work Unit}
    (each : ∀ item ∈ items, Keeps kept (next item)) : Keeps kept (items.forM next) := by
  induction items with
  | nil => exact Keeps.pure ()
  | cons item more ih =>
    rw [List.forM_eq_forM, List.forM_cons]
    exact Keeps.bind (each item List.mem_cons_self) fun _ =>
      ih fun other later => each other (List.mem_cons_of_mem item later)

theorem Keeps.of_unchanged {work : Work α} {read : Bench → Except Stop α}
    (same : ∀ bench, outcome work bench = (read bench, bench)) : Keeps kept work := by
  intro bench before
  rw [same]
  exact ⟨before, fun _ _ => trivial⟩

/-! Properties that logging cannot take away. -/

/-- Messages of trouble, and the advice that goes with it. -/
inductive Complains : Message → Prop
  | trouble (message : Message) (level : message.level.isTrouble = true) : Complains message
  | advice (text : String) (asks : "Please".toList <+: text.toList) : Complains { level := .info, text }

theorem Keeps.log (stable : ∀ {bench after : Bench}, kept bench → Logged bench after → kept after)
    (message : Message) : Keeps kept (Work.log message) := by
  intro bench before
  refine ⟨?_, fun _ _ => trivial⟩
  by_cases records : bench.CanRecord
  · obtain ⟨after, ends, logged⟩ := log_of_canRecord records message
    rw [ends]
    exact stable before logged
  · obtain ⟨fault, after, ends, logged⟩ := log_of_not_canRecord records message
    rw [ends]
    exact stable before logged

theorem yields_reported (logs : ∀ message, Complains message → Keeps kept (Work.log message))
    (trouble : String) {advice : String} (asks : "Please".toList <+: advice.toList) {value : α}
    (holds : good value) : Yields kept (reported trouble advice value) good :=
  Keeps.bind (logs _ (.trouble _ rfl)) fun _ => Keeps.bind (logs _ (.advice _ asks)) fun _ => Yields.pure holds

theorem Keeps.reportFault
    (logs : ∀ message : Message, message.level.isTrouble = true → Keeps kept (Work.log message))
    (fault : Fault) : Keeps kept (Work.reportFault fault) :=
  Keeps.bind (logs _ rfl) fun _ => Keeps.forM fun _ _ => logs _ rfl

end JuceWorkbench.Work
