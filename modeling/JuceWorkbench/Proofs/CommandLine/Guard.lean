import JuceWorkbench.CommandLine.Guard
import JuceWorkbench.Proofs.Bench.Keeping

/-! The guards around a command only log, so what the command left is not taken away by them. A
fault that reaches them comes out as exit status one. -/

namespace JuceWorkbench.CommandLine
open Work

section Kept

variable {α : Type} {kept : Bench → Prop} {bench : Bench}
  (logs : ∀ message, Keeps kept (Work.log message))
include logs

theorem keeps_reportAndExit (heading : String) (fault : Fault) :
    Keeps kept (reportAndExit heading fault : Work α) :=
  Keeps.bind (logs _) fun _ => Keeps.bind (Keeps.reportFault (fun _ _ => logs _) fault) fun _ =>
    Yields.exit 1

theorem keeps_handle (fault : Fault) : Keeps kept (handle fault : Work α) := by
  unfold handle
  split
  · exact Keeps.bind (logs _) fun _ => Yields.exit 1
  · split
    · exact Yields.fail fault
    · split
      · exact Keeps.bind (logs _) fun _ => Yields.exit 1
      · split
        · exact keeps_reportAndExit logs _ fault
        · exact keeps_reportAndExit logs _ fault

theorem kept_guarded {work : Work α} (holds : kept (outcome work bench).2) :
    kept (outcome (guarded work) bench).2 := by
  refine kept_tryCatch ?_ holds
  intro stop
  cases stop with
  | fault fault => exact keeps_handle logs fault
  | exit status => exact Yields.exit status

omit logs in
theorem kept_lastResort_of_complains
    (complains : ∀ message, Complains message → Keeps kept (Work.log message)) {work : Work Unit}
    (holds : kept (outcome work bench).2) : kept (outcome (lastResort work) bench).2 := by
  refine kept_tryCatch ?_ holds
  intro stop
  cases stop with
  | fault fault =>
    exact Keeps.bind (complains _ (.trouble _ rfl)) fun _ =>
      Keeps.bind (complains _ (.advice _ (by decide))) fun _ =>
        Keeps.bind (Keeps.reportFault (fun _ level => complains _ (.trouble _ level)) fault) fun _ =>
          Yields.exit 1
  | exit status => exact Yields.exit status

theorem kept_lastResort {work : Work Unit} (holds : kept (outcome work bench).2) :
    kept (outcome (lastResort work) bench).2 :=
  kept_lastResort_of_complains (fun message _ => logs message) holds

end Kept

/-! The exit status of a fault. -/

/-- A result that the shell sees as exit status one. -/
def IsFailure {α : Type} (result : Except Stop α) : Prop :=
  result = .error (.exit 1) ∨ ∃ fault, result = .error (.fault fault)

/-- Work that comes to no end but exit status one or a fault. -/
def Fails {α : Type} (work : Work α) : Prop := ∀ bench, IsFailure (outcome work bench).1

def NeverExits {α : Type} (work : Work α) : Prop :=
  ∀ bench status, (outcome work bench).1 ≠ .error (.exit status)

section Failing

variable {α β : Type} {bench after : Bench}

theorem NeverExits.pure (value : α) : NeverExits (Pure.pure value : Work α) := by
  rintro bench status ⟨⟩

theorem NeverExits.bind {work : Work α} {next : α → Work β} (first : NeverExits work)
    (second : ∀ value, NeverExits (next value)) : NeverExits (work >>= next) := by
  intro bench status
  rw [outcome_bind]
  rcases ends : outcome work bench with ⟨(fault | other) | value, mid⟩
  · rintro ⟨⟩
  · exact absurd (congrArg Prod.fst ends) (first bench other)
  · exact second value mid status

theorem NeverExits.forM {items : List α} {next : α → Work Unit} (each : ∀ item, NeverExits (next item)) :
    NeverExits (items.forM next) := by
  induction items with
  | nil => exact NeverExits.pure ()
  | cons item more ih =>
    rw [List.forM_eq_forM, List.forM_cons]
    exact NeverExits.bind (each item) fun _ => ih

theorem neverExits_log (message : Message) : NeverExits (Work.log message) := by
  intro bench status
  by_cases records : bench.CanRecord
  · obtain ⟨after, ends, -⟩ := log_of_canRecord records message
    rw [ends]
    rintro ⟨⟩
  · obtain ⟨fault, after, ends, -⟩ := log_of_not_canRecord records message
    rw [ends]
    rintro ⟨⟩

theorem neverExits_reportFault (fault : Fault) : NeverExits (Work.reportFault fault) :=
  NeverExits.bind (neverExits_log _) fun _ => NeverExits.forM fun _ => neverExits_log _

theorem fails_exit : Fails (Work.exit 1 : Work α) := fun _ => Or.inl rfl

theorem fails_fail (fault : Fault) : Fails (Work.fail fault : Work α) := fun _ => Or.inr ⟨fault, rfl⟩

theorem NeverExits.fails {work : Work α} {next : α → Work β} (first : NeverExits work)
    (second : ∀ value, Fails (next value)) : Fails (work >>= next) := by
  intro bench
  rw [outcome_bind]
  rcases ends : outcome work bench with ⟨(fault | other) | value, mid⟩
  · exact Or.inr ⟨fault, rfl⟩
  · exact absurd (congrArg Prod.fst ends) (first bench other)
  · exact second value mid

theorem fails_reportAndExit (heading : String) (fault : Fault) :
    Fails (reportAndExit heading fault : Work α) :=
  (neverExits_log _).fails fun _ => (neverExits_reportFault fault).fails fun _ => fails_exit

theorem fails_handle (fault : Fault) : Fails (handle fault : Work α) := by
  unfold handle
  split
  · exact (neverExits_log _).fails fun _ => fails_exit
  · split
    · exact fails_fail fault
    · split
      · exact (neverExits_log _).fails fun _ => fails_exit
      · split
        · exact fails_reportAndExit _ fault
        · exact fails_reportAndExit _ fault

theorem outcome_guarded_of_fault {work : Work α} {fault : Fault}
    (stops : outcome work bench = (.error (.fault fault), after)) :
    outcome (guarded work) bench = outcome (handle fault) after := by
  unfold guarded
  rw [outcome_tryCatch, stops]

theorem outcome_lastResort_congr {work other : Work Unit} (same : outcome work bench = outcome other after) :
    outcome (lastResort work) bench = outcome (lastResort other) after := by
  unfold lastResort
  rw [outcome_tryCatch, outcome_tryCatch, same]

theorem isFailure_lastResort {work : Work Unit} (fails : IsFailure (outcome work bench).1) :
    IsFailure (outcome (lastResort work) bench).1 := by
  unfold lastResort
  rw [outcome_tryCatch]
  rcases ends : outcome work bench with ⟨stop | value, mid⟩
  all_goals rw [ends] at fails
  · rcases fails with done | ⟨fault, done⟩
    · cases done
      exact Or.inl rfl
    · cases done
      have handled : Fails (do
          Work.error ("An unexpected error occurred: " ++ fault.message)
          Work.info "Please report this issue to the jucebuilder developers."
          Work.reportFault fault
          Work.exit 1 : Work Unit) :=
        (neverExits_log _).fails fun _ => (neverExits_log _).fails fun _ =>
          (neverExits_reportFault fault).fails fun _ => fails_exit
      exact handled mid
  · rcases fails with done | ⟨fault, done⟩
    · cases done
    · cases done

end Failing

end JuceWorkbench.CommandLine
