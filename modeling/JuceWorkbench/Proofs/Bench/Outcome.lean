import JuceWorkbench.Bench.Basic

/-! How work at a bench ends. Each way to put work together has one equation here, so that nothing
else looks into the layers work is made of. -/

namespace JuceWorkbench

theorem toOption_eq_some_iff {ε α : Type} {result : Except ε α} {value : α} :
    result.toOption = some value ↔ result = .ok value := by
  cases result <;> simp [Except.toOption]

theorem eq_of_toOption {ε α β : Type} {result : Except ε α × β} {value : α}
    (ends : result.1.toOption = some value) : result = (.ok value, result.2) :=
  Prod.ext (toOption_eq_some_iff.1 ends) rfl

theorem exists_error_of_toOption {ε α β : Type} {result : Except ε α × β}
    (fails : result.1.toOption = none) : ∃ error, result = (.error error, result.2) := by
  rcases result with ⟨error | value, rest⟩
  · exact ⟨error, rfl⟩
  · cases fails

namespace Work

variable {α β : Type}

/-- How work at a bench ends, and the bench it leaves. -/
def outcome (work : Work α) (bench : Bench) : Except Stop α × Bench := work.run.run bench

theorem outcome_pure (value : α) (bench : Bench) : outcome (pure value) bench = (.ok value, bench) := rfl

theorem outcome_bind (work : Work α) (next : α → Work β) (bench : Bench) :
    outcome (work >>= next) bench =
      match outcome work bench with
      | (.ok value, after) => outcome (next value) after
      | (.error stop, after) => (.error stop, after) := by
  unfold outcome
  rw [ExceptT.run_bind, StateT.run_bind]
  rcases (work.run.run bench : Except Stop α × Bench) with ⟨stop | value, after⟩ <;> rfl

theorem outcome_bind_ok {work : Work α} {bench after : Bench} {value : α}
    (ends : outcome work bench = (.ok value, after)) (next : α → Work β) :
    outcome (work >>= next) bench = outcome (next value) after := by
  rw [outcome_bind, ends]

theorem outcome_bind_error {work : Work α} {bench after : Bench} {stop : Stop}
    (ends : outcome work bench = (.error stop, after)) (next : α → Work β) :
    outcome (work >>= next) bench = (.error stop, after) := by
  rw [outcome_bind, ends]

theorem exists_mid {work : Work α} {next : α → Work β} {bench after : Bench} {value : β}
    (ends : outcome (work >>= next) bench = (.ok value, after)) :
    ∃ done mid, outcome work bench = (.ok done, mid) ∧ outcome (next done) mid = (.ok value, after) := by
  rw [outcome_bind] at ends
  rcases does : outcome work bench with ⟨stop | done, mid⟩
  all_goals rw [does] at ends
  · cases ends
  · exact ⟨done, mid, rfl, ends⟩

theorem outcome_bind_cases {work : Work α} {next : α → Work β} {bench after : Bench} {result : Except Stop β}
    (ends : outcome (work >>= next) bench = (result, after)) :
    (∃ stop, outcome work bench = (.error stop, after) ∧ result = .error stop) ∨
      ∃ done mid, outcome work bench = (.ok done, mid) ∧ outcome (next done) mid = (result, after) := by
  rw [outcome_bind] at ends
  rcases does : outcome work bench with ⟨stop | done, mid⟩
  all_goals rw [does] at ends
  · obtain ⟨rfl, rfl⟩ := Prod.mk.inj ends
    exact Or.inl ⟨stop, rfl, rfl⟩
  · exact Or.inr ⟨done, mid, rfl, ends⟩

theorem outcome_fail (fault : Fault) (bench : Bench) :
    outcome (fail fault : Work α) bench = (.error (.fault fault), bench) := rfl

theorem outcome_surroundings (bench : Bench) :
    outcome surroundings bench = (.ok bench.surroundings, bench) := rfl

theorem outcome_tree (bench : Bench) : outcome tree bench = (.ok bench.tree, bench) := rfl

theorem outcome_here (bench : Bench) : outcome here bench = (.ok bench.surroundings.here, bench) := rfl

theorem outcome_setTree (tree : FileTree) (bench : Bench) :
    outcome (setTree tree) bench = (.ok (), { bench with tree }) := rfl

theorem outcome_tryCatch (work : Work α) (handler : Stop → Work α) (bench : Bench) :
    outcome (tryCatch work handler) bench =
      match outcome work bench with
      | (.ok value, after) => (.ok value, after)
      | (.error stop, after) => outcome (handler stop) after := by
  unfold outcome
  rw [ExceptT.run_tryCatch, StateT.run_bind]
  rcases (work.run.run bench : Except Stop α × Bench) with ⟨stop | value, after⟩ <;> rfl

theorem outcome_attempt (work : Work α) (bench : Bench) :
    outcome (attempt work) bench =
      match outcome work bench with
      | (.ok value, after) => (.ok (.ok value), after)
      | (.error (.fault fault), after) => (.ok (.error fault), after)
      | (.error (.exit status), after) => (.error (.exit status), after) := by
  unfold outcome attempt
  rw [ExceptT.run_tryCatch, ExceptT.run_map, StateT.run_bind, StateT.run_map]
  rcases (work.run.run bench : Except Stop α × Bench) with ⟨(fault | status) | value, after⟩ <;> rfl

theorem outcome_attempt_of_ok {work : Work α} {bench after : Bench} {value : α}
    (ends : outcome work bench = (.ok value, after)) :
    outcome (attempt work) bench = (.ok (.ok value), after) := by
  rw [outcome_attempt, ends]

theorem outcome_attempt_of_fault {work : Work α} {bench after : Bench} {fault : Fault}
    (ends : outcome work bench = (.error (.fault fault), after)) :
    outcome (attempt work) bench = (.ok (.error fault), after) := by
  rw [outcome_attempt, ends]

end Work

end JuceWorkbench
