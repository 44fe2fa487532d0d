import JuceWorkbench.Proofs.Bench.Starting

/-! What running a command keeps. The command is counted as started, one ending is used up, and the
changes of that ending are made one after another; the rest is logging. -/

namespace JuceWorkbench

def Ending.changes : Ending → List (Place × Option Node)
  | .notFound _ => []
  | .ended _ _ _ changes => changes

/-- What holds of the changes of all endings holds of those of the next; a command that has none left
changes nothing. -/
theorem Bench.forall_changes {bench : Bench} {spares : Place × Option Node → Prop}
    (spared : ∀ ending ∈ bench.endings, ∀ change ∈ ending.changes, spares change) :
    ∀ change ∈ (bench.ending 0).changes, spares change := by
  unfold Bench.ending
  cases next : bench.endings with
  | nil => rintro change ⟨⟩
  | cons ending more => exact spared ending (next ▸ List.mem_cons_self)

namespace Work

variable {kept : Bench → Prop} {spares : Place × Option Node → Prop}

theorem kept_changes
    (changes : ∀ {bench : Bench} {change : Place × Option Node}, kept bench → spares change →
      kept (bench.onTree (·.change change.1 change.2)))
    {made : List (Place × Option Node)} (spared : ∀ change ∈ made, spares change) {bench : Bench}
    (holds : kept bench) :
    kept (bench.onTree fun tree => made.foldl (fun tree change => tree.change change.1 change.2) tree) := by
  induction made generalizing bench with
  | nil => exact holds
  | cons change more ih =>
    exact ih (fun other later => spared other (List.mem_cons_of_mem change later))
      (changes holds (spared change List.mem_cons_self))

theorem keeps_conclude (logs : ∀ message, Keeps kept (Work.log message))
    (changes : ∀ {bench : Bench} {change : Place × Option Node}, kept bench → spares change →
      kept (bench.onTree (·.change change.1 change.2)))
    {ending : Ending} (spared : ∀ change ∈ ending.changes, spares change) (streamed : Bool) :
    Keeps kept (conclude streamed ending) := by
  cases ending with
  | notFound name => exact Yields.fail _
  | ended output errors code made =>
    intro bench holds
    unfold conclude
    rw [outcome_bind_ok (outcome_tree bench), outcome_bind_ok (outcome_setTree _ bench)]
    refine (?_ : Keeps kept _) _ (kept_changes changes spared holds)
    split
    · exact Keeps.bind (Keeps.forM fun line _ => logs _) fun _ => Keeps.pure _
    · exact Keeps.pure _

theorem keeps_orNotFound (logs : ∀ message, Keeps kept (Work.log message)) {work : Work Finished}
    (keeps : Keeps kept work) : Keeps kept (orNotFound work) := by
  refine Yields.bind keeps.attempt fun result _ => ?_
  split
  · exact Keeps.pure _
  · split
    · exact Keeps.bind (logs _) fun _ => Keeps.pure _
    · exact Yields.fail _
  · exact Yields.fail _

/-- A command keeps what is kept by its start, by the end of the endings it leaves and by its changes. -/
theorem keeps_runCommand (logs : ∀ message, Keeps kept (Work.log message)) (words : List String)
    (folder : Option String) (streamed : Bool)
    (starts : ∀ {bench : Bench}, kept bench →
      (∀ change ∈ (bench.ending 0).changes, spares change) ∧ kept { bench with
        started := bench.started ++ [⟨words, folder, streamed⟩], endings := bench.endings.drop 1 })
    (changes : ∀ {bench : Bench} {change : Place × Option Node}, kept bench → spares change →
      kept (bench.onTree (·.change change.1 change.2))) :
    Keeps kept (runCommand words folder streamed) := by
  refine Keeps.bind (logs _) fun _ => ?_
  intro bench holds
  obtain ⟨spared, begun⟩ := starts holds
  rw [outcome_bind_ok (show outcome (modify _) bench = _ from rfl), outcome_bind_ok (outcome_nextEnding _)]
  exact keeps_orNotFound logs (keeps_conclude logs changes spared streamed) _ begun

end Work

end JuceWorkbench
