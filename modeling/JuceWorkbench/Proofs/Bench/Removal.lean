import JuceWorkbench.Proofs.Bench.Changes
import JuceWorkbench.Proofs.Path.Route
import JuceWorkbench.Proofs.Tree.Removal

/-! Benches where something was removed. A property of the places that may be touched bounds what was
changed, however the removal ended. Once it has ended well, what a path leads to tells where it led
before, so that a later command finds what an earlier one found. -/

namespace JuceWorkbench

/-- Since then things were removed from the tree, and nothing changed but at some places. -/
structure OnlyTouched (bench : Bench) (touched : Place → Prop) (later : Bench) : Prop where
  surroundings : later.surroundings = bench.surroundings
  passes : FileTree.Passes later.tree bench.tree
  same : ∀ spot, ¬touched spot → later.tree.get? spot = bench.tree.get? spot

namespace OnlyTouched

variable {bench later last : Bench} {touched : Place → Prop} {path : String} {follow : Bool}
  {location : FileTree.Location} {place : Place}

theorem refl (bench : Bench) (touched : Place → Prop) : OnlyTouched bench touched bench :=
  ⟨rfl, .refl _, fun _ _ => rfl⟩

theorem erase (only : OnlyTouched bench touched later) (may : touched place) :
    OnlyTouched bench touched (later.onTree (·.erase place)) where
  surroundings := only.surroundings
  passes := (FileTree.Passes.of_erase fun _ _ => rfl).trans only.passes
  same := by
    intro spot spared
    have other : spot ≠ place := fun same => spared (same ▸ may)
    exact (FileTree.get?_erase_of_ne later.tree other).trans (only.same spot spared)

theorem locate (only : OnlyTouched bench touched later)
    (leads : later.tree.locate follow later.surroundings.place path = .ok location)
    (spared : location.takesFile = true → ¬touched location.place) :
    bench.tree.locate follow bench.surroundings.place path = .ok location := by
  rw [only.surroundings] at leads
  obtain ⟨start, goes, way⟩ := FileTree.way_of_locate leads
  exact goes _ _ _ (way.same only.passes fun file => (only.same _ (spared file)).symm)

theorem log (only : OnlyTouched bench touched later) (logged : Logged later last)
    (may : ∀ location, Opens bench.tree bench.surroundings bench.surroundings.logFile location →
      touched location.place) : OnlyTouched bench touched last := by
  have surroundings := logged.surroundings.trans only.surroundings
  rcases logged.tree with same | ⟨location, contents, mode, opens, written⟩
  · exact ⟨surroundings, same ▸ only.passes, same ▸ only.same⟩
  · have here : touched location.place := by
      refine Classical.byContradiction fun spared => spared (may location ?_)
      rw [only.surroundings] at opens
      refine ⟨⟨opens.named, only.locate ?_ fun _ => spared⟩, opens.writes, opens.file⟩
      rw [only.surroundings]
      exact opens.leads
    refine ⟨surroundings, written ▸ (FileTree.Passes.of_put ..).trans only.passes, fun spot spared => ?_⟩
    have other : spot ≠ location.place := fun same => spared (same ▸ here)
    rw [written, FileTree.get?_put_of_ne _ other, only.same spot spared]

end OnlyTouched

theorem Logged.passes {bench after : Bench} (logged : Logged bench after) :
    FileTree.Passes after.tree bench.tree := by
  rcases logged.tree with same | ⟨location, contents, mode, -, written⟩
  · exact same ▸ .refl _
  · exact written ▸ .of_put ..

/-- The log leads to another place than a path. -/
def Bench.LogsBeside (bench : Bench) (path : String) : Prop :=
  ∀ log found, bench.tree.locate true bench.surroundings.place bench.surroundings.logFile = .ok log →
    bench.tree.locate true bench.surroundings.place path = .ok found → log.place ≠ found.place

theorem Bench.LogsBeside.of_leads {bench : Bench} {path : String} {log found : FileTree.Location}
    (leads : bench.tree.locate true bench.surroundings.place bench.surroundings.logFile = .ok log)
    (led : bench.tree.locate true bench.surroundings.place path = .ok found) (apart : log.place ≠ found.place) :
    bench.LogsBeside path := by
  intro other place again still
  cases leads.symm.trans again
  cases led.symm.trans still
  exact apart

/-- What a path leads to it led to before; it may have been removed since. -/
structure Shows (path : String) (bench later : Bench) : Prop where
  surroundings : later.surroundings = bench.surroundings
  taken : ∀ {place node}, later.tree.locate true later.surroundings.place path = .ok (.taken place node) →
    bench.tree.locate true bench.surroundings.place path = .ok (.taken place node)

section Shows

variable {bench later last : Bench} {path : String}

theorem Shows.refl (path : String) (bench : Bench) : Shows path bench bench := ⟨rfl, id⟩

theorem Shows.trans (first : Shows path bench later) (second : Shows path later last) : Shows path bench last :=
  ⟨second.surroundings.trans first.surroundings, fun leads => first.taken (second.taken leads)⟩

theorem Bench.LogsBeside.log (beside : bench.LogsBeside path) (logged : Logged bench later) :
    later.LogsBeside path ∧ Shows path bench later := by
  rcases logged with ⟨surroundings, same | ⟨location, contents, mode, opens, written⟩⟩
  · unfold Bench.LogsBeside
    rw [same, surroundings]
    exact ⟨beside, surroundings, by rw [same, surroundings]; exact id⟩
  · have takes := FileTree.takesFile_of_locate opens.leads opens.file
    have away : ∀ found, later.tree.locate true later.surroundings.place path = .ok found →
        location.place ≠ found.place := by
      intro found leads
      rw [written, surroundings] at leads
      obtain ⟨before, led, same⟩ := FileTree.exists_locate_of_put takes leads
      exact same ▸ beside location before opens.leads led
    constructor
    · intro log found leads
      rw [written, surroundings, (opens.put contents mode).leads] at leads
      cases leads
      exact away found
    · refine ⟨surroundings, fun leads => ?_⟩
      have apart := away _ leads
      rw [written, surroundings] at leads
      exact FileTree.locate_of_put leads fun _ same => apart same.symm

end Shows

/-- A folder was removed with everything in it, and nothing else was changed. -/
structure Emptied (bench : Bench) (folder : Place) (after : Bench) : Prop where
  surroundings : after.surroundings = bench.surroundings
  lacks : after.tree.Lacks folder bench.tree
  gone : after.tree.get? folder = none

section Emptied

variable {bench after : Bench} {folder : Place} {path : String} (emptied : Emptied bench folder after)
  (rooted : folder ≠ []) (absolute : Path.isAbsolute path = true)
include emptied rooted absolute

theorem Emptied.shows : Shows path bench after := by
  refine ⟨emptied.surroundings, fun leads => ?_⟩
  rw [emptied.surroundings] at leads
  exact FileTree.locate_of_lacks absolute emptied.gone rooted emptied.lacks leads

theorem Emptied.beside (stood : bench.tree.get? folder = some .folder)
    (absoluteLog : Path.isAbsolute bench.surroundings.logFile = true) (beside : bench.LogsBeside path) :
    after.LogsBeside path := by
  intro log found leads led
  rw [emptied.surroundings] at leads led
  obtain ⟨oldLog, ledLog, sameLog⟩ :=
    FileTree.exists_locate_of_lacks absoluteLog emptied.gone rooted emptied.lacks stood leads
  obtain ⟨old, ledOld, same⟩ :=
    FileTree.exists_locate_of_lacks absolute emptied.gone rooted emptied.lacks stood led
  rw [← sameLog, ← same]
  exact beside oldLog old ledLog ledOld

end Emptied

theorem Emptied.isFolder {bench after : Bench} {folder : Place} {path name : String}
    (emptied : Emptied bench folder after) (finds : bench.Finds path (.taken folder .folder))
    (last : (FileTree.pathParts path).getLast? = some name) (plain : Path.IsPlain name.toList) :
    after.tree.isFolder after.surroundings.place path = false := by
  obtain ⟨front, parts⟩ := List.getLast?_eq_some_iff.1 last
  rw [emptied.surroundings]
  exact FileTree.not_isFolder_of_gone finds parts (Path.isPart_of_isPlain plain) emptied.lacks.passes emptied.gone

theorem Bench.Finds.stands {bench : Bench} {path name : String} {folder : Place}
    (finds : bench.Finds path (.taken folder .folder))
    (last : (FileTree.pathParts path).getLast? = some name) (plain : Path.IsPlain name.toList) :
    folder ≠ [] ∧ bench.tree.get? folder = some .folder := by
  obtain ⟨front, parts⟩ := List.getLast?_eq_some_iff.1 last
  obtain ⟨start, -, way⟩ := FileTree.way_of_locate finds
  obtain ⟨-, above, -, ends⟩ := way.unstep parts (Path.isPart_of_isPlain plain)
  rcases ends with ⟨place, there⟩ | ⟨follows, -⟩
  · rw [← place] at there
    refine ⟨?_, there⟩
    rw [show folder = above ++ [name] from place]
    exact List.concat_ne_nil name above
  · cases follows

theorem Shows.erase (path : String) (bench : Bench) (spot : Place) :
    Shows path bench (bench.onTree (·.erase spot)) := ⟨rfl, FileTree.locate_of_erase_taken⟩

theorem Bench.LogsBeside.erase {bench : Bench} {path target : String} {spot last : Place} {node : Node}
    {contents : List UInt8} {mode : Nat} (beside : bench.LogsBeside path) (away : bench.LogsBeside target)
    (records : bench.CanRecord) (finds : bench.Finds target (.taken spot node)) (other : node ≠ .folder)
    (leads : bench.tree.locate true bench.surroundings.place target =
      .ok (.taken last (.file contents mode))) :
    (bench.onTree (·.erase spot)).LogsBeside path := by
  obtain ⟨location, opens⟩ := records
  obtain ⟨elsewhere, still⟩ := FileTree.locate_erase_beside finds leads other opens.leads opens.file
    (away location _ opens.leads leads)
  intro log found again led
  cases still.symm.trans again
  by_cases there : found.place = spot
  · exact there ▸ elsewhere
  · exact beside _ found opens.leads (FileTree.locate_of_erase led (fun _ _ => rfl) fun _ => there)

namespace Work

variable {bench after : Bench} {path : String}

theorem logged_of_ok {message : Message} (ends : outcome (log message) bench = (.ok (), after)) :
    bench.CanRecord ∧ Logged bench after := by
  by_cases records : bench.CanRecord
  · obtain ⟨last, done, logged⟩ := log_of_canRecord records message
    cases done.symm.trans ends
    exact ⟨records, logged⟩
  · obtain ⟨fault, last, stops, -⟩ := log_of_not_canRecord records message
    cases stops.symm.trans ends

theorem outcome_isFolder (path : String) (bench : Bench) : outcome (isFolder path) bench =
    (.ok (bench.tree.isFolder bench.surroundings.place path), bench) := rfl

theorem outcome_isFile (path : String) (bench : Bench) : outcome (isFile path) bench =
    (.ok (bench.tree.isFile bench.surroundings.place path), bench) := rfl

def removalStep (surroundings : Surroundings) (folder : Place) (path : String) : Removal → Work Unit
  | .enter place => do
    let text := placeText folder path place
    if surroundings.unlistable.contains (Path.absolute surroundings.here text) then refuse .denied text
  | .erase place => do setTree ((← Work.tree).erase place)

theorem outcome_removeFolder {folder : Place}
    (ends : outcome (locate false path) bench = (.ok (.taken folder .folder), bench)) :
    outcome (removeFolder path) bench = outcome
      ((removals bench.tree bench.surroundings.rank (bench.tree.depth + 1) folder).forM
        (removalStep bench.surroundings folder path)) bench := by
  unfold removeFolder
  rw [outcome_bind_ok ends]
  dsimp only
  rw [outcome_bind_ok (outcome_tree bench), outcome_bind_ok (outcome_surroundings bench)]
  refine congrArg (fun step => outcome (List.forM _ step) bench) (funext fun step => ?_)
  cases step <;> rfl

theorem removeFolder_found (ends : outcome (removeFolder path) bench = (.ok (), after)) :
    ∃ folder, bench.Finds path (.taken folder .folder) ∧
      outcome (locate false path) bench = (.ok (.taken folder .folder), bench) := by
  unfold removeFolder at ends
  rcases outcome_locate_unfollowed path bench with ⟨location, finds, found⟩ | ⟨fault, stops⟩
  · rw [outcome_bind_ok found] at ends
    match location, finds, found, ends with
    | .taken folder .folder, finds, found, _ => exact ⟨folder, finds, found⟩
    | .free _, _, _, ends => cases ends
    | .taken _ (.link _), _, _, ends => cases ends
    | .taken _ (.file _ _), _, _, ends => cases ends
  · cases (outcome_bind_error stops _).symm.trans ends

theorem removeFolder_ok (ends : outcome (removeFolder path) bench = (.ok (), after)) :
    ∃ folder, bench.Finds path (.taken folder .folder) ∧ Emptied bench folder after := by
  obtain ⟨folder, finds, found⟩ := removeFolder_found ends
  refine ⟨folder, finds, ?_⟩
  let kept (later : Bench) := later.surroundings = bench.surroundings ∧ later.tree.Lacks folder bench.tree
  have keeps : ∀ step ∈ removals bench.tree bench.surroundings.rank (bench.tree.depth + 1) folder,
      Keeps kept (removalStep bench.surroundings folder path step) := by
    intro step among
    cases step with
    | enter place =>
      unfold removalStep
      dsimp only
      split
      · exact Yields.fail _
      · exact Keeps.pure ()
    | erase place =>
      have inside := prefix_of_mem_removals _ _ _ _ among
      exact fun later holds => ⟨⟨holds.1, holds.2.erase inside⟩, fun _ _ => trivial⟩
  -- the folder itself is erased last
  rw [outcome_removeFolder found, List.forM_eq_forM] at ends
  rw [removals] at ends keeps
  rw [List.forM_append] at ends
  obtain ⟨_, mid, emptied, last⟩ := exists_mid ends
  have before : kept mid := by
    have holds := (Keeps.forM fun step among => keeps step (List.mem_append_left _ among)) bench
      ⟨rfl, .refl ..⟩ |>.1
    rw [List.forM_eq_forM, emptied] at holds
    exact holds
  have erased : after = mid.onTree (·.erase folder) := by
    cases last
    rfl
  rw [erased]
  exact ⟨before.1, before.2.erase (List.prefix_refl _), FileTree.get?_erase_self ..⟩

end Work

end JuceWorkbench
