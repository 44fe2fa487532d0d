import JuceWorkbench.Proofs.Bench.Changes
import JuceWorkbench.Proofs.Path.Route
import JuceWorkbench.Proofs.Tree.Nesting

/-! Making a folder with the missing folders above it. A folder on a route that did not exist is new
and empty, and so is the one above it but for that folder; one that is there stays as it is. -/

namespace JuceWorkbench
open JuceWorkbench.Path Work

def FileTree.Reaches (tree : FileTree) (route : Route) (place : Place) : Prop :=
  FileTree.Way tree true FileTree.maxLinks [] route.names (.taken place .folder)

/-- What was in the tree of a bench is still there, and the tree is closed if it was. -/
structure Grew (bench after : Bench) : Prop where
  surroundings : after.surroundings = bench.surroundings
  stays : ∀ {place : Place} {node : Node}, bench.tree.get? place = some node →
    after.tree.get? place = some node
  closed : bench.tree.Closed → after.tree.Closed

theorem Grew.refl (bench : Bench) : Grew bench bench := ⟨rfl, id, id⟩

theorem Grew.trans {bench mid after : Bench} (first : Grew bench mid) (second : Grew mid after) :
    Grew bench after :=
  ⟨second.surroundings.trans first.surroundings, fun there => second.stays (first.stays there),
    fun closed => second.closed (first.closed closed)⟩

/-- A route leads to a folder that holds nothing. -/
def IsFresh (bench : Bench) (route : Route) : Prop :=
  ∃ place, bench.tree.Reaches route place ∧ ∀ name, bench.tree.get? (place ++ [name]) = none

section Reaches

variable {tree : FileTree} {route : Route} {name : String} {plain : IsPlain name.toList}
  {bench : Bench} {here place : Place} {location : FileTree.Location} {follow : Bool}

theorem FileTree.Reaches.unique {other : Place} (reaches : tree.Reaches route place)
    (again : tree.Reaches route other) : place = other := by
  cases (Way.locateFrom reaches).symm.trans (Way.locateFrom again)
  rfl

theorem short_of_locate (leads : tree.locate follow here route.path = .ok location) :
    ¬FileTree.maxPathOctets < route.path.utf8ByteSize ∧
      FileTree.Way tree follow FileTree.maxLinks [] route.names location := by
  rw [route.locate_path] at leads
  split at leads
  · cases leads
  · rename_i short
    exact ⟨short, FileTree.way_of_locateFrom leads⟩

theorem exists_of_reaches (reaches : tree.Reaches route place)
    (short : ¬FileTree.maxPathOctets < route.path.utf8ByteSize) :
    tree.exists? here route.path = true := by
  unfold FileTree.exists? FileTree.node?
  rw [route.locate_path, if_neg short, FileTree.Way.locateFrom reaches]
  rfl

theorem reaches_of_exists (there : tree.exists? here (route.under name plain).path = true) :
    ¬FileTree.maxPathOctets < (route.under name plain).path.utf8ByteSize ∧
      ∃ place, tree.Reaches route place ∧ tree.get? (place ++ [name]) ≠ none := by
  unfold FileTree.exists? FileTree.node? at there
  cases leads : tree.locate true here (route.under name plain).path with
  | error reason =>
    rw [leads] at there
    cases there
  | ok location =>
    obtain ⟨short, way⟩ := short_of_locate leads
    refine ⟨short, ?_⟩
    obtain ⟨-, place, reaches, ends⟩ := way.unstep rfl (isPart_of_isPlain plain)
    refine ⟨place, reaches, ?_⟩
    rcases ends with ⟨-, stands⟩ | ⟨-, target, linked⟩
    · rw [leads] at there
      cases location with
      | free spot => cases there
      | taken spot node =>
        rw [stands]
        rintro ⟨⟩
    · rw [linked]
      rintro ⟨⟩

theorem FileTree.Reaches.locate (reaches : tree.Reaches route place) (plain : IsPlain name.toList)
    (named : IsName name) (short : ¬maxPathOctets < (route.under name plain).path.utf8ByteSize)
    (other : ∀ target, tree.get? (place ++ [name]) ≠ some (.link target)) (here : Place) (follow : Bool) :
    tree.locate follow here (route.under name plain).path =
      .ok (.at (place ++ [name]) (tree.get? (place ++ [name]))) := by
  rw [Route.locate_path, if_neg short]
  exact (Way.step reaches rfl named other follow).locateFrom

theorem FileTree.Reaches.eq_at (reaches : tree.Reaches route place)
    (leads : tree.locate follow here (route.under name plain).path = .ok location)
    (other : ∀ target, tree.get? (place ++ [name]) ≠ some (.link target)) :
    location = .at (place ++ [name]) (tree.get? (place ++ [name])) := by
  obtain ⟨-, way⟩ := short_of_locate leads
  obtain ⟨-, folder, again, ends⟩ := way.unstep rfl (isPart_of_isPlain plain)
  obtain rfl := reaches.unique again
  rcases ends with ⟨same, stands⟩ | ⟨-, target, linked⟩
  · rw [stands, ← same, Location.at_self]
  · exact absurd linked (other target)

theorem not_exists_under (absent : tree.exists? here route.path = false) (plain : IsPlain name.toList) :
    tree.exists? here (route.under name plain).path = false := by
  rw [Bool.eq_false_iff] at absent ⊢
  intro there
  obtain ⟨short, place, reaches, -⟩ := reaches_of_exists there
  refine absent (exists_of_reaches reaches ?_)
  have := Route.utf8ByteSize_le_under route plain
  omega

end Reaches

section MakeFolders

variable {route : Route} {name : String} {plain : IsPlain name.toList} {bench after : Bench}
  {path : String}

theorem makeFolderUnless_cases {allowed : FileReason → Work Bool}
    (looks : ∀ reason bench, ∃ passed, outcome (allowed reason) bench = (.ok passed, bench))
    (ends : outcome (makeFolderUnless allowed path) bench = (.ok (), after)) :
    (∃ place, bench.Finds path (.free place) ∧ after = bench.onTree (·.put place .folder)) ∨
      after = bench ∧ ∃ reason, outcome (allowed reason) bench = (.ok true, bench) := by
  unfold makeFolderUnless at ends
  rcases makeFolder_cases path bench with ⟨place, finds, makes⟩ | ⟨fault, stops⟩
  · rw [outcome_bind_ok (outcome_attempt_of_ok makes)] at ends
    cases ends
    exact Or.inl ⟨place, finds, rfl⟩
  · right
    rw [outcome_bind_ok (outcome_attempt_of_fault stops)] at ends
    cases fault with
    | file fault =>
      obtain ⟨passed, looked⟩ := looks fault.reason bench
      dsimp only at ends
      rw [outcome_bind_ok looked] at ends
      cases passed with
      | true =>
        cases ends
        exact ⟨rfl, fault.reason, looked⟩
      | false => cases ends
    | _ => cases ends

theorem reaches_of_finds {place : Place} (finds : bench.Finds (route.under name plain).path (.free place)) :
    FileTree.IsName name ∧ bench.tree.get? place = none ∧
      ∃ folder, bench.tree.Reaches route folder ∧ place = folder ++ [name] := by
  obtain ⟨-, way⟩ := short_of_locate finds
  obtain ⟨named, folder, reaches, ends⟩ := way.unstep rfl (isPart_of_isPlain plain)
  rcases ends with ⟨same, free⟩ | ⟨follow, -⟩
  · obtain rfl : place = folder ++ [name] := same
    exact ⟨named, free, folder, reaches, rfl⟩
  · cases follow

theorem folder_of_reaches (closed : bench.tree.Closed) {place : Place}
    (reaches : bench.tree.Reaches route place) : bench.tree.get? place = some .folder := by
  rcases FileTree.Way.stands closed reaches closed.root with ⟨-, folder⟩ | ⟨other, -⟩
  · exact folder
  · exact absurd rfl other

theorem Grew.reaches (grew : Grew bench after) {place : Place} (reaches : bench.tree.Reaches route place) :
    after.tree.Reaches route place :=
  FileTree.Way.same reaches ⟨grew.stays, grew.stays⟩ (by rintro ⟨⟩)

theorem grew_of_made (plain : IsPlain name.toList) (closed : bench.tree.Closed) {folder : Place}
    (named : FileTree.IsName name)
    (reaches : bench.tree.Reaches route folder) (free : bench.tree.get? (folder ++ [name]) = none) :
    Grew bench (bench.onTree (·.put (folder ++ [name]) .folder)) ∧
      (bench.tree.put (folder ++ [name]) .folder).Reaches (route.under name plain) (folder ++ [name]) := by
  have grew : Grew bench (bench.onTree (·.put (folder ++ [name]) .folder)) := by
    refine ⟨rfl, ?_, fun _ => ?_⟩
    · intro place node there
      rw [FileTree.get?_put_of_ne bench.tree ?_ _, there]
      rintro rfl
      cases free.symm.trans there
    · refine closed.put (folder_of_reaches closed reaches) _ ?_
      rw [free]
      rintro ⟨⟩
  refine ⟨grew, ?_⟩
  have there : (bench.tree.put (folder ++ [name]) .folder).get? (folder ++ [name]) = some .folder :=
    FileTree.get?_put_self ..
  have goes := FileTree.Way.step (grew.reaches reaches) rfl named (by
    intro target
    rw [there]
    rintro ⟨⟩) true
  rwa [there] at goes

def makeMissing (paths : List String) : Work Unit := do
  let missing ← missingUpTo paths
  missing.reverse.forM fun folder => makeFolderUnless
    (fun reason => return reason == .occupied || (false && (← isFolder folder))) folder

theorem outcome_makeMissing_of_exists (there : bench.tree.exists? bench.surroundings.place path = true)
    (more : List String) : outcome (makeMissing (path :: more)) bench = (.ok (), bench) := by
  have looked : outcome (missingUpTo (path :: more)) bench = (.ok [], bench) := by
    rw [missingUpTo, outcome_bind_ok (show outcome (fileExists path) bench = (.ok true, bench) from
      there ▸ rfl)]
    rfl
  unfold makeMissing
  rw [outcome_bind_ok looked]
  rfl

theorem outcome_makeMissing_of_absent (absent : bench.tree.exists? bench.surroundings.place path = false)
    (more : List String) : outcome (makeMissing (path :: more)) bench =
      outcome (do
        makeMissing more
        makeFolderUnless
          (fun reason => return reason == .occupied || (false && (← isFolder path))) path) bench := by
  have first : outcome (missingUpTo (path :: more)) bench =
      outcome (do let rest ← missingUpTo more; pure (path :: rest)) bench := by
    rw [missingUpTo, outcome_bind_ok (show outcome (fileExists path) bench = (.ok false, bench) from
      absent ▸ rfl)]
    rfl
  unfold makeMissing
  rw [outcome_bind, first, ← outcome_bind]
  simp [List.forM_append]

theorem allowed_looks (mayExist : Bool) (reason : FileReason) (bench : Bench) :
    ∃ passed, outcome (do
      return reason == .occupied || (mayExist && (← isFolder path))) bench = (.ok passed, bench) :=
  ⟨_, rfl⟩

theorem not_exists_of_fresh (fresh : IsFresh bench route) (plain : IsPlain name.toList)
    {here : Place} : bench.tree.exists? here (route.under name plain).path = false := by
  obtain ⟨place, reaches, empty⟩ := fresh
  rw [Bool.eq_false_iff]
  intro there
  obtain ⟨-, other, again, taken⟩ := reaches_of_exists there
  obtain rfl := reaches.unique again
  exact taken (empty name)

/-- A route that does not exist is new and empty once the missing folders on it were made, if it
exists then. -/
theorem fresh_of_makeMissing (closed : bench.tree.Closed) (route : Route)
    (absent : bench.tree.exists? bench.surroundings.place route.path = false)
    (ends : outcome (makeMissing (route.path :: foldersAbove route.path)) bench = (.ok (), after)) :
    Grew bench after ∧ (IsFresh after route ∨
      after.tree.exists? bench.surroundings.place route.path = false) := by
  induction route using Route.induct generalizing after with
  | root route root =>
    rw [Route.foldersAbove_root root, outcome_makeMissing_of_absent absent] at ends
    have nothing : outcome (makeMissing []) bench = (.ok (), bench) := rfl
    rw [outcome_bind_ok nothing] at ends
    rcases makeFolderUnless_cases (allowed_looks false) ends with ⟨place, finds, -⟩ | ⟨rfl, -⟩
    · obtain ⟨-, way⟩ := short_of_locate finds
      rw [root] at way
      cases way
    · exact ⟨.refl after, Or.inr absent⟩
  | under route name plain ih =>
    rw [Route.foldersAbove_under, outcome_makeMissing_of_absent absent] at ends
    obtain ⟨⟨⟩, mid, makes, ends⟩ := exists_mid ends
    -- the folders above leave the route as missing as it was
    have above : Grew bench mid ∧
        mid.tree.exists? bench.surroundings.place (route.under name plain).path = false := by
      cases upper : bench.tree.exists? bench.surroundings.place route.path with
      | true =>
        cases makes.symm.trans (outcome_makeMissing_of_exists upper _)
        exact ⟨.refl bench, absent⟩
      | false =>
        obtain ⟨grew, fresh | still⟩ := ih upper makes
        · exact ⟨grew, not_exists_of_fresh fresh plain⟩
        · exact ⟨grew, not_exists_under still plain⟩
    obtain ⟨grew, still⟩ := above
    rcases makeFolderUnless_cases (allowed_looks false) ends with ⟨place, finds, rfl⟩ | ⟨rfl, -⟩
    · obtain ⟨named, free, folder, reaches, rfl⟩ := reaches_of_finds finds
      have inner := grew.closed closed
      obtain ⟨more, leads⟩ := grew_of_made plain inner named reaches free
      refine ⟨grew.trans more, Or.inl ⟨folder ++ [name], leads, fun other => ?_⟩⟩
      refine (FileTree.get?_put_of_ne mid.tree (by simp) _).trans (inner.none_below ?_ other)
      rw [free]
      rintro ⟨⟩
    · exact ⟨grew, Or.inr still⟩

/-- What a new folder in a new folder is like. -/
structure Founded (bench after : Bench) (route : Route) (name : String) (place : Place) : Prop where
  grew : Grew bench after
  reaches : after.tree.Reaches route place
  folder : after.tree.get? (place ++ [name]) = some .folder
  alone : ∀ other, other ≠ name → after.tree.get? (place ++ [other]) = none
  empty : ∀ other, after.tree.get? (place ++ [name] ++ [other]) = none

/-- A folder that is made where its route led to no folder is the only thing in a new folder. -/
theorem founded_of_makeFolders (closed : bench.tree.Closed) (plain : IsPlain name.toList)
    (unreached : ∀ place, ¬bench.tree.Reaches route place)
    (ends : outcome (makeFolders (route.under name plain).path false) bench = (.ok (), after)) :
    ∃ place, Founded bench after route name place := by
  have split : outcome (do
      makeMissing (foldersAbove (route.under name plain).path)
      makeFolderUnless (fun _ => return false && (← isFolder (route.under name plain).path))
        (route.under name plain).path) bench = (.ok (), after) := by
    unfold makeMissing
    rw [← ends]
    unfold makeFolders
    simp
  obtain ⟨⟨⟩, mid, makes, last⟩ := exists_mid split
  rw [Route.foldersAbove_under] at makes
  rcases makeFolderUnless_cases (fun _ _ => ⟨false, rfl⟩) last with ⟨spot, finds, rfl⟩ | ⟨-, reason, allowed⟩
  · obtain ⟨named, free, place, reaches, rfl⟩ := reaches_of_finds finds
    have short : ¬FileTree.maxPathOctets < route.path.utf8ByteSize := by
      have fits := (short_of_locate finds).1
      have grows := Route.utf8ByteSize_le_under route plain
      omega
    have absent : bench.tree.exists? bench.surroundings.place route.path = false := by
      rw [Bool.eq_false_iff]
      intro there
      cases makes.symm.trans (outcome_makeMissing_of_exists there _)
      exact unreached place reaches
    obtain ⟨grew, shape⟩ := fresh_of_makeMissing closed route absent makes
    have inner := grew.closed closed
    obtain ⟨more, -⟩ := grew_of_made plain inner named reaches free
    rcases shape with ⟨other, again, empty⟩ | gone
    · obtain rfl := reaches.unique again
      refine ⟨place, grew.trans more, more.reaches reaches, FileTree.get?_put_self .., ?_, ?_⟩
      · intro other apart
        exact (FileTree.get?_put_of_ne mid.tree (by simpa using apart) _).trans (empty other)
      · intro other
        refine (FileTree.get?_put_of_ne mid.tree (by simp) _).trans (inner.none_below ?_ other)
        rw [free]
        rintro ⟨⟩
    · rw [exists_of_reaches reaches short] at gone
      cases gone
  · cases allowed

theorem outcome_makeFolders_of_exists
    (there : bench.tree.exists? bench.surroundings.place route.path = true) (plain : IsPlain name.toList)
    (mayExist : Bool) : outcome (makeFolders (route.under name plain).path mayExist) bench =
      outcome (makeFolderUnless (fun _ => return mayExist && (← isFolder (route.under name plain).path))
        (route.under name plain).path) bench := by
  have missing : outcome (missingUpTo (foldersAbove (route.under name plain).path)) bench = (.ok [], bench) := by
    rw [Route.foldersAbove_under, missingUpTo,
      outcome_bind_ok (show outcome (fileExists route.path) bench = (.ok true, bench) from there ▸ rfl)]
    rfl
  unfold makeFolders
  rw [outcome_bind_ok missing]
  exact outcome_bind_ok (outcome_pure () bench) _

theorem outcome_makeFolders_of_reaches {place : Place} (reaches : bench.tree.Reaches route place)
    (named : FileTree.IsName name) (folder : bench.tree.get? (place ++ [name]) = some .folder)
    (short : ¬FileTree.maxPathOctets < (route.under name plain).path.utf8ByteSize)
    (clean : (route.under name plain).path.toList.contains '\x00' = false) :
    outcome (makeFolders (route.under name plain).path true) bench = (.ok (), bench) := by
  have leads : ∀ follow, bench.tree.locate follow bench.surroundings.place (route.under name plain).path =
      .ok (.taken (place ++ [name]) .folder) := by
    intro follow
    have goes := reaches.locate plain named short (by
      intro target
      rw [folder]
      rintro ⟨⟩) bench.surroundings.place follow
    rwa [folder] at goes
  have upper : bench.tree.exists? bench.surroundings.place route.path = true := by
    refine exists_of_reaches reaches ?_
    have grows := Route.utf8ByteSize_le_under route plain
    omega
  have isThere : outcome (isFolder (route.under name plain).path) bench = (.ok true, bench) := by
    have node : bench.tree.isFolder bench.surroundings.place (route.under name plain).path = true := by
      unfold FileTree.isFolder FileTree.node?
      rw [leads true]
      rfl
    exact node ▸ rfl
  have occupied : outcome (makeFolder (route.under name plain).path) bench = (.error (.fault (.file
      { reason := .occupied, path := (route.under name plain).path })), bench) := by
    unfold makeFolder
    rw [outcome_bind_ok (outcome_locate_of_finds clean (leads false))]
    rfl
  rw [outcome_makeFolders_of_exists upper]
  unfold makeFolderUnless
  rw [outcome_bind_ok (outcome_attempt_of_fault occupied)]
  dsimp only
  rw [outcome_bind_ok (show outcome _ bench = (.ok true, bench) from outcome_bind_ok isThere _)]
  rfl

end MakeFolders

end JuceWorkbench
