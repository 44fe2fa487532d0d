import JuceWorkbench.Bench.LogFolder
import JuceWorkbench.Proofs.Bench.Changes
import JuceWorkbench.Proofs.Tree.Folder

/-! Pruning the log folder. Log files that have vanished are sorted in front of all others, as they
count as the oldest, so those that go are the ones that would if only the files that are there had been
listed: `filter_stale`. -/

namespace JuceWorkbench.LogFolder

/-- Whether a log file has not vanished since it was listed. -/
def isPresent (surroundings : Surroundings) (name : String) : Bool := (created? surroundings name).isSome

/-- The names of the log files in a folder, in the order in which it lists them. -/
def logs (surroundings : Surroundings) (tree : FileTree) (folder : Place) : List String :=
  (tree.listed surroundings.rank folder).filter isLogName

def present (surroundings : Surroundings) (tree : FileTree) (folder : Place) : List String :=
  (logs surroundings tree folder).filter (isPresent surroundings)

/-- The log folder can be listed, and its log files, if they have not vanished, are regular files. -/
structure IsLogFolder (surroundings : Surroundings) (tree : FileTree) (folder : Place) : Prop where
  leads : Leads tree surroundings surroundings.logFolder (.taken folder .folder)
  lists : surroundings.unlistable.contains
    (Path.absolute surroundings.here surroundings.logFolder) = false
  files : ∀ name ∈ present surroundings tree folder,
    (Path.join surroundings.logFolder name).toList.contains '\x00' = false ∧ ∃ contents mode,
      tree.locate false surroundings.place (Path.join surroundings.logFolder name) =
        .ok (.taken (folder ++ [name]) (.file contents mode))

def cleared (tree : FileTree) (folder : Place) (gone : List String) : FileTree :=
  tree.without fun place => (gone.map fun name => folder ++ [name]).contains place

/-- What pruning makes of a log folder. -/
structure KeepsNewest (surroundings : Surroundings) (folder : Place) (keep : Int)
    (tree after : FileTree) : Prop where
  spared : ∀ place, (∀ name ∈ present surroundings tree folder, place ≠ folder ++ [name]) →
    after.get? place = tree.get? place
  sublist : (present surroundings after folder).Sublist (present surroundings tree folder)
  still : ∀ name ∈ present surroundings after folder,
    after.get? (folder ++ [name]) = tree.get? (folder ++ [name])
  count : (present surroundings after folder).length =
    min (present surroundings tree folder).length keep.toNat
  older : ∀ gone ∈ present surroundings tree folder, gone ∉ present surroundings after folder →
    ∀ name ∈ present surroundings after folder, age surroundings gone ≤ age surroundings name

/-! Names in order of age. -/

section Order

variable {surroundings : Surroundings} {keep : Int}

theorem byAge_perm (surroundings : Surroundings) (names : List String) :
    (byAge surroundings names).Perm names := List.mergeSort_perm ..

theorem age_trans (surroundings : Surroundings) (a b c : String)
    (first : decide (age surroundings a ≤ age surroundings b) = true)
    (second : decide (age surroundings b ≤ age surroundings c) = true) :
    decide (age surroundings a ≤ age surroundings c) = true :=
  decide_eq_true (Int.le_trans (of_decide_eq_true first) (of_decide_eq_true second))

theorem age_total (surroundings : Surroundings) (a b : String) :
    (decide (age surroundings a ≤ age surroundings b) ||
      decide (age surroundings b ≤ age surroundings a)) = true := by
  simpa using Int.le_total ..

theorem pairwise_byAge (surroundings : Surroundings) (names : List String) :
    (byAge surroundings names).Pairwise fun a b => age surroundings a ≤ age surroundings b :=
  (List.pairwise_mergeSort (age_trans surroundings) (age_total surroundings) names).imp of_decide_eq_true

theorem exists_cut {α : Type} {list : List α} {holds : α → Bool}
    (passes : list.Pairwise fun a b => holds a = true → holds b = true) :
    ∃ front back, list = front ++ back ∧ (∀ a ∈ front, holds a = false) ∧ ∀ a ∈ back, holds a = true := by
  induction passes with
  | nil => exact ⟨[], [], rfl, by simp, by simp⟩
  | @cons a more later _ ih =>
    cases here : holds a with
    | false =>
      obtain ⟨front, back, rfl, off, on⟩ := ih
      exact ⟨a :: front, back, rfl, List.forall_mem_cons.2 ⟨here, off⟩, on⟩
    | true =>
      exact ⟨[], a :: more, rfl, by simp, List.forall_mem_cons.2 ⟨here, fun b member => later b member here⟩⟩

theorem filter_cut {α : Type} {front back : List α} {holds : α → Bool}
    (off : ∀ a ∈ front, holds a = false) (on : ∀ a ∈ back, holds a = true) :
    (front ++ back).filter holds = back := by
  have none : front.filter holds = [] :=
    List.filter_eq_nil_iff.2 fun a member => by rw [off a member]; exact Bool.false_ne_true
  rw [List.filter_append, none, List.filter_eq_self.2 on, List.nil_append]

theorem stale_of_nonneg (nonneg : 0 ≤ keep) (names : List String) :
    stale keep names = names.take (names.length - keep.toNat) := if_neg (Int.not_lt.2 nonneg)

/-- Files that come in front of all others cost them no place. -/
theorem filter_stale_of_pairwise {names : List String} {holds : String → Bool} (nonneg : 0 ≤ keep)
    (passes : names.Pairwise fun a b => holds a = true → holds b = true) :
    (stale keep names).filter holds = stale keep (names.filter holds) := by
  obtain ⟨front, back, rfl, off, on⟩ := exists_cut passes
  have share : (front ++ back).length - keep.toNat - front.length = back.length - keep.toNat := by
    rw [List.length_append]
    omega
  rw [filter_cut off on, stale_of_nonneg nonneg, stale_of_nonneg nonneg, List.take_append, share]
  exact filter_cut (fun a member => off a (List.mem_of_mem_take member))
    fun a member => on a (List.mem_of_mem_take member)

theorem pairwise_isPresent {names : List String}
    (dated : ∀ name ∈ names, ∀ time, created? surroundings name = some time → 0 < time) :
    (byAge surroundings names).Pairwise fun a b =>
      isPresent surroundings a = true → isPresent surroundings b = true := by
  refine (pairwise_byAge surroundings names).imp_of_mem fun {a b} first _ older there => ?_
  obtain ⟨time, made⟩ := Option.isSome_iff_exists.1 there
  have positive := dated a ((byAge_perm ..).subset first) time made
  unfold age at older
  rw [made, Option.getD_some] at older
  unfold isPresent
  cases vanished : created? surroundings b with
  | some _ => rfl
  | none =>
    rw [vanished, Option.getD_none] at older
    omega

theorem filter_stale {names : List String} (nonneg : 0 ≤ keep)
    (dated : ∀ name ∈ names, ∀ time, created? surroundings name = some time → 0 < time) :
    (stale keep (byAge surroundings names)).filter (isPresent surroundings) =
      stale keep ((byAge surroundings names).filter (isPresent surroundings)) :=
  filter_stale_of_pairwise nonneg (pairwise_isPresent dated)

end Order

def discarded (surroundings : Surroundings) (tree : FileTree) (folder : Place) (keep : Int) : List String :=
  (stale keep (byAge surroundings (logs surroundings tree folder))).filter (isPresent surroundings)

/-! What discarding does to the folder. -/

section Folder

variable {surroundings : Surroundings} {tree : FileTree} {folder : Place} {name : String} {gone : List String}

theorem mem_present : name ∈ present surroundings tree folder ↔
    name ∈ logs surroundings tree folder ∧ isPresent surroundings name = true := List.mem_filter

theorem nodup_logs (surroundings : Surroundings) (tree : FileTree) (folder : Place) :
    (logs surroundings tree folder).Nodup :=
  (tree.nodup_listed surroundings.rank folder).filter _

theorem get?_cleared (tree : FileTree) (folder : Place) (gone : List String) (place : Place) :
    (cleared tree folder gone).get? place =
      if place ∈ gone.map fun name => folder ++ [name] then none else tree.get? place := by
  unfold cleared
  rw [FileTree.get?_without]
  simp only [List.contains_iff_mem]

theorem append_name_inj {name other : String} : folder ++ [name] = folder ++ [other] ↔ name = other := by
  rw [List.append_cancel_left_eq, List.singleton_inj]

theorem mem_map_place : folder ++ [name] ∈ (gone.map fun name => folder ++ [name]) ↔ name ∈ gone := by
  rw [List.mem_map]
  constructor
  · rintro ⟨other, member, same⟩
    exact append_name_inj.1 same ▸ member
  · exact fun member => ⟨name, member, rfl⟩

theorem cleared_nil (tree : FileTree) (folder : Place) : cleared tree folder [] = tree := by
  unfold cleared FileTree.without
  congr 1
  exact List.filter_eq_self.2 fun _ _ => rfl

theorem cleared_erase (tree : FileTree) (folder : Place) (name : String) (gone : List String) :
    cleared (tree.erase (folder ++ [name])) folder gone = cleared tree folder (name :: gone) := by
  unfold cleared FileTree.erase FileTree.without
  congr 1
  rw [List.filter_filter]
  congr 1
  funext entry
  dsimp only
  rw [List.map_cons, List.contains_cons, Bool.not_or, Bool.and_comm]

theorem logs_cleared (surroundings : Surroundings) (tree : FileTree) (folder : Place) (gone : List String) :
    logs surroundings (cleared tree folder gone) folder =
      (logs surroundings tree folder).filter fun name => !gone.contains name := by
  unfold logs cleared
  rw [FileTree.listed_without, List.filter_filter, List.filter_filter]
  congr 1
  funext name
  have same : (gone.map fun name => folder ++ [name]).contains (folder ++ [name]) = gone.contains name := by
    rw [Bool.eq_iff_iff, List.contains_iff_mem, List.contains_iff_mem, mem_map_place]
  rw [same, Bool.and_comm]

theorem mem_logs_erase {other : String} : other ∈ logs surroundings (tree.erase (folder ++ [name])) folder ↔
    other ∈ logs surroundings tree folder ∧ other ≠ name := by
  rw [← cleared_nil (tree.erase _) folder, cleared_erase, logs_cleared, List.mem_filter]
  simp

theorem present_cleared (surroundings : Surroundings) (tree : FileTree) (folder : Place) (gone : List String) :
    present surroundings (cleared tree folder gone) folder =
      (present surroundings tree folder).filter fun name => !gone.contains name := by
  unfold present
  rw [logs_cleared, List.filter_filter, List.filter_filter]
  congr 1
  funext name
  rw [Bool.and_comm]

/-- In order of age, the files that go come in front of those that stay. -/
theorem exists_discarded_append {keep : Int} (nonneg : 0 ≤ keep)
    (dated : ∀ name ∈ logs surroundings tree folder, ∀ time, created? surroundings name = some time → 0 < time) :
    ∃ left, (discarded surroundings tree folder keep ++ left).Perm (present surroundings tree folder) ∧
      (discarded surroundings tree folder keep ++ left).Pairwise
        (fun a b => age surroundings a ≤ age surroundings b) ∧
      left.length = min (present surroundings tree folder).length keep.toNat := by
  have same : ((byAge surroundings (logs surroundings tree folder)).filter (isPresent surroundings)).Perm
      (present surroundings tree folder) := (byAge_perm ..).filter _
  have aged := (pairwise_byAge surroundings (logs surroundings tree folder)).filter (isPresent surroundings)
  have gone : discarded surroundings tree folder keep = _ :=
    (filter_stale nonneg dated).trans (stale_of_nonneg nonneg _)
  generalize (byAge surroundings (logs surroundings tree folder)).filter (isPresent surroundings) = sorted
    at same aged gone
  refine ⟨sorted.drop (sorted.length - keep.toNat), ?_⟩
  rw [gone, List.take_append_drop, List.length_drop, same.length_eq]
  exact ⟨same, aged, by omega⟩

theorem keepsNewest_cleared {keep : Int} (nonneg : 0 ≤ keep)
    (dated : ∀ name ∈ logs surroundings tree folder, ∀ time, created? surroundings name = some time → 0 < time) :
    KeepsNewest surroundings folder keep tree
      (cleared tree folder (discarded surroundings tree folder keep)) := by
  obtain ⟨left, same, aged, count⟩ := exists_discarded_append nonneg dated
  generalize discarded surroundings tree folder keep = gone at same aged
  have distinct : (gone ++ left).Nodup := same.nodup_iff.2 ((nodup_logs surroundings tree folder).filter _)
  have apart : ∀ name ∈ gone, name ∉ left := fun name early late =>
    (List.nodup_append.1 distinct).2.2 name early name late rfl
  have rest : (present surroundings (cleared tree folder gone) folder).Perm left := by
    have cut : (gone ++ left).filter (fun name => !gone.contains name) = left := by
      refine filter_cut (fun name early => ?_) fun name late => ?_
      · simp [early]
      · have fresh : name ∉ gone := fun early => apart name early late
        simp [fresh]
    rw [present_cleared]
    exact (same.symm.filter _).trans (.of_eq cut)
  refine ⟨fun place outside => ?_, ?_, fun name member => ?_, rest.length_eq.trans count, ?_⟩
  · rw [get?_cleared, if_neg]
    intro inside
    obtain ⟨name, early, rfl⟩ := List.mem_map.1 inside
    exact outside name (same.subset (List.mem_append_left left early)) rfl
  · rw [present_cleared]
    exact List.filter_sublist
  · rw [get?_cleared, if_neg]
    rw [mem_map_place]
    exact fun early => apart name early (rest.subset member)
  · intro name member off other inside
    have early : name ∈ gone :=
      (List.mem_append.1 (same.symm.subset member)).resolve_right fun late => off (rest.symm.subset late)
    exact (List.pairwise_append.1 aged).2.2 name early other (rest.subset inside)

variable (stands : IsLogFolder surroundings tree folder)
include stands

theorem IsLogFolder.erase (among : name ∈ present surroundings tree folder) :
    IsLogFolder surroundings (tree.erase (folder ++ [name])) folder := by
  obtain ⟨-, contents, mode, finds⟩ := stands.files name among
  have passes : FileTree.Passes tree (tree.erase (folder ++ [name])) :=
    .erase (FileTree.get?_place_of_locate finds (by rintro ⟨⟩))
  refine ⟨⟨stands.leads.named, ?_⟩, stands.lists, fun other member => ?_⟩
  · obtain ⟨start, goes, way⟩ := FileTree.way_of_locate stands.leads.leads
    exact goes _ _ _ (way.same passes (by rintro ⟨⟩))
  · obtain ⟨known, there⟩ := mem_present.1 member
    obtain ⟨known, other_ne⟩ := mem_logs_erase.1 known
    have apart : folder ++ [other] ≠ folder ++ [name] := fun same => other_ne (append_name_inj.1 same)
    obtain ⟨named, old, oldMode, found⟩ := stands.files other (mem_present.2 ⟨known, there⟩)
    obtain ⟨start, goes, way⟩ := FileTree.way_of_locate found
    exact ⟨named, old, oldMode, goes _ _ _ (way.same passes fun _ => FileTree.get?_erase_of_ne tree apart)⟩

theorem IsLogFolder.cleared (among : gone ⊆ present surroundings tree folder) (apart : gone.Nodup) :
    IsLogFolder surroundings (cleared tree folder gone) folder := by
  induction gone generalizing tree with
  | nil =>
    rw [cleared_nil]
    exact stands
  | cons name gone ih =>
    obtain ⟨first, later⟩ := List.cons_subset.1 among
    obtain ⟨fresh, apart⟩ := List.nodup_cons.1 apart
    rw [← cleared_erase]
    refine ih (stands.erase first) (fun other inside => ?_) apart
    obtain ⟨known, there⟩ := mem_present.1 (later inside)
    exact mem_present.2 ⟨mem_logs_erase.2 ⟨known, fun same => fresh (same ▸ inside)⟩, there⟩

end Folder

section Work

variable {bench : Bench} {folder : Place} (stands : IsLogFolder bench.surroundings bench.tree folder)
include stands

theorem outcome_names : Work.outcome names bench = (.ok (logs bench.surroundings bench.tree folder), bench) := by
  have there : bench.tree.isFolder bench.surroundings.place bench.surroundings.logFolder = true := by
    unfold FileTree.isFolder FileTree.node?
    rw [stands.leads.leads]
    rfl
  have looked : Work.outcome (Work.isFolder bench.surroundings.logFolder) bench = (.ok true, bench) := there ▸ rfl
  have opened : Work.outcome (Work.openFolder bench.surroundings.logFolder) bench = (.ok folder, bench) := by
    unfold Work.openFolder
    refine (Work.outcome_bind_ok (Work.outcome_surroundings bench) _).trans ?_
    refine (Work.outcome_bind_ok (Work.outcome_absolute _ bench) _).trans ?_
    rw [stands.lists, if_neg Bool.false_ne_true, Work.outcome_bind_ok (Work.outcome_locate stands.leads)]
    rfl
  have listed : Work.outcome (Work.listFolder bench.surroundings.logFolder) bench =
      (.ok (bench.tree.listed bench.surroundings.rank folder), bench) := Work.outcome_bind_ok opened _
  unfold names
  rw [Work.outcome_bind_ok (Work.outcome_surroundings bench)]
  dsimp only
  rw [Work.outcome_bind_ok looked, if_pos rfl, Work.outcome_bind_ok listed]
  rfl

theorem outcome_discard {name : String} (among : name ∈ present bench.surroundings bench.tree folder) :
    Work.outcome (discard name) bench = (.ok (), bench.onTree (·.erase (folder ++ [name]))) := by
  obtain ⟨named, contents, mode, finds⟩ := stands.files name among
  have removes : Work.outcome (Work.removeFile (Path.join bench.surroundings.logFolder name)) bench =
      (.ok (), bench.onTree (·.erase (folder ++ [name]))) := by
    unfold Work.removeFile
    rw [Work.outcome_bind_ok (Work.outcome_locate_of_finds named finds)]
    rfl
  have there : (created? bench.surroundings name).isSome = true := (mem_present.1 among).2
  unfold discard
  rw [Work.outcome_bind_ok (Work.outcome_surroundings bench), if_pos there,
    Work.outcome_bind_ok (Work.outcome_attempt_of_ok removes)]
  rfl

omit stands in
theorem outcome_discard_of_vanished {name : String} (vanished : isPresent bench.surroundings name = false) :
    Work.outcome (discard name) bench = (.ok (), bench) := by
  have none : ¬(created? bench.surroundings name).isSome = true := by
    unfold isPresent at vanished
    rw [vanished]
    exact Bool.false_ne_true
  unfold discard
  rw [Work.outcome_bind_ok (Work.outcome_surroundings bench), if_neg none]
  rfl

theorem outcome_forM_discard {gone : List String} (among : gone ⊆ logs bench.surroundings bench.tree folder)
    (apart : gone.Nodup) : Work.outcome (gone.forM discard) bench =
      (.ok (), bench.onTree (cleared · folder (gone.filter (isPresent bench.surroundings)))) := by
  induction gone generalizing bench with
  | nil => rw [List.filter_nil, Bench.onTree, cleared_nil]; rfl
  | cons name gone ih =>
    obtain ⟨first, later⟩ := List.cons_subset.1 among
    obtain ⟨fresh, apart⟩ := List.nodup_cons.1 apart
    change Work.outcome (discard name >>= fun _ => gone.forM discard) bench = _
    by_cases there : isPresent bench.surroundings name = true
    · have member := mem_present.2 ⟨first, there⟩
      have still : IsLogFolder (bench.onTree (·.erase (folder ++ [name]))).surroundings
          (bench.onTree (·.erase (folder ++ [name]))).tree folder := stands.erase member
      have left : gone ⊆ logs bench.surroundings (bench.tree.erase (folder ++ [name])) folder := fun other inside =>
        mem_logs_erase.2 ⟨later inside, fun same => fresh (same ▸ inside)⟩
      rw [Work.outcome_bind_ok (outcome_discard stands member),
        ih still left apart, List.filter_cons_of_pos there, Bench.onTree, Bench.onTree]
      simp only [cleared_erase]
    · rw [Work.outcome_bind_ok (outcome_discard_of_vanished (Bool.eq_false_iff.2 there)), ih stands later apart,
        List.filter_cons_of_neg there]

omit stands in
theorem stale_sublist (keep : Int) (names : List String) : (stale keep names).Sublist names := by
  unfold stale
  split
  · exact List.take_sublist ..
  · exact List.take_sublist ..

theorem outcome_prune (keep : Int) : Work.outcome (prune keep) bench =
    (.ok (), bench.onTree (cleared · folder (discarded bench.surroundings bench.tree folder keep))) := by
  have sorted := byAge_perm bench.surroundings (logs bench.surroundings bench.tree folder)
  have part := stale_sublist keep (byAge bench.surroundings (logs bench.surroundings bench.tree folder))
  have distinct := part.nodup (sorted.nodup_iff.2 (nodup_logs bench.surroundings bench.tree folder))
  unfold prune
  rw [Work.outcome_bind_ok (Work.outcome_surroundings bench), Work.outcome_bind_ok (outcome_names stands)]
  exact outcome_forM_discard stands (List.Subset.trans part.subset sorted.subset) distinct

end Work

/-- A log folder with four logs, of which one has vanished and the third is the oldest, and a note. -/
def shelfBench : Bench where
  tree := ⟨[([], .folder), (["L"], .folder), (["L", "a.log"], .file [97] 0o644),
    (["L", "b.log"], .file [98] 0o644), (["L", "c.log"], .file [99] 0o644),
    (["L", "d.log"], .file [100] 0o644), (["L", "notes.txt"], .file [] 0o644)], by decide⟩
  surroundings := { created := [("a.log", some 30), ("b.log", none), ("c.log", some 10)], createdElse := 20 }

theorem logs_shelf : logs shelfBench.surroundings shelfBench.tree ["L"] = ["a.log", "b.log", "c.log", "d.log"] := by
  unfold logs
  rw [show shelfBench.surroundings.rank = fun _ _ => 0 from rfl, FileTree.listed_zero, FileTree.names_eq,
    List.mergeSort_of_pairwise (by decide)]
  decide

theorem isLogFolder_shelf : IsLogFolder shelfBench.surroundings shelfBench.tree ["L"] where
  leads := ⟨by decide, rfl⟩
  lists := by decide
  files := by
    have there : present shelfBench.surroundings shelfBench.tree ["L"] = ["a.log", "c.log", "d.log"] := by
      rw [present, logs_shelf]
      decide
    intro name among
    simp only [there, List.mem_cons, List.not_mem_nil, or_false] at among
    rcases among with rfl | rfl | rfl
    · exact ⟨by decide, _, _, rfl⟩
    · exact ⟨by decide, _, _, rfl⟩
    · exact ⟨by decide, _, _, rfl⟩

end JuceWorkbench.LogFolder
