import JuceWorkbench.Proofs.Bench.Pruning

/-! Which log is the latest. Looking it up takes the first of the newest ones. Sorting by age keeps the
order of files of one age, so pruning, which cuts files off in front, lets the others of them stay
first: the two agree as long as all of the newest may stay (`prune_keeps_latest_iff`). -/

namespace JuceWorkbench.LogFolder

/-- A name is the first of the newest ones among some names. -/
def IsFirstNewest (surroundings : Surroundings) (name : String) (names : List String) : Prop :=
  ∃ front back, names = front ++ name :: back ∧
    (∀ other ∈ front, age surroundings other < age surroundings name) ∧
    ∀ other ∈ back, age surroundings other ≤ age surroundings name

def asNew (surroundings : Surroundings) (name : String) (names : List String) : List String :=
  names.filter fun other => decide (age surroundings name ≤ age surroundings other)

section Names

variable {surroundings : Surroundings} {name other : String} {names : List String}

theorem isFirstNewest_newest (surroundings : Surroundings) (first : String) (more : List String) :
    IsFirstNewest surroundings (newest surroundings first more) (first :: more) := by
  induction more generalizing first with
  | nil => exact ⟨[], [], rfl, by simp, by simp⟩
  | cons name more ih =>
    unfold newest
    split
    · rename_i younger
      obtain ⟨front, back, split, below, behind⟩ := ih name
      refine ⟨first :: front, back, by rw [split, List.cons_append], ?_, behind⟩
      refine List.forall_mem_cons.2 ⟨?_, below⟩
      -- the one that was best so far is older than the next, which is no newer than the newest
      cases front with
      | nil => exact (List.cons.inj split).1 ▸ younger
      | cons _ _ =>
        obtain ⟨rfl, -⟩ := List.cons.inj split
        exact Int.lt_trans younger (below _ List.mem_cons_self)
    · rename_i older
      obtain ⟨front, back, split, below, behind⟩ := ih first
      cases front with
      | nil =>
        obtain ⟨same, rfl⟩ := List.cons.inj split
        refine ⟨[], name :: more, by rw [← same, List.nil_append], by simp, ?_⟩
        rw [← same] at behind ⊢
        exact List.forall_mem_cons.2 ⟨Int.not_lt.1 older, behind⟩
      | cons _ front =>
        obtain ⟨rfl, rest⟩ := List.cons.inj split
        refine ⟨first :: name :: front, back, congrArg (first :: name :: ·) rest, ?_, behind⟩
        have above := below first List.mem_cons_self
        refine List.forall_mem_cons.2 ⟨above, List.forall_mem_cons.2 ⟨?_, ?_⟩⟩
        · exact Int.lt_of_le_of_lt (Int.not_lt.1 older) above
        · exact fun other member => below other (List.mem_cons_of_mem first member)

theorem IsFirstNewest.mem (is : IsFirstNewest surroundings name names) : name ∈ names := by
  obtain ⟨front, back, rfl, -⟩ := is
  exact List.mem_append_right front List.mem_cons_self

theorem IsFirstNewest.unique (is : IsFirstNewest surroundings name names)
    (again : IsFirstNewest surroundings other names) : name = other := by
  obtain ⟨front, back, split, below, behind⟩ := is
  obtain ⟨before, after, cut, under, next⟩ := again
  rcases List.append_eq_append_iff.1 (split.symm.trans cut) with ⟨gap, ahead, same⟩ | ⟨gap, ahead, same⟩
  · cases gap with
    | nil => exact (List.cons.inj same).1
    | cons _ gap =>
      obtain ⟨rfl, rfl⟩ := List.cons.inj same
      have early := under name (by rw [ahead]; simp)
      have late := behind other (by simp)
      omega
  · cases gap with
    | nil => exact (List.cons.inj same).1.symm
    | cons _ gap =>
      obtain ⟨rfl, rfl⟩ := List.cons.inj same
      have early := below other (by rw [ahead]; simp)
      have late := next name (by simp)
      omega

theorem IsFirstNewest.filter (is : IsFirstNewest surroundings name names) {holds : String → Bool}
    (here : holds name = true) : IsFirstNewest surroundings name (names.filter holds) := by
  obtain ⟨front, back, rfl, below, behind⟩ := is
  refine ⟨front.filter holds, back.filter holds, ?_, ?_, ?_⟩
  · rw [List.filter_append, List.filter_cons_of_pos here]
  · exact fun other member => below other (List.mem_filter.1 member).1
  · exact fun other member => behind other (List.mem_filter.1 member).1

/-- The newest files keep their order when all are sorted by age, and come behind the others. -/
theorem exists_byAge_eq (is : IsFirstNewest surroundings name names) :
    ∃ front, byAge surroundings names = front ++ asNew surroundings name names ∧
      ∀ other ∈ front, age surroundings other < age surroundings name := by
  let holds (other : String) : Bool := decide (age surroundings name ≤ age surroundings other)
  have most : ∀ other ∈ names, age surroundings other ≤ age surroundings name := by
    obtain ⟨front, back, rfl, below, behind⟩ := is
    refine List.forall_mem_append.2 ⟨fun other member => Int.le_of_lt (below other member), ?_⟩
    exact List.forall_mem_cons.2 ⟨Int.le_refl _, behind⟩
  have sorted : (byAge surroundings names).Pairwise fun a b => holds a = true → holds b = true :=
    (pairwise_byAge surroundings names).imp fun older new =>
      decide_eq_true (Int.le_trans (of_decide_eq_true new) older)
  obtain ⟨front, back, split, off, on⟩ := exists_cut sorted
  have alike : (names.filter holds).Pairwise
      fun a b => decide (age surroundings a ≤ age surroundings b) = true := by
    refine List.pairwise_of_forall_mem_list fun a first b second => ?_
    obtain ⟨known, -⟩ := List.mem_filter.1 first
    exact decide_eq_true (Int.le_trans (most a known) (of_decide_eq_true (List.mem_filter.1 second).2))
  have kept : (names.filter holds).Sublist (byAge surroundings names) :=
    List.sublist_mergeSort (age_trans surroundings) (age_total surroundings) alike List.filter_sublist
  have inside := kept.filter holds
  rw [split, filter_cut off on, List.filter_filter] at inside
  simp only [Bool.and_self] at inside
  have same : names.filter holds = back := by
    refine inside.eq_of_length ?_
    have counted := ((byAge_perm surroundings names).filter holds).length_eq
    rw [split, filter_cut off on] at counted
    exact counted.symm
  refine ⟨front, by rw [split, ← same]; rfl, fun other member => ?_⟩
  exact Int.not_le.1 (of_decide_eq_false (off other member))

theorem mem_stale_iff {keep : Int} (is : IsFirstNewest surroundings name names) (nonneg : 0 ≤ keep) :
    name ∈ stale keep (byAge surroundings names) ↔ keep < (asNew surroundings name names).length := by
  obtain ⟨front, sorted, below⟩ := exists_byAge_eq is
  obtain ⟨before, back, rfl, under, -⟩ := is
  have first : asNew surroundings name (before ++ name :: back) =
      name :: asNew surroundings name back := by
    unfold asNew
    rw [List.filter_append, List.filter_cons_of_pos (by simp), List.filter_eq_nil_iff.2, List.nil_append]
    exact fun other member => by simpa using under other member
  have fresh : name ∉ front := fun early => absurd (below name early) (Int.lt_irrefl _)
  have share : (front ++ asNew surroundings name (before ++ name :: back)).length - keep.toNat - front.length =
      (asNew surroundings name (before ++ name :: back)).length - keep.toNat := by
    rw [List.length_append]
    omega
  rw [sorted, stale_of_nonneg nonneg, List.take_append, share, List.mem_append]
  have front_free : name ∉ front.take
      ((front ++ asNew surroundings name (before ++ name :: back)).length - keep.toNat) :=
    fun early => fresh (List.mem_of_mem_take early)
  rw [or_iff_right front_free]
  generalize count : (asNew surroundings name (before ++ name :: back)).length = total
  rw [first]
  by_cases few : total - keep.toNat = 0
  · rw [few, List.take_zero]
    exact ⟨fun member => absurd member List.not_mem_nil, fun less => by omega⟩
  · obtain ⟨rest, some⟩ := Nat.exists_eq_succ_of_ne_zero few
    rw [some, List.take_succ_cons]
    exact ⟨fun _ => by omega, fun _ => List.mem_cons_self⟩

end Names

section Work

variable {bench : Bench} {folder : Place} {name : String} {path : String}
  (stands : IsLogFolder bench.surroundings bench.tree folder)
include stands

theorem outcome_latest?
    (there : ∀ other ∈ logs bench.surroundings bench.tree folder, isPresent bench.surroundings other = true)
    (is : IsFirstNewest bench.surroundings name (logs bench.surroundings bench.tree folder)) :
    Work.outcome latest? bench = (.ok (some (Path.join bench.surroundings.logFolder name)), bench) := by
  unfold latest?
  rw [Work.outcome_bind_ok (Work.outcome_surroundings bench), Work.outcome_bind_ok (outcome_names stands)]
  generalize logs bench.surroundings bench.tree folder = listed at there is
  cases listed with
  | nil => exact absurd is.mem List.not_mem_nil
  | cons first more =>
    have none : (first :: more).find? (fun name => (created? bench.surroundings name).isNone) = none := by
      refine List.find?_eq_none.2 fun other member => ?_
      have made : (created? bench.surroundings other).isSome = true := there other member
      rw [← Option.not_isSome, made]
      exact Bool.false_ne_true
    dsimp only
    rw [none, (isFirstNewest_newest bench.surroundings first more).unique is]
    rfl

theorem exists_of_latest? {after : Bench} (ends : Work.outcome latest? bench = (.ok (some path), after)) :
    ∃ name, path = Path.join bench.surroundings.logFolder name ∧
      (∀ other ∈ logs bench.surroundings bench.tree folder, isPresent bench.surroundings other = true) ∧
      IsFirstNewest bench.surroundings name (logs bench.surroundings bench.tree folder) := by
  unfold latest? at ends
  rw [Work.outcome_bind_ok (Work.outcome_surroundings bench), Work.outcome_bind_ok (outcome_names stands)] at ends
  generalize logs bench.surroundings bench.tree folder = listed at ends
  cases listed with
  | nil => cases ends
  | cons first more =>
    dsimp only at ends
    cases found : (first :: more).find? (fun name => (created? bench.surroundings name).isNone) with
    | some vanished =>
      rw [found] at ends
      cases ends
    | none =>
      rw [found] at ends
      cases ends
      refine ⟨_, rfl, fun other member => ?_, isFirstNewest_newest ..⟩
      have kept := List.find?_eq_none.1 found other member
      exact Option.isSome_iff_ne_none.2 (by simpa using kept)

omit stands in
theorem discarded_of_present (surroundings : Surroundings) {tree : FileTree} {folder : Place}
    (there : ∀ other ∈ logs surroundings tree folder, isPresent surroundings other = true) (keep : Int) :
    discarded surroundings tree folder keep = stale keep (byAge surroundings (logs surroundings tree folder)) :=
  List.filter_eq_self.2 fun other member =>
    there other ((byAge_perm ..).subset ((stale_sublist ..).subset member))

/-- Pruning keeps the log that was the latest, and it stays the latest, exactly if all that are as new may
stay. -/
theorem prune_keeps_latest_iff {keep : Int} (some_stay : 1 ≤ keep)
    (latest : Work.outcome latest? bench = (.ok (some path), bench)) :
    ∃ name tree, path = Path.join bench.surroundings.logFolder name ∧
      name ∈ logs bench.surroundings bench.tree folder ∧
      Work.outcome (prune keep) bench = (.ok (), { bench with tree }) ∧
      ((tree.get? (folder ++ [name]) = bench.tree.get? (folder ++ [name]) ∧
          Work.outcome latest? { bench with tree } = (.ok (some path), { bench with tree })) ↔
        (asNew bench.surroundings name (logs bench.surroundings bench.tree folder)).length ≤ keep) := by
  obtain ⟨name, rfl, there, is⟩ := exists_of_latest? stands latest
  refine ⟨name, _, rfl, is.mem, outcome_prune stands keep, ?_⟩
  rw [discarded_of_present bench.surroundings there]
  have goes := mem_stale_iff is (show 0 ≤ keep by omega)
  constructor
  · rintro ⟨same, -⟩
    -- if it went, nothing would stand at its place
    refine Int.not_lt.1 fun few => ?_
    obtain ⟨-, contents, mode, finds⟩ := stands.files name (mem_present.2 ⟨is.mem, there name is.mem⟩)
    rw [get?_cleared, if_pos (mem_map_place.2 (goes.2 few))] at same
    cases same.trans (FileTree.get?_place_of_locate finds (by rintro ⟨⟩))
  · intro enough
    have stays : name ∉ stale keep (byAge bench.surroundings (logs bench.surroundings bench.tree folder)) := by
      rw [goes]
      exact Int.not_lt.2 enough
    let after := bench.onTree (cleared · folder
      (stale keep (byAge bench.surroundings (logs bench.surroundings bench.tree folder))))
    have part := stale_sublist keep (byAge bench.surroundings (logs bench.surroundings bench.tree folder))
    have still : IsLogFolder after.surroundings after.tree folder := by
      refine stands.cleared (fun other member => ?_) ?_
      · have known := (byAge_perm ..).subset (part.subset member)
        exact mem_present.2 ⟨known, there other known⟩
      · exact part.nodup ((byAge_perm ..).nodup_iff.2 (nodup_logs ..))
    have left : logs after.surroundings after.tree folder = _ := logs_cleared ..
    refine ⟨?_, outcome_latest? still ?_ ?_⟩
    · rw [get?_cleared, if_neg (fun gone => stays (mem_map_place.1 gone))]
    · intro other member
      rw [left] at member
      exact there other (List.mem_filter.1 member).1
    · rw [left]
      exact is.filter (by simpa using stays)

end Work

def twinBench : Bench where
  tree := ⟨[([], .folder), (["L"], .folder), (["L", "a.log"], .file [97] 0o644),
    (["L", "b.log"], .file [98] 0o644)], by decide⟩
  surroundings := {}

theorem logs_twin : logs twinBench.surroundings twinBench.tree ["L"] = ["a.log", "b.log"] := by
  unfold logs
  rw [show twinBench.surroundings.rank = fun _ _ => 0 from rfl, FileTree.listed_zero, FileTree.names_eq,
    List.mergeSort_of_pairwise (by decide)]
  decide

theorem present_twin : ∀ name ∈ logs twinBench.surroundings twinBench.tree ["L"],
    isPresent twinBench.surroundings name = true := by
  rw [logs_twin]
  decide

theorem isLogFolder_twin : IsLogFolder twinBench.surroundings twinBench.tree ["L"] where
  leads := ⟨by decide, rfl⟩
  lists := by decide
  files := by
    intro name among
    have known := (mem_present.1 among).1
    simp only [logs_twin, List.mem_cons, List.not_mem_nil, or_false] at known
    rcases known with rfl | rfl
    · exact ⟨by decide, _, _, rfl⟩
    · exact ⟨by decide, _, _, rfl⟩

theorem isFirstNewest_twin :
    IsFirstNewest twinBench.surroundings "a.log" (logs twinBench.surroundings twinBench.tree ["L"]) := by
  rw [logs_twin]
  exact ⟨[], ["b.log"], rfl, by simp, by decide⟩

/-- Of two logs of one age the first is the latest, and it is the one that goes when one may stay. -/
theorem twin_latest_pruned : Work.outcome latest? twinBench = (.ok (some "/L/a.log"), twinBench) ∧
    ∃ tree, Work.outcome (prune 1) twinBench = (.ok (), { twinBench with tree }) ∧
      tree.get? ["L", "a.log"] = none ∧
      Work.outcome latest? { twinBench with tree } = (.ok (some "/L/b.log"), { twinBench with tree }) := by
  have sorted : byAge twinBench.surroundings ["a.log", "b.log"] = ["a.log", "b.log"] :=
    List.mergeSort_of_pairwise (by decide)
  have gone : discarded twinBench.surroundings twinBench.tree ["L"] 1 = ["a.log"] := by
    rw [discarded_of_present _ present_twin, logs_twin, sorted]
    decide
  have pruned := outcome_prune isLogFolder_twin 1
  rw [gone] at pruned
  have left : logs twinBench.surroundings (twinBench.onTree (cleared · ["L"] ["a.log"])).tree ["L"] = ["b.log"] := by
    refine (logs_cleared ..).trans ?_
    rw [logs_twin]
    decide
  have still : IsLogFolder (twinBench.onTree (cleared · ["L"] ["a.log"])).surroundings
      (twinBench.onTree (cleared · ["L"] ["a.log"])).tree ["L"] := by
    refine isLogFolder_twin.cleared (fun name among => ?_) (by decide)
    obtain rfl := List.mem_singleton.1 among
    exact mem_present.2 ⟨isFirstNewest_twin.mem, rfl⟩
  have next : IsFirstNewest (twinBench.onTree (cleared · ["L"] ["a.log"])).surroundings "b.log"
      (logs twinBench.surroundings (twinBench.onTree (cleared · ["L"] ["a.log"])).tree ["L"]) :=
    left ▸ ⟨[], [], rfl, by simp, by simp⟩
  have found := outcome_latest? still (by rw [left]; decide) next
  exact ⟨outcome_latest? isLogFolder_twin present_twin isFirstNewest_twin, _, pruned, rfl, found⟩

theorem prune_keeps_latest_iff_twin :
    (IsLogFolder twinBench.surroundings twinBench.tree ["L"] ∧ (1 : Int) ≤ 2 ∧
      Work.outcome latest? twinBench = (.ok (some "/L/a.log"), twinBench)) ∧
    ∃ name tree, "/L/a.log" = Path.join twinBench.surroundings.logFolder name ∧
      name ∈ logs twinBench.surroundings twinBench.tree ["L"] ∧
      Work.outcome (prune 2) twinBench = (.ok (), { twinBench with tree }) ∧
      ((tree.get? (["L"] ++ [name]) = twinBench.tree.get? (["L"] ++ [name]) ∧
          Work.outcome latest? { twinBench with tree } = (.ok (some "/L/a.log"), { twinBench with tree })) ↔
        (asNew twinBench.surroundings name (logs twinBench.surroundings twinBench.tree ["L"])).length ≤ (2 : Int)) := by
  have latest : Work.outcome latest? twinBench = (.ok (some "/L/a.log"), twinBench) :=
    outcome_latest? isLogFolder_twin present_twin isFirstNewest_twin
  exact ⟨⟨isLogFolder_twin, by decide, latest⟩, prune_keeps_latest_iff isLogFolder_twin (by decide) latest⟩

end JuceWorkbench.LogFolder
