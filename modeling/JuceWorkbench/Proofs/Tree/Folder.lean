import JuceWorkbench.Tree.Basic

/-! What stands in a folder. The names in a folder are those of the taken places right below it,
each once and in the order of their code points. No place is deeper than the tree. -/

namespace JuceWorkbench.FileTree

theorem lookup_isSome_iff (place : Place) (entries : List (Place × Node)) :
    (lookup place entries).isSome = true ↔ place ∈ entries.map Prod.fst := by
  induction entries with
  | nil => simp [lookup]
  | cons entry more ih =>
    unfold lookup
    split
    · rename_i same
      simp [same]
    · rename_i other
      simp [ih, Ne.symm other]

theorem isSome_get?_iff (tree : FileTree) (place : Place) :
    (tree.get? place).isSome = true ↔ place ∈ tree.entries.map Prod.fst :=
  lookup_isSome_iff place tree.entries

def nameIn (folder place : Place) : Option String :=
  match place.getLast? with
  | some name => if place.dropLast = folder then some name else none
  | none => none

theorem nameIn_eq_some_iff (folder place : Place) (name : String) :
    nameIn folder place = some name ↔ place = folder ++ [name] := by
  rcases List.eq_nil_or_concat place with rfl | ⟨front, last, rfl⟩
  · simp [nameIn]
  · simp only [nameIn, List.concat_eq_append, List.getLast?_concat, List.dropLast_concat]
    by_cases inside : front = folder
    · simp [inside]
    · simp only [if_neg inside, reduceCtorEq, false_iff]
      intro same
      exact inside (List.append_inj' same rfl).1

theorem names_eq (tree : FileTree) (folder : Place) :
    tree.names folder =
      ((tree.entries.map Prod.fst).filterMap (nameIn folder)).mergeSort fun a b => decide (a ≤ b) := by
  rw [List.filterMap_map]
  rfl

theorem mem_names (tree : FileTree) (folder : Place) (name : String) :
    name ∈ tree.names folder ↔ (tree.get? (folder ++ [name])).isSome = true := by
  rw [names_eq, List.mem_mergeSort, isSome_get?_iff, List.mem_filterMap]
  constructor
  · rintro ⟨place, member, named⟩
    exact (nameIn_eq_some_iff folder place name).1 named ▸ member
  · intro member
    exact ⟨_, member, (nameIn_eq_some_iff folder _ name).2 rfl⟩

theorem nodup_names (tree : FileTree) (folder : Place) : (tree.names folder).Nodup := by
  rw [names_eq, (List.mergeSort_perm _ _).nodup_iff]
  refine List.Pairwise.filterMap (nameIn folder) ?_ tree.distinct
  intro place other apart name named again renamed same
  rw [nameIn_eq_some_iff] at named renamed
  exact apart (by rw [named, renamed, same])

theorem pairwise_names (tree : FileTree) (folder : Place) :
    (tree.names folder).Pairwise (· < ·) := by
  have sorted : (tree.names folder).Pairwise (· ≤ ·) := by
    rw [names_eq]
    refine (List.pairwise_mergeSort ?_ ?_ _).imp of_decide_eq_true
    · intro a b c first second
      exact decide_eq_true (String.le_trans (of_decide_eq_true first) (of_decide_eq_true second))
    · intro a b
      simpa using String.le_total a b
  exact sorted.imp₂ (fun _ _ below apart => Std.lt_of_le_of_ne below apart) (tree.nodup_names folder)

theorem names_without (tree : FileTree) (gone : Place → Bool) (folder : Place) :
    (tree.without gone).names folder = (tree.names folder).filter fun name => !gone (folder ++ [name]) := by
  have members : ∀ name, name ∈ (tree.without gone).names folder ↔
      name ∈ (tree.names folder).filter fun name => !gone (folder ++ [name]) := by
    intro name
    rw [List.mem_filter, mem_names, mem_names, get?_without]
    cases gone (folder ++ [name]) <;> simp
  have sorted := tree.pairwise_names folder
  have same := (List.perm_ext_iff_of_nodup ((tree.without gone).nodup_names folder)
    ((tree.nodup_names folder).filter _)).2 members
  have apart : ∀ a b : String, a ∈ (tree.without gone).names folder →
      b ∈ (tree.names folder).filter (fun name => !gone (folder ++ [name])) → a < b → b < a → a = b :=
    fun a b _ _ below above => absurd below (String.lt_asymm above)
  exact same.eq_of_pairwise apart ((tree.without gone).pairwise_names folder) (sorted.filter _)

/-! The order of a listing. -/

section Listing

variable (rank : Place → String → Nat)

theorem comesFirst_iff (rank : String → Nat) (a b : String) :
    comesFirst rank a b = true ↔ rank a < rank b ∨ rank a = rank b ∧ a ≤ b := by
  simp [comesFirst]

theorem listed_perm (tree : FileTree) (folder : Place) :
    (tree.listed rank folder).Perm (tree.names folder) := List.mergeSort_perm ..

theorem nodup_listed (tree : FileTree) (folder : Place) : (tree.listed rank folder).Nodup :=
  (tree.listed_perm rank folder).nodup_iff.2 (tree.nodup_names folder)

theorem pairwise_listed (tree : FileTree) (folder : Place) :
    (tree.listed rank folder).Pairwise fun a b => comesFirst (rank folder) a b = true := by
  refine List.pairwise_mergeSort ?_ ?_ _
  · intro a b c first second
    rw [comesFirst_iff] at *
    rcases first with less | ⟨same, before⟩
    · omega
    · rcases second with less | ⟨again, after⟩
      · omega
      · exact Or.inr ⟨same.trans again, String.le_trans before after⟩
  · intro a b
    rw [Bool.or_eq_true, comesFirst_iff, comesFirst_iff]
    rcases Nat.lt_trichotomy (rank folder a) (rank folder b) with less | same | more
    · exact Or.inl (Or.inl less)
    · exact (String.le_total a b).imp (fun before => Or.inr ⟨same, before⟩)
        fun after => Or.inr ⟨same.symm, after⟩
    · exact Or.inr (Or.inl more)

theorem comesFirst_antisymm {rank : String → Nat} {a b : String} (first : comesFirst rank a b = true)
    (second : comesFirst rank b a = true) : a = b := by
  rw [comesFirst_iff] at *
  rcases first with less | ⟨same, before⟩
  · rcases second with more | ⟨same, -⟩ <;> omega
  · rcases second with less | ⟨-, after⟩
    · omega
    · exact String.le_antisymm before after

/-- Names that are in the order of the ranks are the listing. -/
theorem listed_eq {tree : FileTree} {folder : Place} {order : List String}
    (sorted : order.Pairwise fun a b => comesFirst (rank folder) a b = true)
    (same : order.Perm (tree.names folder)) : tree.listed rank folder = order :=
  ((tree.listed_perm rank folder).trans same.symm).eq_of_pairwise
    (fun _ _ _ _ => comesFirst_antisymm) (tree.pairwise_listed rank folder) sorted

/-- Any order of the names in a folder is that of some ranks. -/
theorem exists_listed_eq {tree : FileTree} {folder : Place} {order : List String}
    (same : order.Perm (tree.names folder)) : ∃ rank, tree.listed rank folder = order := by
  refine ⟨fun _ name => order.idxOf name, listed_eq _ ?_ same⟩
  have distinct : order.Nodup := same.nodup_iff.2 (tree.nodup_names folder)
  rw [List.pairwise_iff_getElem]
  intro i j first second before
  rw [comesFirst_iff, distinct.idxOf_getElem i first, distinct.idxOf_getElem j second]
  exact Or.inl before

theorem listed_zero (tree : FileTree) (folder : Place) :
    tree.listed (fun _ _ => 0) folder = tree.names folder := by
  refine listed_eq _ ((tree.pairwise_names folder).imp fun before => ?_) (.refl _)
  rw [comesFirst_iff]
  exact Or.inr ⟨rfl, Std.le_of_lt before⟩

theorem listed_without (tree : FileTree) (gone : Place → Bool) (folder : Place) :
    (tree.without gone).listed rank folder =
      (tree.listed rank folder).filter fun name => !gone (folder ++ [name]) := by
  refine listed_eq rank ((tree.pairwise_listed rank folder).filter _) ?_
  rw [names_without]
  exact (tree.listed_perm rank folder).filter _

end Listing

theorem le_foldl_max (lengths : List Nat) (start : Nat) :
    start ≤ lengths.foldl max start ∧ ∀ n ∈ lengths, n ≤ lengths.foldl max start := by
  induction lengths generalizing start with
  | nil => simp
  | cons first more ih =>
    obtain ⟨reaches, bounds⟩ := ih (max start first)
    refine ⟨by simp only [List.foldl_cons]; omega, ?_⟩
    intro n member
    rcases List.mem_cons.1 member with rfl | later
    · simp only [List.foldl_cons]
      omega
    · exact bounds n later

theorem length_le_depth (tree : FileTree) (place : Place)
    (taken : (tree.get? place).isSome = true) : place.length ≤ tree.depth := by
  obtain ⟨entry, member, rfl⟩ := List.mem_map.1 ((tree.isSome_get?_iff place).1 taken)
  exact (le_foldl_max _ 0).2 _ (List.mem_map_of_mem member)

end JuceWorkbench.FileTree
