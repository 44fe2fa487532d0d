/-! A file tree: what stands at each place. A place is the list of names on the way from the
root, and no place occurs twice. Each operation is described by what `get?` finds at each
place afterwards. -/

namespace JuceWorkbench

abbrev Place := List String

inductive Node
  | file (contents : List UInt8) (mode : Nat)
  | folder
  | link (target : String)
  deriving DecidableEq, Repr

structure FileTree where
  entries : List (Place × Node)
  distinct : (entries.map Prod.fst).Nodup

namespace FileTree

def bare : FileTree := ⟨[([], .folder)], by simp⟩

def lookup (place : Place) : List (Place × Node) → Option Node
  | [] => none
  | entry :: more => if entry.1 = place then some entry.2 else lookup place more

def get? (tree : FileTree) (place : Place) : Option Node := lookup place tree.entries

/-- Gives a place a node, in its position if the place is there and else at the end. -/
def assign (place : Place) (node : Node) : List (Place × Node) → List (Place × Node)
  | [] => [(place, node)]
  | entry :: more =>
    if entry.1 = place then (place, node) :: more else entry :: assign place node more

theorem places_assign (place : Place) (node : Node) (entries : List (Place × Node)) :
    (assign place node entries).map Prod.fst =
      if place ∈ entries.map Prod.fst then entries.map Prod.fst
      else entries.map Prod.fst ++ [place] := by
  induction entries with
  | nil => simp [assign]
  | cons entry more ih =>
    unfold assign
    split
    · rename_i same
      simp [same]
    · rename_i other
      have other : place ≠ entry.1 := fun same => other same.symm
      simp only [List.map_cons, ih, List.mem_cons, other, false_or]
      split <;> simp

theorem distinct_assign (place : Place) (node : Node) {entries : List (Place × Node)}
    (distinct : (entries.map Prod.fst).Nodup) :
    ((assign place node entries).map Prod.fst).Nodup := by
  rw [places_assign]
  split
  · exact distinct
  · rename_i fresh
    refine List.nodup_append.2 ⟨distinct, by simp, ?_⟩
    intro a ha b hb same
    have : b = place := by simpa using hb
    exact fresh (this ▸ same ▸ ha)

def put (tree : FileTree) (place : Place) (node : Node) : FileTree :=
  ⟨assign place node tree.entries, distinct_assign place node tree.distinct⟩

def without (tree : FileTree) (gone : Place → Bool) : FileTree :=
  ⟨tree.entries.filter fun entry => !gone entry.1,
    tree.distinct.sublist (List.filter_sublist.map Prod.fst)⟩

def erase (tree : FileTree) (place : Place) : FileTree := tree.without fun other => other == place

def eraseUnder (tree : FileTree) (place : Place) : FileTree :=
  tree.without fun other => place.isPrefixOf other

theorem lookup_assign_self (place : Place) (node : Node) (entries : List (Place × Node)) :
    lookup place (assign place node entries) = some node := by
  induction entries with
  | nil => simp [assign, lookup]
  | cons entry more ih =>
    unfold assign
    split
    · simp [lookup]
    · rename_i other
      simp [lookup, other, ih]

theorem lookup_assign_of_ne {place other : Place} (ne : other ≠ place) (node : Node)
    (entries : List (Place × Node)) :
    lookup other (assign place node entries) = lookup other entries := by
  induction entries with
  | nil => simp [assign, lookup, Ne.symm ne]
  | cons entry more ih =>
    unfold assign
    split
    · rename_i same
      simp [lookup, same, Ne.symm ne]
    · simp only [lookup, ih]

@[simp] theorem get?_put_self (tree : FileTree) (place : Place) (node : Node) :
    (tree.put place node).get? place = some node := lookup_assign_self place node tree.entries

theorem get?_put_of_ne (tree : FileTree) {place other : Place} (ne : other ≠ place) (node : Node) :
    (tree.put place node).get? other = tree.get? other :=
  lookup_assign_of_ne ne node tree.entries

theorem lookup_filter (gone : Place → Bool) (place : Place) (entries : List (Place × Node)) :
    lookup place (entries.filter fun entry => !gone entry.1) =
      if gone place then none else lookup place entries := by
  induction entries with
  | nil => simp [lookup]
  | cons entry more ih =>
    rw [List.filter_cons]
    split
    · rename_i keeps
      unfold lookup
      split
      · rename_i same
        subst same
        simp_all
      · exact ih
    · rename_i drops
      rw [ih]
      split
      · rfl
      · rename_i stays
        have other : entry.1 ≠ place := by rintro rfl; simp_all
        simp [lookup, other]

theorem get?_without (tree : FileTree) (gone : Place → Bool) (place : Place) :
    (tree.without gone).get? place = if gone place then none else tree.get? place :=
  lookup_filter gone place tree.entries

@[simp] theorem get?_erase_self (tree : FileTree) (place : Place) :
    (tree.erase place).get? place = none := by simp [erase, get?_without]

theorem get?_erase_of_ne (tree : FileTree) {place other : Place} (ne : other ≠ place) :
    (tree.erase place).get? other = tree.get? other := by
  simp [erase, get?_without, ne]

theorem get?_eraseUnder (tree : FileTree) (place other : Place) :
    (tree.eraseUnder place).get? other =
      if place.isPrefixOf other then none else tree.get? other :=
  get?_without tree _ other

theorem erase_put_of_free (tree : FileTree) {place : Place} (free : tree.get? place = none)
    (node : Node) : (tree.put place node).erase place = tree := by
  have core : ∀ entries : List (Place × Node), lookup place entries = none →
      (assign place node entries).filter (fun entry => !(entry.1 == place)) = entries := by
    intro entries
    induction entries with
    | nil => simp [assign]
    | cons entry more ih =>
      intro none_here
      unfold lookup at none_here
      split at none_here
      · simp at none_here
      · rename_i other
        unfold assign
        rw [if_neg other, List.filter_cons, if_pos (by simpa using other), ih none_here]
  cases tree with
  | mk entries distinct =>
    simp only [put, erase, without, mk.injEq]
    exact core entries free

def names (tree : FileTree) (folder : Place) : List String :=
  let found := tree.entries.filterMap fun entry =>
    match entry.1.getLast? with
    | some name => if entry.1.dropLast = folder then some name else none
    | none => none
  found.mergeSort fun a b => decide (a ≤ b)

/-- Names of smaller rank first, and those of one rank in the order of their code points. -/
def comesFirst (rank : String → Nat) (a b : String) : Bool :=
  decide (rank a < rank b) || (rank a == rank b && decide (a ≤ b))

def listed (tree : FileTree) (rank : Place → String → Nat) (folder : Place) : List String :=
  (tree.names folder).mergeSort (comesFirst (rank folder))

def ensureFolder (tree : FileTree) (place : Place) : FileTree :=
  if (tree.get? place).isSome then tree else tree.put place .folder

/-- The tree with a node at a place and folders at the free places above it. -/
def plant (tree : FileTree) (place : Place) (node : Node) : FileTree :=
  let above := (List.range place.length).map place.take
  (above.foldl ensureFolder tree).put place node

def depth (tree : FileTree) : Nat := (tree.entries.map fun entry => entry.1.length).foldl max 0

end FileTree
end JuceWorkbench
