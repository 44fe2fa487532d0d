import JuceWorkbench.Proofs.Artifact.Relocation

/-! What the search for a program does not see. Writing other octets to a file that is there, as the
log does, leaves the program that is found the same: `resolve_rewritten`. -/

namespace JuceWorkbench

namespace FileTree

variable {tree : FileTree} {spot : Place}

theorem places_put (taken : (tree.get? spot).isSome = true) (node : Node) :
    (tree.put spot node).entries.map Prod.fst = tree.entries.map Prod.fst := by
  rw [isSome_get?_iff] at taken
  exact (places_assign spot node tree.entries).trans (if_pos taken)

theorem names_put (taken : (tree.get? spot).isSome = true) (node : Node) (folder : Place) :
    (tree.put spot node).names folder = tree.names folder := by
  rw [names_eq, names_eq, places_put taken]

theorem depth_put (taken : (tree.get? spot).isSome = true) (node : Node) :
    (tree.put spot node).depth = tree.depth := by
  have lengths (tree : FileTree) : tree.depth =
      ((tree.entries.map Prod.fst).map List.length).foldl max 0 := by
    rw [List.map_map]
    rfl
  rw [lengths, lengths, places_put taken]

end FileTree

namespace Artifact
open Project FileTree

section Rewriting

variable {tree : FileTree} {surroundings : Surroundings} {spot : Place} {old contents : List UInt8}
  {mode : Nat}

theorem get?_rewritten_folder (there : tree.get? spot = some (.file old mode)) (place : Place) :
    (tree.put spot (.file contents mode)).get? place = some .folder ↔ tree.get? place = some .folder := by
  by_cases here : place = spot
  · subst here
    simp [there]
  · rw [get?_put_of_ne tree here]

theorem below_rewritten (there : tree.get? spot = some (.file old mode)) (listable : String → Bool)
    (depth : Nat) (place : Place) (folder : String) :
    Survey.below (tree.put spot (.file contents mode)) listable depth place folder =
      Survey.below tree listable depth place folder := by
  induction depth generalizing place folder with
  | zero => rfl
  | succ depth ih =>
    simp only [Survey.below, names_put (by rw [there]; rfl : (tree.get? spot).isSome = true),
      get?_rewritten_folder there, ih]

theorem outcomeOf_rewritten (there : tree.get? spot = some (.file old mode)) (path : String) :
    outcomeOf (tree.put spot (.file contents mode)) surroundings path = outcomeOf tree surroundings path := by
  unfold outcomeOf node?
  rw [locate_rewritten there]
  cases leads : tree.locate true surroundings.place path with
  | error reason => rfl
  | ok location =>
    match location, leads with
    | .free place, _ => rfl
    | .taken place .folder, _ => rfl
    | .taken place (.link target), _ => rfl
    | .taken place (.file other bits), leads =>
      by_cases here : place = spot
      · have found := get?_place_of_locate leads (by rintro ⟨⟩)
        rw [Location.place, here, there] at found
        obtain ⟨rfl, rfl⟩ := Node.file.inj (Option.some.inj found)
        simp [Except.map, Location.rewritten, here, shapeOf]
      · simp [Except.map, Location.rewritten, here]

theorem isFolder_of_outcomeOf (tree : FileTree) (surroundings : Surroundings) (path : String) :
    tree.isFolder surroundings.place path = (outcomeOf tree surroundings path == some .folder) := by
  unfold isFolder outcomeOf
  cases tree.node? surroundings.place path with
  | none => rfl
  | some node => cases node <;> rfl

theorem of_rewritten (there : tree.get? spot = some (.file old mode)) (root : String) :
    Survey.of (tree.put spot (.file contents mode)) surroundings root = Survey.of tree surroundings root := by
  unfold Survey.of
  rw [locate_rewritten there, depth_put (by rw [there]; rfl)]
  cases tree.locate true surroundings.place root with
  | error reason => rfl
  | ok location =>
    match location with
    | .free place => rfl
    | .taken place (.link target) => rfl
    | .taken place .folder => simp only [Except.map, Location.rewritten, below_rewritten there]
    | .taken place (.file other bits) =>
      by_cases here : place = spot
      · simp [Except.map, Location.rewritten, here]
      · simp [Except.map, Location.rewritten, here]

theorem resolve_rewritten (there : tree.get? spot = some (.file old mode)) (contents : List UInt8)
    (metadata : Metadata) (platform : Platform) :
    Artifact.resolve (tree.put spot (.file contents mode)) surroundings metadata platform =
      Artifact.resolve tree surroundings metadata platform := by
  have same : candidateAt (tree.put spot (.file contents mode)) surroundings metadata platform =
      candidateAt tree surroundings metadata platform := by
    funext root path
    unfold candidateAt
    rw [isFolder_of_outcomeOf, isFolder_of_outcomeOf, outcomeOf_rewritten there,
      isExecutableFile_congr platform (outcomeOf_rewritten there path) rfl]
  unfold Artifact.resolve candidates
  dsimp only
  rw [of_rewritten there, same]

end Rewriting

end Artifact

end JuceWorkbench
