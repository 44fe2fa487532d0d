import JuceWorkbench.Proofs.Tree.Location

/-! Paths that lead somewhere by way of given folders and links. While those stay as they are the path
leads there, whatever becomes of the rest of the tree. -/

namespace JuceWorkbench.FileTree

def only (tree : FileTree) (spine : List Place) : FileTree :=
  tree.without fun place => !spine.contains place

/-- A path leads to a location, and would lead there if nothing but the spine were in the tree. -/
def LeadsBy (tree : FileTree) (spine : List Place) (here : Place) (path : String) (location : Location) :
    Prop :=
  (tree.only spine).locate true here path = .ok location

section Spine

variable {tree other : FileTree} {spine : List Place} {here place : Place} {path : String}
  {location : Location}

theorem get?_only_of_mem (tree : FileTree) (among : place ∈ spine) :
    (tree.only spine).get? place = tree.get? place := by
  rw [only, get?_without, if_neg (by simpa using among)]

theorem get?_only_of_not_mem (tree : FileTree) (off : place ∉ spine) :
    (tree.only spine).get? place = none := by
  rw [only, get?_without, if_pos (by simpa using off)]

theorem passes_of_only (same : ∀ place ∈ spine, other.get? place = tree.get? place) :
    Passes (tree.only spine) other := by
  have kept : ∀ {place : Place} {node : Node}, (tree.only spine).get? place = some node →
      other.get? place = some node := by
    intro place node there
    by_cases among : place ∈ spine
    · rw [same place among, ← get?_only_of_mem tree among, there]
    · rw [get?_only_of_not_mem tree among] at there
      cases there
  exact ⟨kept, kept⟩

theorem LeadsBy.of_same (leads : tree.LeadsBy spine here path location)
    (same : ∀ place ∈ spine, other.get? place = tree.get? place) :
    other.LeadsBy spine here path location := by
  obtain ⟨start, goes, way⟩ := way_of_locate leads
  have stays : ∀ place ∈ spine, (other.only spine).get? place = tree.get? place := fun place among =>
    (get?_only_of_mem other among).trans (same place among)
  refine goes _ _ _ (way.same (passes_of_only stays) fun _ => ?_)
  by_cases among : location.place ∈ spine
  · rw [stays _ among, get?_only_of_mem tree among]
  · rw [get?_only_of_not_mem other among, get?_only_of_not_mem tree among]

theorem LeadsBy.folder (leads : tree.LeadsBy spine here path (.taken place .folder)) :
    tree.locate true here path = .ok (.taken place .folder) := by
  obtain ⟨start, goes, way⟩ := way_of_locate leads
  exact goes _ _ _ (way.same (passes_of_only fun _ _ => rfl) (by rintro ⟨⟩))

theorem LeadsBy.locate (leads : tree.LeadsBy spine here path (.free place)) (same : location.place = place)
    (file : location.takesFile = true) (there : tree.get? place = location.node?) :
    tree.locate true here path = .ok location := by
  subst same
  obtain ⟨start, goes, way⟩ := way_of_locate leads
  have passes : Passes (tree.only spine) tree := passes_of_only fun _ _ => rfl
  match location, file, there with
  | .taken place (.file contents mode), _, there => exact goes _ _ _ (way.written passes rfl there)
  | .free place, _, there =>
    have unused : (tree.only spine).get? place = none := way.get?_place.resolve_left (by rintro ⟨⟩)
    exact goes _ _ _ (way.same passes fun _ => there.trans unused.symm)

end Spine

end JuceWorkbench.FileTree
