import JuceWorkbench.Proofs.Tree.Avoiding
import JuceWorkbench.Proofs.Tree.Nesting

/-! Trees in which less stands. A way in a tree whose folders and links are all in an earlier one is a
way there, up to its end; so what a path leads to once a folder or a file was removed says where it led
before. -/

namespace JuceWorkbench.FileTree

theorem Passes.refl (tree : FileTree) : Passes tree tree := ⟨id, id⟩

theorem Passes.trans {tree other last : FileTree} (first : Passes tree other) (second : Passes other last) :
    Passes tree last :=
  ⟨fun folder => second.folder (first.folder folder), fun linked => second.link (first.link linked)⟩

/-- A tree without a folder and, perhaps, without some of what was in it. -/
structure Lacks (tree : FileTree) (folder : Place) (earlier : FileTree) : Prop where
  passes : Passes tree earlier
  outside : ∀ place, ¬folder <+: place → tree.get? place = earlier.get? place

theorem Lacks.refl (tree : FileTree) (folder : Place) : tree.Lacks folder tree :=
  ⟨.refl tree, fun _ _ => rfl⟩

theorem Lacks.erase {tree earlier : FileTree} {folder place : Place} (lacks : tree.Lacks folder earlier)
    (inside : folder <+: place) : (tree.erase place).Lacks folder earlier where
  passes := (Passes.of_erase fun _ _ => rfl).trans lacks.passes
  outside := by
    intro spot apart
    have other : spot ≠ place := fun same => apart (same ▸ inside)
    rw [get?_erase_of_ne tree other, lacks.outside spot apart]

section Way

variable {tree earlier : FileTree} {follow : Bool} {links : Nat} {here : Place} {parts : List String}
  {location : Location} {folder : Place}

/-- A way that ends where a file may be written ends at the same place in the earlier tree, at whatever
stands there, unless that is a link. -/
theorem Way.at (way : Way tree follow links here parts location) (passes : Passes tree earlier)
    (takes : location.takesFile = true)
    (single : ∀ target, earlier.get? location.place ≠ some (.link target)) :
    Way earlier follow links here parts (.at location.place (earlier.get? location.place)) := by
  have ends {links : Nat} {here : Place} {part : String} (named : IsName part)
      (single : ∀ target, earlier.get? (here ++ [part]) ≠ some (.link target)) :
      Way earlier follow links here [part] (.at (here ++ [part]) (earlier.get? (here ++ [part]))) := by
    cases there : earlier.get? (here ++ [part]) with
    | none => exact .free named there
    | some node =>
      cases node with
      | file contents mode => exact .file named contents mode there
      | folder => exact .enter named there (.here ..)
      | link target => exact absurd there (single target)
  induction way with
  | here => cases takes
  | stay skipped _ ih => exact .stay skipped (ih takes single)
  | leave _ ih => exact .leave (ih takes single)
  | enter named folder _ ih => exact .enter named (passes.folder folder) (ih takes single)
  | pass named target linked further _ ih =>
    exact .pass named target (passes.link linked) further (ih takes single)
  | file named contents mode there => exact ends named single
  | free named unused => exact ends named single
  | link => cases takes

/-- No way enters a folder that is gone; one may end at its place. -/
theorem Way.outside (way : Way tree follow links here parts location) (rooted : folder ≠ [])
    (gone : tree.get? folder ≠ some .folder) (start : ¬folder <+: here) (inside : folder <+: location.place) :
    location.place = folder := by
  have step {here : Place} {part : String} (start : ¬folder <+: here) (inside : folder <+: here ++ [part]) :
      here ++ [part] = folder := ((List.prefix_concat_iff.1 inside).resolve_right start).symm
  induction way with
  | here => exact absurd inside start
  | stay _ _ ih => exact ih start inside
  | @leave _ here _ _ _ ih =>
    exact ih (fun above => start (above.trans (List.dropLast_prefix here))) inside
  | enter _ entered _ ih => exact ih (fun above => gone (step start above ▸ entered)) inside
  | pass _ _ _ _ _ ih =>
    refine ih ?_ inside
    split
    · exact fun above => rooted (List.prefix_nil.1 above)
    · exact start
  | file => exact step start inside
  | free => exact step start inside
  | link => exact step start inside

end Way

section Locate

variable {tree earlier : FileTree} {follow : Bool} {here : Place} {path : String} {location : Location}
  {spot folder : Place}

theorem locate_of_passes (leads : tree.locate follow here path = .ok location) (passes : Passes tree earlier)
    (other : location.takesFile = false) : earlier.locate follow here path = .ok location := by
  obtain ⟨start, goes, way⟩ := way_of_locate leads
  exact goes _ _ _ (way.same passes fun takes => absurd takes (by rw [other]; exact Bool.false_ne_true))

theorem isFolder_iff : tree.isFolder here path = true ↔
    ∃ place, tree.locate true here path = .ok (.taken place .folder) := by
  unfold isFolder node?
  constructor
  · intro is
    split at is
    · rename_i place node leads
      exact ⟨place, by rw [leads, Option.some.inj (eq_of_beq is)]⟩
    · cases is
  · rintro ⟨place, leads⟩
    rw [leads]
    rfl

theorem isFile_iff : tree.isFile here path = true ↔
    ∃ place contents mode, tree.locate true here path = .ok (.taken place (.file contents mode)) := by
  unfold isFile node?
  constructor
  · intro is
    split at is
    · rename_i contents mode found
      split at found
      · rename_i place node leads
        exact ⟨place, contents, mode, by rw [leads, Option.some.inj found]⟩
      · cases found
    · cases is
  · rintro ⟨place, contents, mode, leads⟩
    rw [leads]

theorem isFolder_of_passes (passes : Passes tree earlier) (is : tree.isFolder here path = true) :
    earlier.isFolder here path = true := by
  obtain ⟨place, leads⟩ := isFolder_iff.1 is
  exact isFolder_iff.2 ⟨place, locate_of_passes leads passes rfl⟩

/-- A path that leads somewhere once a file was put at a place led to the same place before. -/
theorem exists_locate_of_put {contents : List UInt8} {mode : Nat} (takes : tree.TakesFile spot)
    (leads : (tree.put spot (.file contents mode)).locate follow here path = .ok location) :
    ∃ found, tree.locate follow here path = .ok found ∧ found.place = location.place := by
  by_cases same : location.takesFile = true ∧ location.place = spot
  · obtain ⟨file, rfl⟩ := same
    obtain ⟨start, goes, way⟩ := way_of_locate leads
    refine ⟨_, goes _ _ _ (way.at (.of_put ..) file fun target linked => ?_), Location.place_at ..⟩
    obtain ⟨_, _, same⟩ := takes _ linked
    cases same
  · exact ⟨location, locate_of_put leads fun file there => same ⟨file, there⟩, rfl⟩

section Absolute

variable (absolute : Path.isAbsolute path = true) (gone : tree.get? folder = none) (rooted : folder ≠ [])
include absolute gone rooted

/-- Where a path leads without a folder is outside of it, but for its own place. -/
theorem place_of_gone (leads : tree.locate follow here path = .ok location)
    (inside : folder <+: location.place) : location.place = folder := by
  have start : ¬folder <+: ([] : Place) := fun above => rooted (List.prefix_nil.1 above)
  unfold locate at leads
  split at leads
  · cases leads
  · split at leads
    · cases leads
    · exact (way_of_locateFrom leads).outside rooted (by rw [gone]; rintro ⟨⟩) start inside

variable (lacks : tree.Lacks folder earlier)
include lacks

theorem locate_of_lacks {place : Place} {node : Node}
    (leads : tree.locate follow here path = .ok (.taken place node)) :
    earlier.locate follow here path = .ok (.taken place node) := by
  by_cases file : (Location.taken place node).takesFile = true
  · obtain ⟨start, goes, way⟩ := way_of_locate leads
    refine goes _ _ _ (way.same lacks.passes fun _ => (lacks.outside place fun inside => ?_).symm)
    have same : place = folder := place_of_gone absolute gone rooted leads inside
    have there := get?_place_of_locate leads (Location.node?_of_takesFile file)
    rw [show (Location.taken place node).place = folder from same, gone] at there
    cases there
  · exact locate_of_passes leads lacks.passes (Bool.eq_false_iff.2 file)

theorem exists_locate_of_lacks (stood : earlier.get? folder = some .folder)
    (leads : tree.locate follow here path = .ok location) :
    ∃ found, earlier.locate follow here path = .ok found ∧ found.place = location.place := by
  match location, leads with
  | .taken place node, leads => exact ⟨_, locate_of_lacks absolute gone rooted lacks leads, rfl⟩
  | .free place, leads =>
    obtain ⟨start, goes, way⟩ := way_of_locate leads
    refine ⟨_, goes _ _ _ (way.at lacks.passes rfl fun target linked => ?_), Location.place_at ..⟩
    by_cases inside : folder <+: place
    · have same : place = folder := place_of_gone absolute gone rooted leads inside
      cases stood.symm.trans (same ▸ linked)
    · have free : tree.get? place = none := get?_place_of_locate leads (by rintro ⟨⟩)
      cases (free.symm.trans (lacks.outside place inside)).trans linked

end Absolute

theorem not_isFolder_of_gone (finds : earlier.locate false here path = .ok (.taken folder .folder))
    {front : List String} {name : String} (parts : pathParts path = front ++ [name])
    (plain : ¬(name = "" ∨ name = ".") ∧ name ≠ "..") (passes : Passes tree earlier)
    (gone : tree.get? folder = none) : tree.isFolder here path = false := by
  rw [Bool.eq_false_iff]
  intro is
  obtain ⟨place, leads⟩ := isFolder_iff.1 is
  rcases locate_unfollowed leads with same | ⟨spot, target, linked⟩
  · cases finds.symm.trans (locate_of_passes same passes rfl)
    obtain ⟨start, -, way⟩ := way_of_locate same
    obtain ⟨-, above, -, ends⟩ := way.unstep parts plain
    rcases ends with ⟨here, there⟩ | ⟨follows, -⟩
    · rw [← here] at there
      cases gone.symm.trans there
    · cases follows
  · cases finds.symm.trans (locate_of_passes linked passes rfl)

section Erased

variable {place last : Place} {node : Node} {contents : List UInt8} {mode : Nat}
  (finds : tree.locate false here path = .ok (.taken spot node))
  (leads : tree.locate true here path = .ok (.taken last (.file contents mode)))
include finds leads

theorem locate_erase_found (other : node ≠ .folder) :
    (tree.erase spot).locate true here path = .ok (.free spot) := by
  have there : tree.get? spot = some node :=
    get?_place_of_locate finds fun folder => other (Option.some.inj folder)
  have single : tree.get? spot ≠ some .folder := by
    rw [there]
    exact fun folder => other (Option.some.inj folder)
  have erased := locate_erase finds single (linksTo_of_locate leads finds).1 (by rintro ⟨⟩)
  rw [Location.emptied, if_pos ⟨fun folder => other (Option.some.inj folder), rfl⟩] at erased
  obtain ⟨start, goes, way⟩ := way_of_locate erased
  exact goes _ _ _ (way.followed (by rintro target ⟨⟩))

theorem locate_erase_beside (other : node ≠ .folder) {beside : String}
    (apart : tree.locate true here beside = .ok location) (takes : location.takesFile = true)
    (away : location.place ≠ last) :
    location.place ≠ spot ∧ (tree.erase spot).locate true here beside = .ok location := by
  have there : tree.get? spot = some node :=
    get?_place_of_locate finds fun folder => other (Option.some.inj folder)
  obtain ⟨linked, ends⟩ := linksTo_of_locate leads finds
  have elsewhere : location.place ≠ spot := by
    rintro rfl
    rcases ends with same | ⟨target, link⟩
    · exact away same
    · obtain ⟨_, _, same⟩ := takesFile_of_locate apart takes _ link
      cases same
  have single : tree.get? spot ≠ some .folder := by
    rw [there]
    exact fun folder => other (Option.some.inj folder)
  have erased := locate_erase apart single linked fun _ => away
  rw [Location.emptied, if_neg fun both => elsewhere both.2] at erased
  exact ⟨elsewhere, erased⟩

end Erased

theorem locate_of_erase_taken {place : Place} {node : Node}
    (leads : (tree.erase spot).locate follow here path = .ok (.taken place node)) :
    tree.locate follow here path = .ok (.taken place node) := by
  refine locate_of_erase leads (fun _ _ => rfl) ?_
  rintro file rfl
  have there := get?_place_of_locate leads (Location.node?_of_takesFile file)
  cases (get?_erase_self ..).symm.trans there

end Locate

end JuceWorkbench.FileTree
