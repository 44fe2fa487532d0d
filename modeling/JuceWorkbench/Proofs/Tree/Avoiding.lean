import JuceWorkbench.Proofs.Tree.Location

/-! Ways that avoid a place. A way that comes to a place only at its end stays a way when something
else stands there. The others come through a link at the place, and go on from there as the link
does. -/

namespace JuceWorkbench.FileTree

def Location.emptied (location : Location) (spot : Place) : Location :=
  if location.node? ≠ some .folder ∧ location.place = spot then .free spot else location

/-- A way goes on through a link at a place, in the folder that the link is read from. -/
def GoesThrough (tree : FileTree) (follow : Bool) (spot : Place) (location : Location) : Prop :=
  ∃ folder name target links rest, spot = folder ++ [name] ∧ tree.get? spot = some (.link target) ∧
    ¬(rest = [] ∧ (!follow) = true) ∧
    Way tree follow links (if Path.isAbsolute target then [] else folder) (pathParts target ++ rest) location

theorem Passes.of_erase {tree other : FileTree} {spot : Place}
    (same : ∀ place, place ≠ spot → other.get? place = tree.get? place) :
    Passes (tree.erase spot) other := by
  have kept : ∀ {place : Place} {node : Node}, (tree.erase spot).get? place = some node →
      other.get? place = some node := by
    intro place node there
    by_cases here : place = spot
    · rw [here, get?_erase_self] at there
      cases there
    · rw [same place here, ← get?_erase_of_ne tree here, there]
  exact ⟨kept, kept⟩

section Way

variable {tree : FileTree} {follow : Bool} {links left : Nat} {here : Place} {parts : List String}
  {location other : Location} {spot : Place}

theorem Way.more (way : Way tree follow links here parts location) (enough : links ≤ left) :
    Way tree follow left here parts location := by
  induction way generalizing left with
  | here links here => exact .here left here
  | stay skipped _ ih => exact .stay skipped (ih enough)
  | leave _ ih => exact .leave (ih enough)
  | enter named folder _ ih => exact .enter named folder (ih enough)
  | pass named target linked further _ ih =>
    obtain ⟨fewer, rfl⟩ := Nat.exists_eq_succ_of_ne_zero (show left ≠ 0 by omega)
    exact .pass named target linked further (ih (Nat.le_of_succ_le_succ enough))
  | file named contents mode there => exact .file named contents mode there
  | free named unused => exact .free named unused
  | link named target linked last => exact .link named target linked last

theorem Way.unique (way : Way tree follow links here parts location)
    (again : Way tree follow left here parts other) : location = other := by
  have one := (way.more (Nat.le_max_left links left)).locateFrom
  have two := (again.more (Nat.le_max_right links left)).locateFrom
  exact Except.ok.inj (one.symm.trans two)

theorem Way.split (way : Way tree follow links here parts location) {front back : List String}
    (whole : parts = front ++ back) (more : back ≠ []) :
    ∃ folder, Way tree true links here front (.taken folder .folder) := by
  induction way generalizing front with
  | here => exact absurd (List.append_eq_nil_iff.1 whole.symm).2 more
  | stay skipped _ ih =>
    cases front with
    | nil => exact ⟨_, .here ..⟩
    | cons first front =>
      obtain ⟨rfl, rest⟩ := List.cons.inj whole
      obtain ⟨folder, way⟩ := ih rest
      exact ⟨folder, .stay skipped way⟩
  | leave _ ih =>
    cases front with
    | nil => exact ⟨_, .here ..⟩
    | cons first front =>
      obtain ⟨rfl, rest⟩ := List.cons.inj whole
      obtain ⟨folder, way⟩ := ih rest
      exact ⟨folder, .leave way⟩
  | enter named entered _ ih =>
    cases front with
    | nil => exact ⟨_, .here ..⟩
    | cons first front =>
      obtain ⟨rfl, rest⟩ := List.cons.inj whole
      obtain ⟨folder, way⟩ := ih rest
      exact ⟨folder, .enter named entered way⟩
  | pass named target linked _ _ ih =>
    cases front with
    | nil => exact ⟨_, .here ..⟩
    | cons first front =>
      obtain ⟨rfl, rfl⟩ := List.cons.inj whole
      obtain ⟨folder, way⟩ := ih (List.append_assoc ..).symm
      exact ⟨folder, .pass named target linked (by simp) way⟩
  | file =>
    cases front with
    | nil => exact ⟨_, .here ..⟩
    | cons first front => exact absurd (List.append_eq_nil_iff.1 (List.cons.inj whole).2.symm).2 more
  | free =>
    cases front with
    | nil => exact ⟨_, .here ..⟩
    | cons first front => exact absurd (List.append_eq_nil_iff.1 (List.cons.inj whole).2.symm).2 more
  | link =>
    cases front with
    | nil => exact ⟨_, .here ..⟩
    | cons first front => exact absurd (List.append_eq_nil_iff.1 (List.cons.inj whole).2.symm).2 more

theorem Way.followed (way : Way tree false links here parts location)
    (other : ∀ target, location.node? ≠ some (.link target)) : Way tree true links here parts location := by
  induction way with
  | here links here => exact .here links here
  | stay skipped _ ih => exact .stay skipped (ih other)
  | leave _ ih => exact .leave (ih other)
  | enter named folder _ ih => exact .enter named folder (ih other)
  | pass named target linked _ _ ih => exact .pass named target linked (by simp) (ih other)
  | file named contents mode there => exact .file named contents mode there
  | free named unused => exact .free named unused
  | link _ target => exact absurd rfl (other target)

/-- A way avoids a place that no folder stands at, or goes through a link there. -/
theorem Way.emptied_or (way : Way tree follow links here parts location)
    (other : tree.get? spot ≠ some .folder) :
    Way (tree.erase spot) follow links here parts (location.emptied spot) ∨
      GoesThrough tree follow spot location := by
  induction way with
  | here links here => exact Or.inl (.here links here)
  | stay skipped _ ih => exact ih.imp_left (.stay skipped)
  | leave _ ih => exact ih.imp_left .leave
  | @enter _ here part _ _ named folder _ ih =>
    have apart : here ++ [part] ≠ spot := fun same => other (same ▸ folder)
    exact ih.imp_left (.enter named ((get?_erase_of_ne tree apart).trans folder))
  | @pass _ here part rest _ named target linked further way ih =>
    by_cases same : here ++ [part] = spot
    · exact Or.inr ⟨here, part, target, _, rest, same.symm, same ▸ linked, further, way⟩
    · exact ih.imp_left (.pass named target ((get?_erase_of_ne tree same).trans linked) further)
  | @file _ here part named contents mode there =>
    left
    by_cases same : here ++ [part] = spot
    · subst same
      rw [Location.emptied, if_pos ⟨by rintro ⟨⟩, rfl⟩]
      exact .free named (get?_erase_self ..)
    · rw [Location.emptied, if_neg fun both => same both.2]
      exact .file named contents mode ((get?_erase_of_ne tree same).trans there)
  | @free _ here part named unused =>
    left
    by_cases same : here ++ [part] = spot
    · subst same
      rw [Location.emptied, if_pos ⟨by rintro ⟨⟩, rfl⟩]
      exact .free named (get?_erase_self ..)
    · rw [Location.emptied, if_neg fun both => same both.2]
      exact .free named ((get?_erase_of_ne tree same).trans unused)
  | @link _ here part named target linked last =>
    left
    by_cases same : here ++ [part] = spot
    · subst same
      rw [Location.emptied, if_pos ⟨by rintro ⟨⟩, rfl⟩]
      exact .free named (get?_erase_self ..)
    · rw [Location.emptied, if_neg fun both => same both.2]
      exact .link named target ((get?_erase_of_ne tree same).trans linked) last

/-- If a link stands at a place, it leads to a file at another. -/
def LinksTo (tree : FileTree) (spot last : Place) : Prop :=
  ∀ folder name target, spot = folder ++ [name] → tree.get? spot = some (.link target) →
    ∃ left contents mode, Way tree true left (if Path.isAbsolute target then [] else folder)
      (pathParts target) (.taken last (.file contents mode))

theorem Way.emptied (way : Way tree follow links here parts location) {last : Place}
    (other : tree.get? spot ≠ some .folder) (linked : LinksTo tree spot last)
    (apart : follow = true → location.place ≠ last) :
    Way (tree.erase spot) follow links here parts (location.emptied spot) := by
  refine (way.emptied_or other).resolve_right ?_
  rintro ⟨folder, name, target, fewer, rest, same, there, further, onward⟩
  obtain ⟨left, contents, mode, ends⟩ := linked folder name target same there
  by_cases final : rest = []
  · subst final
    obtain rfl : follow = true := by simpa using further
    rw [List.append_nil] at onward
    exact apart rfl (congrArg Location.place (onward.unique ends))
  · obtain ⟨entered, between⟩ := onward.split rfl final
    cases between.unique ends

end Way

section Locate

variable {tree other : FileTree} {follow : Bool} {here spot : Place} {path : String} {location : Location}

theorem locate_erase (leads : tree.locate follow here path = .ok location) {last : Place}
    (single : tree.get? spot ≠ some .folder) (linked : LinksTo tree spot last)
    (apart : follow = true → location.place ≠ last) :
    (tree.erase spot).locate follow here path = .ok (location.emptied spot) := by
  obtain ⟨start, goes, way⟩ := way_of_locate leads
  exact goes _ _ _ (way.emptied single linked apart)

theorem locate_of_erase (leads : (tree.erase spot).locate follow here path = .ok location)
    (same : ∀ place, place ≠ spot → other.get? place = tree.get? place)
    (apart : location.takesFile = true → location.place ≠ spot) :
    other.locate follow here path = .ok location := by
  obtain ⟨start, goes, way⟩ := way_of_locate leads
  refine goes _ _ _ (way.same (.of_erase same) fun file => ?_)
  rw [same _ (apart file), get?_erase_of_ne tree (apart file)]

theorem locate_of_put {contents : List UInt8} {mode : Nat}
    (leads : (tree.put spot (.file contents mode)).locate follow here path = .ok location)
    (apart : location.takesFile = true → location.place ≠ spot) :
    tree.locate follow here path = .ok location := by
  obtain ⟨start, goes, way⟩ := way_of_locate leads
  exact goes _ _ _ (way.same (.of_put tree spot contents mode) fun file =>
    (get?_put_of_ne tree (apart file) _).symm)

/-- The location a path leads to is the one it leads to with its last link not followed, or that is a
link which leads there. -/
theorem linksTo_of_locate {contents : List UInt8} {mode : Nat} {last : Place}
    (leads : tree.locate true here path = .ok (.taken last (.file contents mode)))
    (finds : tree.locate false here path = .ok location) :
    LinksTo tree location.place last ∧
      (location.place = last ∨ ∃ target, tree.get? location.place = some (.link target)) := by
  obtain ⟨start, goes, way⟩ := way_of_locate leads
  rcases way.unfollowed with same | ⟨folder, name, target, left, linked, further⟩
  · cases (goes _ _ _ same).symm.trans finds
    refine ⟨fun folder name target _ there => ?_, Or.inl rfl⟩
    cases (get?_place_of_locate leads (by rintro ⟨⟩)).symm.trans there
  · cases (goes _ _ _ linked).symm.trans finds
    have there : tree.get? (folder ++ [name]) = some (.link target) :=
      get?_place_of_locate finds (by rintro ⟨⟩)
    refine ⟨fun above part other same stands => ?_, Or.inr ⟨target, there⟩⟩
    obtain ⟨rfl, -⟩ := List.append_inj' same rfl
    cases there.symm.trans stands
    exact ⟨left, contents, mode, further⟩

/-- A path that leads somewhere once a file was put where it led does not need what stood there. -/
theorem locate_erase_of_put {contents : List UInt8} {mode : Nat} {found : Location}
    (finds : tree.locate false here path = .ok location) (other : location.node? ≠ some .folder)
    (leads : (tree.put location.place (.file contents mode)).locate true here path = .ok found) :
    (tree.erase location.place).locate false here path = .ok (.free location.place) := by
  have there : (tree.put location.place (.file contents mode)).get? location.place = _ := get?_put_self ..
  rcases locate_unfollowed leads with same | ⟨place, target, linked⟩
  · have single : found.node? ≠ some .folder := by
      intro folder
      have before := locate_of_put same fun file => absurd folder (Location.node?_of_takesFile file)
      cases finds.symm.trans before
      exact other folder
    have ends : found.place = location.place := by
      refine Decidable.byContradiction fun apart => ?_
      have before := locate_of_put same fun _ => apart
      cases finds.symm.trans before
      exact apart rfl
    have linked : LinksTo (tree.put location.place (.file contents mode)) location.place [] :=
      fun _ _ _ _ stands => by cases there.symm.trans stands
    have erased := locate_erase same (by rw [there]; rintro ⟨⟩) linked (by rintro ⟨⟩)
    rwa [erase_put, Location.emptied, if_pos ⟨single, ends⟩] at erased
  -- a link that still stands is where the path led before, and the file took its place
  · have before := locate_of_put linked (by rintro ⟨⟩)
    cases finds.symm.trans before
    cases there.symm.trans (get?_place_of_locate linked (by rintro ⟨⟩))

end Locate

end JuceWorkbench.FileTree
