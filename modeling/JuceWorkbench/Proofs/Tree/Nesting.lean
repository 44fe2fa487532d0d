import JuceWorkbench.Proofs.Tree.Location

/-! Trees in which everything stands in a folder, and ways that go one name further. -/

namespace JuceWorkbench.FileTree

/-- The root is a folder, and whatever stands below a place has a folder there. -/
structure Closed (tree : FileTree) : Prop where
  root : tree.get? [] = some .folder
  above : ∀ {place : Place} {name : String} {node : Node},
    tree.get? (place ++ [name]) = some node → tree.get? place = some .folder

def Location.at (place : Place) : Option Node → Location
  | some node => .taken place node
  | none => .free place

@[simp] theorem Location.place_at (place : Place) (node? : Option Node) :
    (Location.at place node?).place = place := by
  cases node? <;> rfl

theorem Location.at_self (location : Location) : Location.at location.place location.node? = location := by
  cases location <;> rfl

theorem closed_bare : bare.Closed where
  root := rfl
  above := by
    intro place name node there
    have apart : [] ≠ place ++ [name] := by simp
    unfold bare get? lookup at there
    rw [if_neg apart] at there
    cases there

section Closed

variable {tree : FileTree} (closed : tree.Closed)
include closed

theorem Closed.dropLast {place : Place} (folder : tree.get? place = some .folder) :
    tree.get? place.dropLast = some .folder := by
  rcases List.eq_nil_or_concat place with rfl | ⟨front, name, rfl⟩
  · exact closed.root
  · rw [List.concat_eq_append] at folder ⊢
    rw [List.dropLast_concat]
    exact closed.above folder

theorem Closed.none_below {place : Place} (other : tree.get? place ≠ some .folder) (name : String) :
    tree.get? (place ++ [name]) = none := by
  cases there : tree.get? (place ++ [name]) with
  | none => rfl
  | some node => exact absurd (closed.above there) other

theorem Closed.put {here : Place} (folder : tree.get? here = some .folder) {name : String} (node : Node)
    (other : tree.get? (here ++ [name]) ≠ some .folder) : (tree.put (here ++ [name]) node).Closed where
  root := by rw [get?_put_of_ne tree (by simp) node, closed.root]
  above := by
    intro place part found there
    have upper : tree.get? place = some .folder := by
      by_cases same : place ++ [part] = here ++ [name]
      · obtain ⟨rfl, -⟩ := List.append_inj' same rfl
        exact folder
      · exact closed.above ((get?_put_of_ne tree same node).symm.trans there)
    rw [get?_put_of_ne tree ?_ node, upper]
    rintro rfl
    exact other upper

theorem Way.stands {follow : Bool} {links : Nat} {here : Place} {parts : List String}
    {location : Location} (way : Way tree follow links here parts location)
    (start : tree.get? here = some .folder) :
    location.node? = some .folder ∧ tree.get? location.place = some .folder ∨
      location.node? ≠ some .folder ∧
        ∃ folder name, location.place = folder ++ [name] ∧ tree.get? folder = some .folder := by
  induction way with
  | here => exact Or.inl ⟨rfl, start⟩
  | stay _ _ ih => exact ih start
  | leave _ ih => exact ih (closed.dropLast start)
  | enter _ folder _ ih => exact ih folder
  | pass _ _ _ _ _ ih =>
    refine ih ?_
    split
    · exact closed.root
    · exact start
  | file => exact Or.inr ⟨by rintro ⟨⟩, _, _, rfl, start⟩
  | free => exact Or.inr ⟨by rintro ⟨⟩, _, _, rfl, start⟩
  | link => exact Or.inr ⟨by rintro ⟨⟩, _, _, rfl, start⟩

theorem Closed.stands_of_locate {follow : Bool} {here : Place} {path : String} {location : Location}
    (start : tree.get? here = some .folder) (leads : tree.locate follow here path = .ok location) :
    location.node? = some .folder ∧ tree.get? location.place = some .folder ∨
      location.node? ≠ some .folder ∧
        ∃ folder name, location.place = folder ++ [name] ∧ tree.get? folder = some .folder := by
  unfold locate at leads
  split at leads
  · cases leads
  · split at leads
    · cases leads
    · refine Way.stands closed (way_of_locateFrom leads) ?_
      split
      · exact closed.root
      · exact start

end Closed

section Step

variable {tree : FileTree} {follow : Bool} {links : Nat} {start here : Place} {parts : List String}
  {name : String} {location : Location}

theorem Way.step (way : Way tree true links start parts location) (folder : location = .taken here .folder)
    (named : IsName name) (other : ∀ target, tree.get? (here ++ [name]) ≠ some (.link target)) (follow : Bool) :
    Way tree follow links start (parts ++ [name]) (.at (here ++ [name]) (tree.get? (here ++ [name]))) := by
  induction way with
  | here links start =>
    cases folder
    cases there : tree.get? (here ++ [name]) with
    | none => exact .free named there
    | some node =>
      cases node with
      | file contents mode => exact .file named contents mode there
      | folder => exact .enter named there (.here ..)
      | link target => exact absurd there (other target)
  | stay skipped _ ih => exact .stay skipped (ih folder)
  | leave _ ih => exact .leave (ih folder)
  | enter entered there _ ih => exact .enter entered there (ih folder)
  | pass passed target linked further _ ih =>
    have goes := ih folder
    rw [List.append_assoc] at goes
    exact .pass passed target linked (by simp) goes
  | file => cases folder
  | free => cases folder
  | link => cases folder

/-- A way over a last name comes through a folder with something of that name in it, or with
nothing if it leads to a free place. -/
theorem Way.unstep (way : Way tree follow links start parts location) {front : List String}
    (split : parts = front ++ [name]) (plain : ¬(name = "" ∨ name = ".") ∧ name ≠ "..") :
    IsName name ∧ ∃ here, Way tree true links start front (.taken here .folder) ∧
      (location.place = here ++ [name] ∧ tree.get? (here ++ [name]) = location.node? ∨
        follow = true ∧ ∃ target, tree.get? (here ++ [name]) = some (.link target)) := by
  -- at each part of the way the front is used up, or it goes on with that part
  induction way generalizing front with
  | here => exact absurd split.symm (by simp)
  | @stay _ _ part rest _ skipped _ ih =>
    cases front with
    | nil =>
      obtain ⟨rfl, -⟩ := List.cons.inj split
      exact absurd skipped plain.1
    | cons first front =>
      obtain ⟨rfl, rest⟩ := List.cons.inj split
      obtain ⟨named, here, way, ends⟩ := ih rest
      exact ⟨named, here, .stay skipped way, ends⟩
  | leave _ ih =>
    cases front with
    | nil =>
      obtain ⟨same, -⟩ := List.cons.inj split
      exact absurd same.symm plain.2
    | cons first front =>
      obtain ⟨rfl, rest⟩ := List.cons.inj split
      obtain ⟨named, here, way, ends⟩ := ih rest
      exact ⟨named, here, .leave way, ends⟩
  | @enter _ start part rest _ entered there way ih =>
    cases front with
    | nil =>
      obtain ⟨rfl, rfl⟩ := List.cons.inj split
      cases way
      exact ⟨entered, start, .here .., Or.inl ⟨rfl, there⟩⟩
    | cons first front =>
      obtain ⟨rfl, rest⟩ := List.cons.inj split
      obtain ⟨named, here, way, ends⟩ := ih rest
      exact ⟨named, here, .enter entered there way, ends⟩
  | @pass _ start part rest _ passed target linked further way ih =>
    cases front with
    | nil =>
      obtain ⟨rfl, rfl⟩ := List.cons.inj split
      exact ⟨passed, start, .here .., Or.inr ⟨by simpa using further, target, linked⟩⟩
    | cons first front =>
      obtain ⟨rfl, rest⟩ := List.cons.inj split
      have longer : pathParts target ++ front.append [name] = pathParts target ++ front ++ [name] :=
        (List.append_assoc ..).symm
      obtain ⟨named, here, way, ends⟩ := ih (rest ▸ longer)
      exact ⟨named, here, .pass passed target linked (by simp) way, ends⟩
  | @file _ start part named contents mode there =>
    obtain ⟨rfl, same⟩ := List.append_inj' (show [] ++ [part] = front ++ [name] from split) rfl
    obtain rfl : part = name := List.singleton_inj.1 same
    exact ⟨named, start, .here .., Or.inl ⟨rfl, there⟩⟩
  | @free _ start part named unused =>
    obtain ⟨rfl, same⟩ := List.append_inj' (show [] ++ [part] = front ++ [name] from split) rfl
    obtain rfl : part = name := List.singleton_inj.1 same
    exact ⟨named, start, .here .., Or.inl ⟨rfl, unused⟩⟩
  | @link _ start part named target linked last =>
    obtain ⟨rfl, same⟩ := List.append_inj' (show [] ++ [part] = front ++ [name] from split) rfl
    obtain rfl : part = name := List.singleton_inj.1 same
    exact ⟨named, start, .here .., Or.inl ⟨rfl, linked⟩⟩

end Step

end JuceWorkbench.FileTree
