import JuceWorkbench.Tree.Location

/-! Ways through a tree, and where paths lead once a file was written. A file is written where a file
stands or where nothing does, so the folders and links that paths pass through are still there
afterwards. -/

namespace JuceWorkbench.FileTree

structure IsName (part : String) : Prop where
  filled : ¬(part = "" ∨ part = ".")
  stays : part ≠ ".."
  short : ¬maxNameOctets < part.utf8ByteSize

instance (part : String) : Decidable (IsName part) :=
  decidable_of_iff (¬(part = "" ∨ part = ".") ∧ part ≠ ".." ∧ ¬maxNameOctets < part.utf8ByteSize)
    ⟨fun ⟨filled, stays, short⟩ => ⟨filled, stays, short⟩,
      fun named => ⟨named.filled, named.stays, named.short⟩⟩

section LocateFrom

variable {tree : FileTree} {follow : Bool} {links : Nat} {here : Place} {part : String} {rest : List String}

theorem locateFrom_nil : locateFrom tree follow links here [] = .ok (.taken here .folder) := by
  cases links <;> rfl

theorem locateFrom_cons :
    locateFrom tree follow links here (part :: rest) =
      if part = "" ∨ part = "." then locateFrom tree follow links here rest
      else if part = ".." then locateFrom tree follow links here.dropLast rest
      else if maxNameOctets < part.utf8ByteSize then .error .nameTooLong
      else
        match tree.get? (here ++ [part]) with
        | none => if rest = [] then .ok (.free (here ++ [part])) else .error .missing
        | some .folder => locateFrom tree follow links (here ++ [part]) rest
        | some (.file contents mode) =>
          if rest = [] then .ok (.taken (here ++ [part]) (.file contents mode)) else .error .notFolder
        | some (.link target) =>
          if rest = [] ∧ !follow then .ok (.taken (here ++ [part]) (.link target))
          else
            match links with
            | 0 => .error .linkLoop
            | fewer + 1 => locateFrom tree follow fewer (if Path.isAbsolute target then [] else here)
                (pathParts target ++ rest) := by
  cases links <;> rfl

theorem locateFrom_skip (skipped : part = "" ∨ part = ".") :
    locateFrom tree follow links here (part :: rest) = locateFrom tree follow links here rest := by
  rw [locateFrom_cons, if_pos skipped]

theorem locateFrom_leave :
    locateFrom tree follow links here (".." :: rest) =
      locateFrom tree follow links here.dropLast rest := by
  rw [locateFrom_cons, if_neg (by decide), if_pos rfl]

theorem locateFrom_long (filled : ¬(part = "" ∨ part = ".")) (stays : part ≠ "..")
    (long : maxNameOctets < part.utf8ByteSize) :
    locateFrom tree follow links here (part :: rest) = .error .nameTooLong := by
  rw [locateFrom_cons, if_neg filled, if_neg stays, if_pos long]

theorem locateFrom_folder (named : IsName part) (folder : tree.get? (here ++ [part]) = some .folder) :
    locateFrom tree follow links here (part :: rest) =
      locateFrom tree follow links (here ++ [part]) rest := by
  rw [locateFrom_cons, if_neg named.filled, if_neg named.stays, if_neg named.short]
  simp only [folder]

theorem locateFrom_file (named : IsName part) (contents : List UInt8) (mode : Nat)
    (file : tree.get? (here ++ [part]) = some (.file contents mode)) :
    locateFrom tree follow links here [part] = .ok (.taken (here ++ [part]) (.file contents mode)) := by
  rw [locateFrom_cons, if_neg named.filled, if_neg named.stays, if_neg named.short]
  simp only [file, if_true]

theorem locateFrom_blocked (named : IsName part) {contents : List UInt8} {mode : Nat}
    (file : tree.get? (here ++ [part]) = some (.file contents mode)) (more : rest ≠ []) :
    locateFrom tree follow links here (part :: rest) = .error .notFolder := by
  rw [locateFrom_cons, if_neg named.filled, if_neg named.stays, if_neg named.short]
  simp only [file, if_neg more]

theorem locateFrom_free (named : IsName part) (free : tree.get? (here ++ [part]) = none) :
    locateFrom tree follow links here [part] = .ok (.free (here ++ [part])) := by
  rw [locateFrom_cons, if_neg named.filled, if_neg named.stays, if_neg named.short]
  simp only [free, if_true]

theorem locateFrom_missing (named : IsName part) (free : tree.get? (here ++ [part]) = none)
    (more : rest ≠ []) : locateFrom tree follow links here (part :: rest) = .error .missing := by
  rw [locateFrom_cons, if_neg named.filled, if_neg named.stays, if_neg named.short]
  simp only [free, if_neg more]

theorem locateFrom_link (named : IsName part) {target : String}
    (linked : tree.get? (here ++ [part]) = some (.link target)) (last : rest = [] ∧ (!follow) = true) :
    locateFrom tree follow links here (part :: rest) = .ok (.taken (here ++ [part]) (.link target)) := by
  rw [locateFrom_cons, if_neg named.filled, if_neg named.stays, if_neg named.short]
  simp only [linked, if_pos last]

theorem locateFrom_linkLoop (named : IsName part) {target : String}
    (linked : tree.get? (here ++ [part]) = some (.link target)) (further : ¬(rest = [] ∧ (!follow) = true)) :
    locateFrom tree follow 0 here (part :: rest) = .error .linkLoop := by
  rw [locateFrom_cons, if_neg named.filled, if_neg named.stays, if_neg named.short]
  simp only [linked, if_neg further]

theorem locateFrom_pass (named : IsName part) {target : String}
    (linked : tree.get? (here ++ [part]) = some (.link target)) (further : ¬(rest = [] ∧ (!follow) = true)) :
    locateFrom tree follow (links + 1) here (part :: rest) =
      locateFrom tree follow links (if Path.isAbsolute target then [] else here)
        (pathParts target ++ rest) := by
  rw [locateFrom_cons, if_neg named.filled, if_neg named.stays, if_neg named.short]
  simp only [linked, if_neg further]

/-- What holds for the end of a path and is passed on by each of its parts holds for all of it. -/
theorem locateFrom_induct (tree : FileTree) (follow : Bool)
    {motive : Nat → Place → List String → Prop}
    (nil : ∀ links here, motive links here [])
    (skip : ∀ links here part rest, part = "" ∨ part = "." → motive links here rest →
      motive links here (part :: rest))
    (leave : ∀ links here rest, motive links here.dropLast rest → motive links here (".." :: rest))
    (long : ∀ links here part rest, ¬(part = "" ∨ part = ".") → part ≠ ".." →
      maxNameOctets < part.utf8ByteSize → motive links here (part :: rest))
    (enter : ∀ links here part rest, IsName part → tree.get? (here ++ [part]) = some .folder →
      motive links (here ++ [part]) rest → motive links here (part :: rest))
    (file : ∀ links here part contents mode, IsName part →
      tree.get? (here ++ [part]) = some (.file contents mode) → motive links here [part])
    (blocked : ∀ links here part rest contents mode, IsName part →
      tree.get? (here ++ [part]) = some (.file contents mode) → rest ≠ [] →
      motive links here (part :: rest))
    (free : ∀ links here part, IsName part → tree.get? (here ++ [part]) = none →
      motive links here [part])
    (missing : ∀ links here part rest, IsName part → tree.get? (here ++ [part]) = none → rest ≠ [] →
      motive links here (part :: rest))
    (link : ∀ links here part rest target, IsName part →
      tree.get? (here ++ [part]) = some (.link target) → rest = [] ∧ (!follow) = true →
      motive links here (part :: rest))
    (linkLoop : ∀ here part rest target, IsName part →
      tree.get? (here ++ [part]) = some (.link target) → ¬(rest = [] ∧ (!follow) = true) →
      motive 0 here (part :: rest))
    (pass : ∀ links here part rest target, IsName part →
      tree.get? (here ++ [part]) = some (.link target) → ¬(rest = [] ∧ (!follow) = true) →
      motive links (if Path.isAbsolute target then [] else here) (pathParts target ++ rest) →
      motive (links + 1) here (part :: rest))
    (links : Nat) (here : Place) (parts : List String) : motive links here parts := by
  -- the parts are gone through with a given number of links left, and then the links
  have walks : ∀ links, (∀ fewer, links = fewer + 1 → ∀ here parts, motive fewer here parts) →
      ∀ here parts, motive links here parts := by
    intro links onward here parts
    induction parts generalizing here with
    | nil => exact nil links here
    | cons part rest ih =>
      by_cases skipped : part = "" ∨ part = "."
      · exact skip links here part rest skipped (ih here)
      by_cases leaves : part = ".."
      · subst leaves
        exact leave links here rest (ih here.dropLast)
      by_cases tooLong : maxNameOctets < part.utf8ByteSize
      · exact long links here part rest skipped leaves tooLong
      have named : IsName part := ⟨skipped, leaves, tooLong⟩
      cases there : tree.get? (here ++ [part]) with
      | none =>
        by_cases last : rest = []
        · subst last
          exact free links here part named there
        · exact missing links here part rest named there last
      | some node =>
        cases node with
        | folder => exact enter links here part rest named there (ih _)
        | file contents mode =>
          by_cases last : rest = []
          · subst last
            exact file links here part contents mode named there
          · exact blocked links here part rest contents mode named there last
        | link target =>
          by_cases last : rest = [] ∧ (!follow) = true
          · exact link links here part rest target named there last
          · cases links with
            | zero => exact linkLoop here part rest target named there last
            | succ fewer => exact pass fewer here part rest target named there last (onward fewer rfl _ _)
  induction links generalizing here parts with
  | zero => exact walks 0 (by rintro fewer ⟨⟩) here parts
  | succ links ih =>
    refine walks (links + 1) ?_ here parts
    rintro fewer ⟨⟩
    exact ih

theorem locate_of_parts {path : String} {names : List String} (absolute : Path.isAbsolute path = true)
    (short : path.utf8ByteSize ≤ maxPathOctets) (parts : pathParts path = "" :: names) :
    tree.locate follow here path = tree.locateFrom follow maxLinks [] names := by
  have filled : path.isEmpty = false := by
    rw [Bool.eq_false_iff, Ne, String.isEmpty_iff]
    rintro rfl
    cases absolute
  unfold locate
  simp only [filled, Bool.false_eq_true, if_false, absolute, if_true, Nat.not_lt.2 short, parts]
  exact locateFrom_skip (Or.inl rfl)

end LocateFrom

def Location.place : Location → Place
  | .taken place _ => place
  | .free place => place

def Location.node? : Location → Option Node
  | .taken _ node => some node
  | .free _ => none

def Location.takesFile : Location → Bool
  | .taken _ (.file _ _) => true
  | .taken _ _ => false
  | .free _ => true

def Location.after (location : Location) (spot : Place) (file : Node) : Location :=
  if location.takesFile = true ∧ location.place = spot then .taken spot file else location

theorem Location.after_self {location : Location} {spot : Place} (takes : location.takesFile = true)
    (same : location.place = spot) (file : Node) : location.after spot file = .taken spot file :=
  if_pos ⟨takes, same⟩

theorem Location.after_of_ne {location : Location} {spot : Place} (apart : location.place ≠ spot)
    (file : Node) : location.after spot file = location := if_neg fun both => apart both.2

theorem Location.place_after (location : Location) (spot : Place) (file : Node) :
    (location.after spot file).place = location.place := by
  unfold after
  split
  · rename_i both
    exact both.2.symm
  · rfl

theorem assign_assign (place : Place) (node written : Node) (entries : List (Place × Node)) :
    assign place written (assign place node entries) = assign place written entries := by
  induction entries with
  | nil => simp [assign]
  | cons entry more ih =>
    by_cases same : entry.1 = place
    · simp [assign, same]
    · simp [assign, same, ih]

theorem put_put (tree : FileTree) (place : Place) (node written : Node) :
    (tree.put place node).put place written = tree.put place written := by
  unfold put
  simp only [assign_assign]

theorem erase_put (tree : FileTree) (place : Place) (node : Node) :
    (tree.put place node).erase place = tree.erase place := by
  have core : ∀ entries : List (Place × Node),
      (assign place node entries).filter (fun entry => !(entry.1 == place)) =
        entries.filter fun entry => !(entry.1 == place) := by
    intro entries
    induction entries with
    | nil => simp [assign]
    | cons entry more ih =>
      by_cases same : entry.1 = place
      · simp [assign, same]
      · simp [assign, same, ih]
  unfold put erase without
  simp only [core]

def TakesFile (tree : FileTree) (place : Place) : Prop :=
  ∀ node, tree.get? place = some node → ∃ contents mode, node = .file contents mode

/-- The way of a path to the location it leads to. -/
inductive Way (tree : FileTree) (follow : Bool) : Nat → Place → List String → Location → Prop
  | here (links : Nat) (here : Place) : Way tree follow links here [] (.taken here .folder)
  | stay {links : Nat} {here : Place} {part : String} {rest : List String} {location : Location}
      (skipped : part = "" ∨ part = ".") (way : Way tree follow links here rest location) :
      Way tree follow links here (part :: rest) location
  | leave {links : Nat} {here : Place} {rest : List String} {location : Location}
      (way : Way tree follow links here.dropLast rest location) :
      Way tree follow links here (".." :: rest) location
  | enter {links : Nat} {here : Place} {part : String} {rest : List String} {location : Location}
      (named : IsName part) (folder : tree.get? (here ++ [part]) = some .folder)
      (way : Way tree follow links (here ++ [part]) rest location) :
      Way tree follow links here (part :: rest) location
  | pass {links : Nat} {here : Place} {part : String} {rest : List String} {location : Location}
      (named : IsName part) (target : String) (linked : tree.get? (here ++ [part]) = some (.link target))
      (further : ¬(rest = [] ∧ (!follow) = true))
      (way : Way tree follow links (if Path.isAbsolute target then [] else here)
        (pathParts target ++ rest) location) :
      Way tree follow (links + 1) here (part :: rest) location
  | file {links : Nat} {here : Place} {part : String} (named : IsName part) (contents : List UInt8)
      (mode : Nat) (there : tree.get? (here ++ [part]) = some (.file contents mode)) :
      Way tree follow links here [part] (.taken (here ++ [part]) (.file contents mode))
  | free {links : Nat} {here : Place} {part : String} (named : IsName part)
      (unused : tree.get? (here ++ [part]) = none) :
      Way tree follow links here [part] (.free (here ++ [part]))
  | link {links : Nat} {here : Place} {part : String} (named : IsName part) (target : String)
      (linked : tree.get? (here ++ [part]) = some (.link target)) (last : (!follow) = true) :
      Way tree follow links here [part] (.taken (here ++ [part]) (.link target))

/-- The folders and links of a tree are in another one too. -/
structure Passes (tree other : FileTree) : Prop where
  folder : ∀ {place : Place}, tree.get? place = some .folder → other.get? place = some .folder
  link : ∀ {place : Place} {target : String}, tree.get? place = some (.link target) →
    other.get? place = some (.link target)

theorem Passes.put {tree : FileTree} {spot : Place} (takes : tree.TakesFile spot) (node : Node) :
    Passes tree (tree.put spot node) := by
  constructor
  · intro place folder
    rw [get?_put_of_ne tree ?_ node, folder]
    rintro rfl
    obtain ⟨contents, mode, same⟩ := takes .folder folder
    cases same
  · intro place target linked
    rw [get?_put_of_ne tree ?_ node, linked]
    rintro rfl
    obtain ⟨contents, mode, same⟩ := takes (.link target) linked
    cases same

theorem Passes.of_put (tree : FileTree) (spot : Place) (contents : List UInt8) (mode : Nat) :
    Passes (tree.put spot (.file contents mode)) tree := by
  constructor
  · intro place folder
    rwa [get?_put_of_ne tree ?_ _] at folder
    rintro rfl
    rw [get?_put_self] at folder
    cases folder
  · intro place target linked
    rwa [get?_put_of_ne tree ?_ _] at linked
    rintro rfl
    rw [get?_put_self] at linked
    cases linked

theorem Passes.erase {tree : FileTree} {spot : Place} {contents : List UInt8} {mode : Nat}
    (there : tree.get? spot = some (.file contents mode)) : Passes tree (tree.erase spot) := by
  constructor
  · intro place folder
    rw [get?_erase_of_ne tree ?_, folder]
    rintro rfl
    cases there.symm.trans folder
  · intro place target linked
    rw [get?_erase_of_ne tree ?_, linked]
    rintro rfl
    cases there.symm.trans linked

section Way

variable {tree other : FileTree} {follow : Bool} {links : Nat} {here : Place} {parts : List String}
  {location : Location}

theorem Way.locateFrom (way : Way tree follow links here parts location) :
    tree.locateFrom follow links here parts = .ok location := by
  induction way with
  | here links here => exact locateFrom_nil
  | stay skipped _ ih => rw [locateFrom_skip skipped, ih]
  | leave _ ih => rw [locateFrom_leave, ih]
  | enter named folder _ ih => rw [locateFrom_folder named folder, ih]
  | pass named target linked further _ ih => rw [locateFrom_pass named linked further, ih]
  | file named contents mode there => exact locateFrom_file named contents mode there
  | free named unused => exact locateFrom_free named unused
  | link named target linked last => exact locateFrom_link named linked ⟨rfl, last⟩

theorem way_of_locateFrom (leads : tree.locateFrom follow links here parts = .ok location) :
    Way tree follow links here parts location := by
  induction links, here, parts using locateFrom_induct tree follow with
  | nil links here =>
    rw [locateFrom_nil] at leads
    cases leads
    exact .here links here
  | skip links here part rest skipped ih =>
    rw [locateFrom_skip skipped] at leads
    exact .stay skipped (ih leads)
  | leave links here rest ih =>
    rw [locateFrom_leave] at leads
    exact .leave (ih leads)
  | enter links here part rest named folder ih =>
    rw [locateFrom_folder named folder] at leads
    exact .enter named folder (ih leads)
  | file links here part contents mode named there =>
    rw [locateFrom_file named contents mode there] at leads
    cases leads
    exact .file named contents mode there
  | free links here part named unused =>
    rw [locateFrom_free named unused] at leads
    cases leads
    exact .free named unused
  | link links here part rest target named linked last =>
    rw [locateFrom_link named linked last] at leads
    cases leads
    obtain rfl := last.1
    exact .link named target linked last.2
  | pass links here part rest target named linked further ih =>
    rw [locateFrom_pass named linked further] at leads
    exact .pass named target linked further (ih leads)
  -- what is left ends in a fault: something is missing, in the way, or linked too often
  | long links here part rest filled stays long =>
    rw [locateFrom_long filled stays long] at leads
    cases leads
  | missing links here part rest named unused more =>
    rw [locateFrom_missing named unused more] at leads
    cases leads
  | blocked links here part rest contents mode named there more =>
    rw [locateFrom_blocked named there more] at leads
    cases leads
  | linkLoop here part rest target named linked further =>
    rw [locateFrom_linkLoop named linked further] at leads
    cases leads

theorem Way.get?_place (way : Way tree follow links here parts location) :
    location.node? = some .folder ∨ tree.get? location.place = location.node? := by
  induction way with
  | here => exact Or.inl rfl
  | stay _ _ ih => exact ih
  | leave _ ih => exact ih
  | enter _ _ _ ih => exact ih
  | pass _ _ _ _ _ ih => exact ih
  | file _ _ _ there => exact Or.inr there
  | free _ unused => exact Or.inr unused
  | link _ _ linked => exact Or.inr linked

theorem Way.ne_link (way : Way tree true links here parts location) (place : Place) (target : String) :
    location ≠ .taken place (.link target) := by
  induction way with
  | here => rintro ⟨⟩
  | stay _ _ ih => exact ih
  | leave _ ih => exact ih
  | enter _ _ _ ih => exact ih
  | pass _ _ _ _ _ ih => exact ih
  | file => rintro ⟨⟩
  | free => rintro ⟨⟩
  | link _ _ _ last => cases last

theorem Way.same (way : Way tree follow links here parts location) (passes : Passes tree other)
    (same : location.takesFile = true → other.get? location.place = tree.get? location.place) :
    Way other follow links here parts location := by
  induction way with
  | here links here => exact .here links here
  | stay skipped _ ih => exact .stay skipped (ih same)
  | leave _ ih => exact .leave (ih same)
  | enter named folder _ ih => exact .enter named (passes.folder folder) (ih same)
  | pass named target linked further _ ih => exact .pass named target (passes.link linked) further (ih same)
  | file named contents mode there => exact .file named contents mode ((same rfl).trans there)
  | free named unused => exact .free named ((same rfl).trans unused)
  | link named target linked last => exact .link named target (passes.link linked) last

theorem Way.written (way : Way tree follow links here parts location) (passes : Passes tree other)
    (takes : location.takesFile = true) {contents : List UInt8} {mode : Nat}
    (there : other.get? location.place = some (.file contents mode)) :
    Way other follow links here parts (.taken location.place (.file contents mode)) := by
  induction way with
  | here => cases takes
  | stay skipped _ ih => exact .stay skipped (ih takes there)
  | leave _ ih => exact .leave (ih takes there)
  | enter named folder _ ih => exact .enter named (passes.folder folder) (ih takes there)
  | pass named target linked further _ ih =>
    exact .pass named target (passes.link linked) further (ih takes there)
  | file named => exact .file named contents mode there
  | free named => exact .file named contents mode there
  | link => cases takes

/-- Writing a file changes where a path leads only if it leads to that file. -/
theorem Way.put (way : Way tree follow links here parts location) {spot : Place}
    (takes : tree.TakesFile spot) (contents : List UInt8) (mode : Nat) :
    Way (tree.put spot (.file contents mode)) follow links here parts
      (location.after spot (.file contents mode)) := by
  have passes : Passes tree (tree.put spot (.file contents mode)) := .put takes _
  unfold Location.after
  split
  · rename_i both
    obtain ⟨fits, rfl⟩ := both
    exact way.written passes fits (get?_put_self ..)
  · rename_i other
    exact way.same passes fun fits => get?_put_of_ne tree (fun same => other ⟨fits, same⟩) _

/-- A path whose last link is not followed leads where the path leads else, or to a link whose
target leads there. -/
theorem Way.unfollowed (way : Way tree true links here parts location) :
    Way tree false links here parts location ∨ ∃ folder name target left,
      Way tree false links here parts (.taken (folder ++ [name]) (.link target)) ∧
        Way tree true left (if Path.isAbsolute target then [] else folder) (pathParts target) location := by
  induction way with
  | here links here => exact Or.inl (.here links here)
  | stay skipped _ ih =>
    rcases ih with same | ⟨folder, name, target, left, linked, further⟩
    · exact Or.inl (.stay skipped same)
    · exact Or.inr ⟨folder, name, target, left, .stay skipped linked, further⟩
  | leave _ ih =>
    rcases ih with same | ⟨folder, name, target, left, linked, further⟩
    · exact Or.inl (.leave same)
    · exact Or.inr ⟨folder, name, target, left, .leave linked, further⟩
  | enter named entered _ ih =>
    rcases ih with same | ⟨folder, name, target, left, linked, further⟩
    · exact Or.inl (.enter named entered same)
    · exact Or.inr ⟨folder, name, target, left, .enter named entered linked, further⟩
  | @pass links here part rest _ named target linked _ way ih =>
    by_cases last : rest = []
    · subst last
      rw [List.append_nil] at way
      exact Or.inr ⟨here, part, target, links, .link named target linked rfl, way⟩
    · have more : ¬(rest = [] ∧ (!false) = true) := fun both => last both.1
      rcases ih with same | ⟨folder, name, final, left, ends, further⟩
      · exact Or.inl (.pass named target linked more same)
      · exact Or.inr ⟨folder, name, final, left, .pass named target linked more ends, further⟩
  | file named contents mode there => exact Or.inl (.file named contents mode there)
  | free named unused => exact Or.inl (.free named unused)
  | link _ _ _ last => cases last

theorem getLast?_cons_of_getLast? {α : Type} {first last : α} {rest : List α}
    (ends : rest.getLast? = some last) : (first :: rest).getLast? = some last := by
  rw [List.getLast?_cons, ends]
  rfl

/-- If a path ends in a name of some sort, and every link of such a name that may be followed last has
a target that does, then so does the place the path leads to, unless a folder is there. -/
theorem Way.name (way : Way tree follow links here parts location) {sort : String → Prop}
    (targets : follow = true → ∀ place part target, tree.get? (place ++ [part]) = some (.link target) →
      sort part → ∀ name, (pathParts target).getLast? = some name → sort name)
    (last : ∀ name, parts.getLast? = some name → sort name) :
    location.node? = some .folder ∨ ∃ name, location.place.getLast? = some name ∧ sort name := by
  induction way with
  | here => exact Or.inl rfl
  | stay _ _ ih => exact ih fun name ends => last name (getLast?_cons_of_getLast? ends)
  | leave _ ih => exact ih fun name ends => last name (getLast?_cons_of_getLast? ends)
  | enter _ _ _ ih => exact ih fun name ends => last name (getLast?_cons_of_getLast? ends)
  | @pass _ here part rest _ _ target linked further _ ih =>
    refine ih fun name ends => ?_
    by_cases final : rest = []
    · subst final
      rw [List.append_nil] at ends
      exact targets (by simpa using further) here part target linked (last part rfl) name ends
    · refine last name (getLast?_cons_of_getLast? ?_)
      rw [List.getLast?_append] at ends
      cases found : rest.getLast? with
      | none => exact absurd (List.getLast?_eq_none_iff.1 found) final
      | some other =>
        rw [found] at ends
        exact ends
  | @file _ _ part => exact Or.inr ⟨part, List.getLast?_concat, last part rfl⟩
  | @free _ _ part => exact Or.inr ⟨part, List.getLast?_concat, last part rfl⟩
  | @link _ _ part => exact Or.inr ⟨part, List.getLast?_concat, last part rfl⟩

theorem Way.last_name (way : Way tree false links here parts location) {name : String}
    (last : parts.getLast? = some name) (plain : ¬(name = "" ∨ name = ".") ∧ name ≠ "..") :
    location.place.getLast? = some name := by
  have rest_last : ∀ {part : String} {rest : List String}, (part :: rest).getLast? = some name →
      rest ≠ [] → rest.getLast? = some name := by
    intro part rest ends more
    rwa [List.getLast?_cons_of_ne_nil more] at ends
  have alone : ∀ {part : String}, [part].getLast? = some name → part = name := fun ends =>
    Option.some.inj ends
  induction way with
  | here => cases last
  | @stay _ _ part rest _ skipped _ ih =>
    by_cases more : rest = []
    · subst more
      exact absurd (alone last ▸ skipped) plain.1
    · exact ih (rest_last last more)
  | @leave _ _ rest _ _ ih =>
    by_cases more : rest = []
    · subst more
      exact absurd (alone last).symm plain.2
    · exact ih (rest_last last more)
  | @enter _ _ part rest _ _ _ way ih =>
    by_cases more : rest = []
    · subst more
      cases way
      exact List.getLast?_concat.trans (congrArg some (alone last))
    · exact ih (rest_last last more)
  | @pass _ _ part rest _ _ target _ further _ ih =>
    have more : rest ≠ [] := fun none => further ⟨none, rfl⟩
    refine ih ?_
    rw [List.getLast?_append, rest_last last more]
    rfl
  | file => exact List.getLast?_concat.trans last
  | free => exact List.getLast?_concat.trans last
  | link => exact List.getLast?_concat.trans last

end Way

section Locate

variable {tree : FileTree} {follow : Bool} {here : Place} {path : String} {location : Location}

theorem way_of_locate (leads : tree.locate follow here path = .ok location) :
    ∃ start, (∀ (other : FileTree) (follow : Bool) (location : Location),
        Way other follow maxLinks start (pathParts path) location →
          other.locate follow here path = .ok location) ∧
      Way tree follow maxLinks start (pathParts path) location := by
  unfold locate at leads ⊢
  split at leads
  · cases leads
  · rename_i filled
    split at leads
    · cases leads
    · rename_i short
      refine ⟨if Path.isAbsolute path then [] else here, ?_, way_of_locateFrom leads⟩
      intro other follow location way
      rw [if_neg filled, if_neg short]
      exact way.locateFrom

theorem get?_place_of_locate (leads : tree.locate follow here path = .ok location)
    (other : location.node? ≠ some .folder) : tree.get? location.place = location.node? := by
  obtain ⟨start, -, way⟩ := way_of_locate leads
  exact way.get?_place.resolve_left other

theorem locate_ne_link (tree : FileTree) (here : Place) (path : String) (place : Place) (target : String) :
    tree.locate true here path ≠ .ok (.taken place (.link target)) := by
  intro leads
  obtain ⟨start, -, way⟩ := way_of_locate leads
  exact way.ne_link place target rfl

theorem exists_locate (there : tree.exists? here path = true) :
    ∃ place node, tree.locate true here path = .ok (.taken place node) := by
  unfold exists? node? at there
  split at there
  · rename_i place node leads
    exact ⟨place, node, leads⟩
  · cases there

theorem Location.node?_of_takesFile {location : Location} (file : location.takesFile = true) :
    location.node? ≠ some .folder := by
  match location, file with
  | .taken _ (.file contents mode), _ => rintro ⟨⟩
  | .free _, _ => rintro ⟨⟩

theorem takesFile_of_locate (leads : tree.locate follow here path = .ok location)
    (file : location.takesFile = true) : tree.TakesFile location.place := by
  intro node there
  rw [get?_place_of_locate leads (Location.node?_of_takesFile file)] at there
  match location, file, there with
  | .taken _ (.file contents mode), _, rfl => exact ⟨contents, mode, rfl⟩

theorem locate_put (leads : tree.locate follow here path = .ok location) {spot : Place}
    (takes : tree.TakesFile spot) (contents : List UInt8) (mode : Nat) :
    (tree.put spot (.file contents mode)).locate follow here path =
      .ok (location.after spot (.file contents mode)) := by
  obtain ⟨start, goes, way⟩ := way_of_locate leads
  exact goes _ _ _ (way.put takes contents mode)

theorem locate_unfollowed (leads : tree.locate true here path = .ok location) :
    tree.locate false here path = .ok location ∨
      ∃ place target, tree.locate false here path = .ok (.taken place (.link target)) := by
  obtain ⟨start, goes, way⟩ := way_of_locate leads
  rcases way.unfollowed with same | ⟨folder, name, target, left, linked, further⟩
  · exact Or.inl (goes _ _ _ same)
  · exact Or.inr ⟨folder ++ [name], target, goes _ _ _ linked⟩

end Locate

/-! Other contents for a file that stands. -/

def Location.rewritten (location : Location) (spot : Place) (written : Node) : Location :=
  match location with
  | .taken place (.file contents mode) =>
    if place = spot then .taken place written else .taken place (.file contents mode)
  | other => other

theorem Location.place_rewritten (location : Location) (spot : Place) (written : Node) :
    (location.rewritten spot written).place = location.place := by
  unfold rewritten
  split
  · split <;> rfl
  · rfl

section Rewritten

variable {tree : FileTree} {follow : Bool} {spot : Place} {old : List UInt8} {oldMode : Nat}

theorem locateFrom_rewritten (there : tree.get? spot = some (.file old oldMode))
    (contents : List UInt8) (mode : Nat) (links : Nat) (here : Place) (parts : List String) :
    (tree.put spot (.file contents mode)).locateFrom follow links here parts =
      (tree.locateFrom follow links here parts).map (·.rewritten spot (.file contents mode)) := by
  have kept : ∀ {place : Place} {found : Option Node}, tree.get? place = found →
      (∀ contents mode, found ≠ some (.file contents mode)) →
      (tree.put spot (.file contents mode)).get? place = found := by
    intro place found same other
    rw [get?_put_of_ne tree ?_ _, same]
    rintro rfl
    exact other _ _ (same.symm.trans there)
  induction links, here, parts using locateFrom_induct tree follow with
  | nil links here =>
    rw [locateFrom_nil, locateFrom_nil]
    rfl
  | skip links here part rest skipped ih => rw [locateFrom_skip skipped, locateFrom_skip skipped, ih]
  | leave links here rest ih => rw [locateFrom_leave, locateFrom_leave, ih]
  | long links here part rest filled stays long =>
    rw [locateFrom_long filled stays long, locateFrom_long filled stays long]
    rfl
  | enter links here part rest named folder ih =>
    rw [locateFrom_folder named (kept folder (by simp)), locateFrom_folder named folder, ih]
  | file links here part stood bits named file =>
    rw [locateFrom_file named stood bits file]
    by_cases same : here ++ [part] = spot
    · rw [locateFrom_file named contents mode (by rw [same, get?_put_self])]
      exact congrArg Except.ok (if_pos same).symm
    · rw [locateFrom_file named stood bits ((get?_put_of_ne tree same _).trans file)]
      exact congrArg Except.ok (if_neg same).symm
  | blocked links here part rest stood bits named file more =>
    rw [locateFrom_blocked named file more]
    by_cases same : here ++ [part] = spot
    · have written : (tree.put spot (.file contents mode)).get? (here ++ [part]) =
          some (.file contents mode) := by rw [same, get?_put_self]
      exact locateFrom_blocked named written more
    · exact locateFrom_blocked named ((get?_put_of_ne tree same _).trans file) more
  | free links here part named unused =>
    rw [locateFrom_free named (kept unused (by simp)), locateFrom_free named unused]
    rfl
  | missing links here part rest named unused more =>
    rw [locateFrom_missing named (kept unused (by simp)) more, locateFrom_missing named unused more]
    rfl
  | link links here part rest target named linked last =>
    rw [locateFrom_link named (kept linked (by simp)) last, locateFrom_link named linked last]
    rfl
  | linkLoop here part rest target named linked further =>
    rw [locateFrom_linkLoop named (kept linked (by simp)) further, locateFrom_linkLoop named linked further]
    rfl
  | pass links here part rest target named linked further ih =>
    rw [locateFrom_pass named (kept linked (by simp)) further, locateFrom_pass named linked further, ih]

theorem locate_rewritten (there : tree.get? spot = some (.file old oldMode)) (contents : List UInt8)
    (mode : Nat) (here : Place) (path : String) :
    (tree.put spot (.file contents mode)).locate follow here path =
      (tree.locate follow here path).map (·.rewritten spot (.file contents mode)) := by
  unfold locate
  split
  · rfl
  · split
    · rfl
    · exact locateFrom_rewritten there contents mode _ _ _

end Rewritten

end JuceWorkbench.FileTree
