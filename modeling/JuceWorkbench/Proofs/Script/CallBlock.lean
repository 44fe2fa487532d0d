import JuceWorkbench.Proofs.Script.Insertion
import JuceWorkbench.Proofs.Script.Scan

/-! The call that takes an entry when there are no markers: the first one that closes on a
later line. A script is cut around it, `CallBlock`, and the block around its private list,
`PrivateList`. Lines of balance zero between its first and last line keep the block. -/

namespace JuceWorkbench.Script

structure IsFirstCall (lines : List (List Char)) (opening closing : Nat) : Prop where
  opens : ∃ line, lines[opening]? = some line ∧ opensCall line = true
  ends : blockEnd? lines opening = some closing
  later : opening < closing
  skips : ∀ index < opening, ∀ line, lines[index]? = some line → opensCall line = true →
    blockEnd? lines index = some index

/-- A script cut around the first call over several lines. -/
structure CallBlock where
  above : List (List Char)
  head : List Char
  inner : List (List Char)
  foot : List Char
  below : List (List Char)
  skips : ∀ line ∈ above, opensCall line = true → parenBalance line ≤ 0
  opens : opensCall head = true
  stays : StaysOpen 0 (head :: inner)
  closes : depthAfter 0 (head :: inner) + parenBalance foot ≤ 0

namespace CallBlock

def lines (block : CallBlock) : List (List Char) :=
  block.above ++ block.head :: (block.inner ++ block.foot :: block.below)

theorem lines_eq_inner (block : CallBlock) : block.lines =
    (block.above ++ [block.head]) ++ (block.inner ++ block.foot :: block.below) := by
  simp [lines]

theorem lines_eq_foot (block : CallBlock) : block.lines =
    (block.above ++ block.head :: block.inner) ++ (block.foot :: block.below) := by
  simp [lines]

def opening (block : CallBlock) : Nat := block.above.length

def closing (block : CallBlock) : Nat := block.above.length + block.inner.length + 1

theorem closesAfter?_head (block : CallBlock) :
    closesAfter? 0 (block.head :: (block.inner ++ block.foot :: block.below)) =
      some (block.inner.length + 1) := by
  rw [closesAfter?_eq_some_iff]
  exact ⟨block.head :: block.inner, block.foot, block.below, rfl, rfl, block.stays, block.closes⟩

theorem closesAfter?_zero_iff (line : List Char) (more : List (List Char)) :
    closesAfter? 0 (line :: more) = some 0 ↔ parenBalance line ≤ 0 := by
  rw [closesAfter?, Int.zero_add]
  by_cases closes : parenBalance line ≤ 0
  · simp [closes]
  · simp [closes]

theorem callBlock?_cons (line : List Char) (more : List (List Char))
    (skips : opensCall line = true → parenBalance line ≤ 0) :
    callBlock? (line :: more) = (callBlock? more).map fun found => (found.1 + 1, found.2 + 1) := by
  rw [callBlock?]
  by_cases opens : opensCall line = true
  · rw [if_pos opens, (closesAfter?_zero_iff line more).2 (skips opens)]
  · rw [if_neg opens]

theorem callBlock?_lines (block : CallBlock) :
    callBlock? block.lines = some (block.opening, block.closing) := by
  have skipped (above : List (List Char)) (rest : List (List Char)) (found : Nat × Nat)
      (skips : ∀ line ∈ above, opensCall line = true → parenBalance line ≤ 0)
      (there : callBlock? rest = some found) :
      callBlock? (above ++ rest) = some (above.length + found.1, above.length + found.2) := by
    induction above with
    | nil => simp [there]
    | cons line above ih =>
      rw [List.cons_append, callBlock?_cons _ _ (skips line List.mem_cons_self),
        ih fun other member => skips other (List.mem_cons_of_mem line member)]
      simp only [Option.map_some, List.length_cons, Option.some.injEq, Prod.mk.injEq]
      omega
  have first : callBlock? (block.head :: (block.inner ++ block.foot :: block.below)) =
      some (0, block.inner.length + 1) := by
    rw [callBlock?, if_pos block.opens, block.closesAfter?_head]
  exact skipped _ _ _ block.skips first

end CallBlock

theorem exists_callBlock (lines : List (List Char)) (opening closing : Nat)
    (found : callBlock? lines = some (opening, closing)) :
    ∃ block : CallBlock, block.lines = lines ∧ block.opening = opening ∧
      block.closing = closing := by
  induction lines generalizing opening closing with
  | nil => cases found
  | cons line more ih =>
    have later (skips : opensCall line = true → parenBalance line ≤ 0) :
        ∃ block : CallBlock, block.lines = line :: more ∧ block.opening = opening ∧
          block.closing = closing := by
      rw [CallBlock.callBlock?_cons line more skips, Option.map_eq_some_iff] at found
      obtain ⟨⟨o, c⟩, there, same⟩ := found
      obtain ⟨rfl, rfl⟩ := Prod.mk.inj same
      obtain ⟨block, rfl, rfl, rfl⟩ := ih o c there
      refine ⟨{ block with above := line :: block.above, skips := ?_ }, rfl, rfl, ?_⟩
      · intro other member
        rcases List.mem_cons.1 member with rfl | deeper
        · exact skips
        · exact block.skips other deeper
      · simp only [CallBlock.closing, List.length_cons]
        omega
    by_cases opens : opensCall line = true
    · rw [callBlock?, if_pos opens] at found
      cases ends : closesAfter? 0 (line :: more) with
      | none => simp [ends] at found
      | some n =>
        cases n with
        | zero => exact later fun _ => (CallBlock.closesAfter?_zero_iff line more).1 ends
        | succ n =>
          simp only [ends, Option.some.injEq, Prod.mk.injEq] at found
          obtain ⟨rfl, rfl⟩ := found
          obtain ⟨inner, foot, below, same, length, stays, closes⟩ :=
            (closesAfter?_eq_some_iff _ _ _).1 ends
          cases inner with
          | nil => cases length
          | cons first inner =>
            obtain ⟨rfl, rfl⟩ := List.cons.inj same
            refine ⟨⟨[], line, inner, foot, below, by simp, opens, stays, closes⟩, rfl, rfl, ?_⟩
            simpa [CallBlock.closing] using length
    · exact later fun yes => absurd yes opens

namespace CallBlock

theorem blockEnd?_append (above : List (List Char)) (line : List Char) (more : List (List Char)) :
    blockEnd? (above ++ line :: more) above.length =
      (closesAfter? 0 (line :: more)).map (above.length + ·) := by
  rw [blockEnd?, List.drop_left]

theorem isFirstCall (block : CallBlock) :
    IsFirstCall block.lines block.opening block.closing where
  opens := ⟨block.head, by simp [lines, opening], block.opens⟩
  ends := by
    rw [lines, opening, blockEnd?_append, block.closesAfter?_head]
    rfl
  later := by
    simp only [opening, closing]
    omega
  skips := by
    intro index inside line there opens
    rw [lines, List.getElem?_append_left inside] at there
    obtain ⟨front, back, split, rfl⟩ := exists_cut_of_getElem? there
    have closes := block.skips line (by rw [split]; simp) opens
    rw [lines, split, List.append_assoc, List.cons_append, blockEnd?_append,
      (closesAfter?_zero_iff line _).2 closes]
    rfl

end CallBlock

theorem exists_callBlock_of_isFirstCall {lines : List (List Char)} {opening closing : Nat}
    (call : IsFirstCall lines opening closing) :
    ∃ block : CallBlock, block.lines = lines ∧ block.opening = opening ∧
      block.closing = closing := by
  obtain ⟨head, there, opens⟩ := call.opens
  obtain ⟨above, rest, rfl, rfl⟩ := exists_cut_of_getElem? there
  have ends := call.ends
  rw [CallBlock.blockEnd?_append, Option.map_eq_some_iff] at ends
  obtain ⟨n, found, rfl⟩ := ends
  obtain ⟨inner, foot, below, same, rfl, stays, closes⟩ := (closesAfter?_eq_some_iff _ _ _).1 found
  have later := call.later
  cases inner with
  | nil => simp at later
  | cons first inner =>
    obtain ⟨rfl, rfl⟩ := List.cons.inj same
    refine ⟨⟨above, head, inner, foot, below, ?_, opens, stays, closes⟩, rfl, rfl, rfl⟩
    intro line member calls
    obtain ⟨front, back, rfl⟩ := List.append_of_mem member
    have ends := call.skips front.length (by simp) line (by simp) calls
    rw [List.append_assoc, List.cons_append, CallBlock.blockEnd?_append, Option.map_eq_some_iff] at ends
    obtain ⟨n, zero, same⟩ := ends
    obtain rfl : n = 0 := by omega
    exact (CallBlock.closesAfter?_zero_iff line _).1 zero

/-! The private list of a call. -/

/-- The lines inside a block cut around the first private label and the list under it, which
ends at the first closing parenthesis or label. -/
structure PrivateList where
  between : List (List Char)
  label : List Char
  listed : List (List Char)
  behind : List (List Char)
  unlabelled : ∀ line ∈ between, startsPrivate line = false
  labels : startsPrivate label = true
  runs : ∀ line ∈ listed, endsList line = false
  stops : ∀ line, behind.head? = some line → endsList line = true

namespace PrivateList

def lines (list : PrivateList) : List (List Char) :=
  list.between ++ list.label :: (list.listed ++ list.behind)

theorem findIdx?_private (list : PrivateList) :
    list.lines.findIdx? startsPrivate = some list.between.length := by
  rw [findIdx?_eq_some_iff_cut]
  exact ⟨list.between, list.label, _, rfl, rfl, list.labels, list.unlabelled⟩

theorem findIdx_endsList (list : PrivateList) :
    (list.listed ++ list.behind).findIdx endsList = list.listed.length := by
  have stop : list.behind.findIdx endsList = 0 := by
    cases first : list.behind with
    | nil => rfl
    | cons line more =>
      rw [List.findIdx_cons, list.stops line (by rw [first]; rfl)]
      rfl
  rw [List.findIdx_append, List.findIdx_eq_length_of_false list.runs, if_neg (Nat.lt_irrefl _), stop,
    Nat.zero_add]

end PrivateList

def PrivateList.ofLabel (between : List (List Char)) (label : List Char) (rest : List (List Char))
    (unlabelled : ∀ line ∈ between, startsPrivate line = false) (labels : startsPrivate label = true) :
    PrivateList where
  between := between
  label := label
  listed := rest.takeWhile (!endsList ·)
  behind := rest.dropWhile (!endsList ·)
  unlabelled := unlabelled
  labels := labels
  runs := by
    intro line member
    have runs := List.all_eq_true.1 (List.all_takeWhile (p := (!endsList ·)) (l := rest)) line member
    simpa using runs
  stops := by
    intro line first
    have stops := List.head?_dropWhile_not (!endsList ·) rest
    rw [first] at stops
    simpa using stops

theorem exists_privateList (inner : List (List Char))
    (labelled : ∃ line ∈ inner, startsPrivate line = true) :
    ∃ list : PrivateList, list.lines = inner := by
  obtain ⟨line, member, labels⟩ := labelled
  cases found : inner.findIdx? startsPrivate with
  | none =>
    rw [List.findIdx?_eq_none_iff.1 found line member] at labels
    cases labels
  | some index =>
    obtain ⟨between, label, rest, rfl, -, labels, unlabelled⟩ :=
      (findIdx?_eq_some_iff_cut _ _ _).1 found
    exact ⟨.ofLabel between label rest unlabelled labels, by simp [PrivateList.lines, PrivateList.ofLabel]⟩

/-- The indentation of an entry: that of the first line of the list that is not blank, and a
step more than that of the label when there is none. -/
def siblingMargin (label : List Char) (listed : List (List Char)) : List Char :=
  match listed.find? fun line => !(Text.trim line).isEmpty with
  | some sibling => indentOf sibling
  | none => indentOf label ++ indentStep

theorem siblingMargin_blank (label : List Char) (listed : List (List Char)) :
    ∀ c ∈ siblingMargin label listed, Text.isBlank c = true := by
  intro c member
  unfold siblingMargin at member
  split at member
  · exact indentOf_blank _ c member
  · rcases List.mem_append.1 member with inner | outer
    · exact indentOf_blank _ c inner
    · exact indentStep_blank c outer

namespace CallBlock

variable (block : CallBlock) (entry newline : List Char)

theorem take_closing : block.lines.take block.closing =
    block.above ++ block.head :: block.inner := by
  rw [lines_eq_foot, List.take_left']
  simp only [closing, List.length_append, List.length_cons]
  omega

theorem findFrom?_private : findFrom? startsPrivate (block.lines.take block.closing) (block.opening + 1) =
    (block.inner.findIdx? startsPrivate).map (block.opening + 1 + ·) := by
  have split : block.above ++ block.head :: block.inner =
      (block.above ++ [block.head]) ++ block.inner := by simp
  have length : (block.above ++ [block.head]).length = block.opening + 1 := by simp [opening]
  rw [take_closing, split, ← length, findFrom?_append]

theorem intoCall?_of_unlabelled (none : ∀ line ∈ block.inner, startsPrivate line = false) :
    intoCall? block.lines entry newline =
      some ⟨block.above.length + 1,
        [indentOf block.head ++ indentStep ++ privateLabel ++ newline,
          indentOf block.head ++ indentStep ++ indentStep ++ entry ++ newline]⟩ := by
  have head : block.lines.getD block.opening [] = block.head := by simp [lines, opening]
  simp only [intoCall?, callBlock?_lines, Option.map_some, findFrom?_private,
    List.findIdx?_eq_none_iff.2 none, Option.map_none, head]
  rfl

def toLabel (list : PrivateList) : List (List Char) :=
  block.above ++ block.head :: (list.between ++ [list.label])

theorem siblingMargin_eq (front listed rest : List (List Char)) (label : List Char) :
    (match findFrom? (fun line => !(Text.trim line).isEmpty) (front ++ listed) front.length with
      | some sibling => indentOf ((front ++ (listed ++ rest)).getD sibling [])
      | none => indentOf label ++ indentStep) = siblingMargin label listed := by
  rw [findFrom?_append, siblingMargin]
  cases found : listed.findIdx? fun line => !(Text.trim line).isEmpty with
  | none =>
    have none : listed.find? (fun line => !(Text.trim line).isEmpty) = none := by
      rw [List.find?_eq_none]
      intro line member
      simpa using List.findIdx?_eq_none_iff.1 found line member
    rw [none]
    rfl
  | some index =>
    obtain ⟨above, sibling, below, rfl, rfl, hit, missed⟩ :=
      (findIdx?_eq_some_iff_cut _ _ _).1 found
    have first : (above ++ sibling :: below).find? (fun line => !(Text.trim line).isEmpty) =
        some sibling := by
      rw [List.find?_eq_some_iff_append]
      exact ⟨hit, above, below, rfl, fun line member => by rw [missed line member]; rfl⟩
    rw [first]
    simp

theorem lines_eq_toLabel (list : PrivateList) (whole : list.lines = block.inner) :
    block.lines = block.toLabel list ++ (list.listed ++ (list.behind ++ block.foot :: block.below)) := by
  rw [lines, ← whole]
  simp [toLabel, PrivateList.lines]

theorem lines_eq_listed (list : PrivateList) (whole : list.lines = block.inner) :
    block.lines = (block.toLabel list ++ list.listed) ++
      (list.behind ++ block.foot :: block.below) := by
  rw [block.lines_eq_toLabel list whole, List.append_assoc]

theorem intoCall?_of_list (list : PrivateList) (whole : list.lines = block.inner) :
    intoCall? block.lines entry newline =
      some ⟨(block.toLabel list ++ list.listed).length,
        [siblingMargin list.label list.listed ++ entry ++ newline]⟩ := by
  have index := list.findIdx?_private
  have length : block.opening + 1 + list.between.length + 1 = (block.toLabel list).length := by
    simp only [opening, toLabel, List.length_append, List.length_cons, List.length_nil]
    omega
  have split := block.lines_eq_toLabel list whole
  have inside : block.lines.take block.closing =
      block.toLabel list ++ (list.listed ++ list.behind) := by
    rw [take_closing, ← whole]
    simp [toLabel, PrivateList.lines]
  have label : block.lines.getD (block.opening + 1 + list.between.length) [] = list.label := by
    have before : block.lines = (block.above ++ block.head :: list.between) ++
        list.label :: (list.listed ++ (list.behind ++ block.foot :: block.below)) := by
      rw [split]
      simp [toLabel]
    have there : block.opening + 1 + list.between.length =
        (block.above ++ block.head :: list.between).length := by
      simp only [opening, List.length_append, List.length_cons]
      omega
    rw [before, there]
    simp
  have cut : block.lines.take ((block.toLabel list).length + list.listed.length) =
      block.toLabel list ++ list.listed := by
    rw [split, ← List.append_assoc, List.take_left']
    rw [List.length_append]
  rw [intoCall?, callBlock?_lines]
  simp only [Option.map_some, findFrom?_private, ← whole, index, intoPrivateList, label, length]
  rw [inside, List.drop_left, list.findIdx_endsList, cut, split, List.length_append]
  exact congrArg (fun margin => some (Insertion.mk _ [margin ++ entry ++ newline]))
    (siblingMargin_eq _ _ _ _)

end CallBlock

end JuceWorkbench.Script
