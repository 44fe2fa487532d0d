import JuceWorkbench.Proofs.Script.Listing
import JuceWorkbench.Proofs.Text.Words
import JuceWorkbench.Script.Injection

/-! What a call means: its first word is the target, and each later word belongs to the label
nearest in front of it. A word that comes in is a private source exactly when the private label
is in force there: `addsPrivate_listed_iff`. A label that comes in with it must take no source
from another one: `addsPrivate_labelled_iff`. -/

namespace JuceWorkbench.Script

def behindOpening (text : List Char) : List Char := (text.dropWhile (· != '(')).tail

def upToClosing (text : List Char) : List Char := text.takeWhile (· != ')')

def sectionAfter (current : Option (List Char)) : List (List Char) → Option (List Char)
  | [] => current
  | word :: more => sectionAfter (if word ∈ sectionLabels then some word else current) more

/-- The words other than labels, each with the label in force. -/
def sectioned (current : Option (List Char)) :
    List (List Char) → List (List Char × Option (List Char))
  | [] => []
  | word :: more =>
    if word ∈ sectionLabels then sectioned (some word) more
    else (word, current) :: sectioned current more

/-- The meaning of a call: its target, and its sources with their sections. -/
structure Reading where
  target : Option (List Char)
  sources : List (List Char × Option (List Char))
  deriving DecidableEq, Repr

def readWords (words : List (List Char)) : Reading := ⟨words.head?, sectioned none words.tail⟩

def readCall (lines : List (List Char)) (opening : Nat) : Reading :=
  readWords (Text.words (upToClosing (behindOpening (lines.drop opening).flatten)))

/-- One private source more, and all else as before. -/
def AddsPrivate (before after : Reading) (entry : List Char) : Prop :=
  after.target = before.target ∧ ∃ front back, before.sources = front ++ back ∧
    after.sources = front ++ (entry, some privateLabel) :: back

/-! Readings of words. -/

theorem sectioned_append (current : Option (List Char)) (front back : List (List Char)) :
    sectioned current (front ++ back) =
      sectioned current front ++ sectioned (sectionAfter current front) back := by
  induction front generalizing current with
  | nil => rfl
  | cons word front ih =>
    by_cases labels : word ∈ sectionLabels
    · simp only [List.cons_append, sectioned, sectionAfter, if_pos labels, ih]
    · simp only [List.cons_append, sectioned, sectionAfter, if_neg labels, ih]

theorem mem_of_mem_sectioned (current found : Option (List Char)) (word : List Char)
    (words : List (List Char)) (member : (word, found) ∈ sectioned current words) :
    word ∈ words := by
  induction words generalizing current with
  | nil => cases member
  | cons first words ih =>
    rw [sectioned] at member
    split at member
    · exact List.mem_cons_of_mem first (ih _ member)
    · rcases List.mem_cons.1 member with same | later
      · rw [(Prod.mk.inj same).1]
        exact List.mem_cons_self
      · exact List.mem_cons_of_mem first (ih _ later)

def isPrivate (source : List Char × Option (List Char)) : Bool := source.2 == some privateLabel

theorem countP_sectioned_le (current : Option (List Char)) (words : List (List Char))
    (other : current ≠ some privateLabel) :
    (sectioned current words).countP isPrivate ≤
      (sectioned (some privateLabel) words).countP isPrivate := by
  induction words with
  | nil => exact Nat.le_refl _
  | cons word words ih =>
    rw [sectioned, sectioned]
    by_cases labels : word ∈ sectionLabels
    · simp only [if_pos labels, Nat.le_refl]
    · rw [if_neg labels, if_neg labels, List.countP_cons, List.countP_cons]
      have elsewhere : isPrivate (word, current) = false := by simp [isPrivate, other]
      rw [elsewhere]
      simp only [Bool.false_eq_true, if_false]
      omega

theorem AddsPrivate.countP {before after : Reading} {entry : List Char}
    (adds : AddsPrivate before after entry) (wanted : List Char × Option (List Char) → Bool) :
    after.sources.countP wanted = before.sources.countP wanted +
      (if wanted (entry, some privateLabel) then 1 else 0) := by
  obtain ⟨-, front, back, old, new⟩ := adds
  rw [old, new, List.countP_append, List.countP_append, List.countP_cons]
  omega

theorem AddsPrivate.irrefl {reading : Reading} {entry : List Char} :
    ¬ AddsPrivate reading reading entry := by
  intro adds
  have more := adds.countP isPrivate
  have yes : isPrivate (entry, some privateLabel) = true := by simp [isPrivate]
  rw [yes, if_pos rfl] at more
  omega

theorem addsPrivate_listed_iff (above below : List (List Char)) (entry : List Char)
    (fresh : entry ∉ above ++ below) (source : entry ∉ sectionLabels) :
    AddsPrivate (readWords (above ++ below)) (readWords (above ++ entry :: below)) entry ↔
      ∃ target more, above = target :: more ∧ sectionAfter none more = some privateLabel := by
  cases above with
  | nil =>
    constructor
    · intro adds
      have same : some entry = below.head? := adds.1
      exact absurd (List.mem_of_mem_head? same.symm) fresh
    · rintro ⟨target, more, none, -⟩
      cases none
  | cons target more =>
    have old : (readWords (target :: more ++ below)).sources =
        sectioned none more ++ sectioned (sectionAfter none more) below :=
      sectioned_append none more below
    have new : (readWords (target :: more ++ entry :: below)).sources = sectioned none more ++
        (entry, sectionAfter none more) :: sectioned (sectionAfter none more) below := by
      have split := sectioned_append none more (entry :: below)
      rw [sectioned, if_neg source] at split
      exact split
    constructor
    · intro adds
      refine ⟨target, more, rfl, ?_⟩
      have counted := adds.countP isPrivate
      rw [old, new, List.countP_append, List.countP_append, List.countP_cons] at counted
      have yes : isPrivate (entry, some privateLabel) = true := by simp [isPrivate]
      rw [yes, if_pos rfl] at counted
      by_cases inForce : isPrivate (entry, sectionAfter none more) = true
      · simpa [isPrivate] using inForce
      · rw [if_neg inForce] at counted
        omega
    · rintro ⟨target', more', same, inForce⟩
      obtain ⟨rfl, rfl⟩ := List.cons.inj same
      refine ⟨rfl, _, _, old, ?_⟩
      rw [new, inForce]

theorem addsPrivate_labelled_iff (above below : List (List Char)) (entry : List Char)
    (fresh : entry ∉ above ++ below) (source : entry ∉ sectionLabels) :
    AddsPrivate (readWords (above ++ below)) (readWords (above ++ privateLabel :: entry :: below))
        entry ↔
      ∃ target more, above = target :: more ∧ (sectionAfter none more = some privateLabel ∨
        ∀ word, below.head? = some word → word ∈ sectionLabels) := by
  have label : privateLabel ∈ sectionLabels := List.mem_cons_self
  cases above with
  | nil =>
    constructor
    · intro adds
      obtain ⟨-, front, back, old, new⟩ := adds
      have first : (entry, none) ∈ (readWords ([] ++ privateLabel :: entry :: below)).sources := by
        simp [readWords, sectioned, source]
      rw [new] at first
      have older : (entry, none) ∈ (readWords ([] ++ below)).sources := by
        rw [old]
        simpa using first
      exact absurd (List.mem_of_mem_tail (mem_of_mem_sectioned _ _ _ _ older)) fresh
    · rintro ⟨target, more, none, -⟩
      cases none
  | cons target more =>
    have old : (readWords (target :: more ++ below)).sources =
        sectioned none more ++ sectioned (sectionAfter none more) below :=
      sectioned_append none more below
    have new : (readWords (target :: more ++ privateLabel :: entry :: below)).sources =
        sectioned none more ++ (entry, some privateLabel) ::
          sectioned (some privateLabel) below := by
      have split := sectioned_append none more (privateLabel :: entry :: below)
      rw [sectioned, if_pos label, sectioned, if_neg source] at split
      exact split
    constructor
    · intro adds
      refine ⟨target, more, rfl, ?_⟩
      by_cases inForce : sectionAfter none more = some privateLabel
      · exact Or.inl inForce
      · right
        intro word first
        apply Decidable.byContradiction
        intro plain
        -- the word changes its section, which makes one private source too many
        obtain ⟨tail, rfl⟩ := List.head?_eq_some_iff.1 first
        have counted := adds.countP isPrivate
        rw [old, new, sectioned, sectioned, if_neg plain, if_neg plain, List.countP_append,
          List.countP_append, List.countP_cons, List.countP_cons, List.countP_cons] at counted
        have bound := countP_sectioned_le (sectionAfter none more) tail inForce
        have elsewhere : isPrivate (word, sectionAfter none more) = false := by
          simp [isPrivate, inForce]
        have yes (name : List Char) : isPrivate (name, some privateLabel) = true := by
          simp [isPrivate]
        simp only [yes, elsewhere, if_true, Bool.false_eq_true, if_false] at counted
        omega
    · rintro ⟨target', more', same, which⟩
      obtain ⟨rfl, rfl⟩ := List.cons.inj same
      refine ⟨rfl, _, _, old, ?_⟩
      have kept : sectioned (sectionAfter none more) below = sectioned (some privateLabel) below := by
        rcases which with inForce | labelled
        · rw [inForce]
        · cases below with
          | nil => rfl
          | cons word tail =>
            have labels := labelled word rfl
            rw [sectioned, sectioned, if_pos labels, if_pos labels]
      rw [new, kept]

/-! Readings of lines. -/

theorem behindOpening_of_cut (front back : List Char) (first : '(' ∉ front) :
    behindOpening (front ++ '(' :: back) = back := by
  have plain : ∀ c ∈ front, (c != '(') = true := by
    intro c member
    have other : c ≠ '(' := fun same => first (same ▸ member)
    simpa using other
  rw [behindOpening, List.dropWhile_append_of_pos plain]
  rfl

theorem behindOpening_append (front back : List Char) (opens : '(' ∈ front) :
    behindOpening (front ++ back) = behindOpening front ++ back := by
  obtain ⟨start, rest, rfl, first⟩ := List.eq_append_cons_of_mem opens
  rw [List.append_assoc, List.cons_append, behindOpening_of_cut _ _ first,
    behindOpening_of_cut _ _ first]

theorem exists_behindOpening (text : List Char) (opens : '(' ∈ text) :
    ∃ front, text = front ++ '(' :: behindOpening text := by
  obtain ⟨front, back, rfl, first⟩ := List.eq_append_cons_of_mem opens
  exact ⟨front, by rw [behindOpening_of_cut _ _ first]⟩

theorem upToClosing_append (front back : List Char) (still : ')' ∉ front) :
    upToClosing (front ++ back) = front ++ upToClosing back := by
  apply List.takeWhile_append_of_pos
  intro c member
  have other : c ≠ ')' := fun same => still (same ▸ member)
  simpa using other

theorem upToClosing_closed (front back : List Char) (closed : ')' ∈ front) :
    upToClosing (front ++ back) = upToClosing front := by
  obtain ⟨start, rest, rfl, still⟩ := List.eq_append_cons_of_mem closed
  rw [List.append_assoc, upToClosing_append _ _ still, upToClosing_append _ _ still]
  rfl

theorem exists_upToClosing (text : List Char) :
    ∃ back, text = upToClosing text ++ back ∧ ∀ c, back.head? = some c → c = ')' := by
  refine ⟨text.dropWhile (· != ')'), List.takeWhile_append_dropWhile.symm, ?_⟩
  intro c first
  have stops := List.head?_dropWhile_not (· != ')') text
  rw [first] at stops
  simpa using stops

section Cut

variable (above front back : List (List Char)) (opens : '(' ∈ front.flatten)

include opens

theorem readCall_closed (closed : ')' ∈ behindOpening front.flatten) :
    readCall (above ++ (front ++ back)) above.length =
      readWords (Text.words (upToClosing (behindOpening front.flatten))) := by
  rw [readCall, List.drop_left, List.flatten_append, behindOpening_append _ _ opens,
    upToClosing_closed _ _ closed]

theorem readCall_open (apart : ∀ c, front.flatten.getLast? = some c → Text.isBlank c = true)
    (still : ')' ∉ behindOpening front.flatten) :
    readCall (above ++ (front ++ back)) above.length =
      readWords (Text.words (behindOpening front.flatten) ++
        Text.words (upToClosing back.flatten)) := by
  rw [readCall, List.drop_left, List.flatten_append, behindOpening_append _ _ opens,
    upToClosing_append _ _ still, Text.words_append]
  intro c last
  obtain ⟨start, split⟩ := exists_behindOpening front.flatten opens
  apply apart c
  rw [split, List.getLast?_append, List.getLast?_cons, last]
  rfl

end Cut

theorem isListed_of_mem_words (above below : List (List Char)) (word : List Char)
    (opens : '(' ∈ below.flatten)
    (member : word ∈ Text.words (upToClosing (behindOpening below.flatten))) :
    isListed (above ++ below).flatten word = true := by
  obtain ⟨start, call⟩ := exists_behindOpening below.flatten opens
  obtain ⟨rest, closes, closing⟩ := exists_upToClosing (behindOpening below.flatten)
  obtain ⟨front, back, stands, before, behind⟩ := Text.exists_of_mem_words _ _ member
  rw [isListed_iff_append]
  refine ⟨above.flatten ++ (start ++ '(' :: front), back ++ rest, ?_, ?_, ?_⟩
  · rw [List.flatten_append, call, closes, stands]
    simp
  · rw [List.getLast?_append, List.getLast?_append, List.getLast?_cons]
    cases last : front.getLast? with
    | none => exact (by decide : joinsBefore '(' = false)
    | some c => exact joinsBefore_of_isBlank c (before c last)
  · cases first : back with
    | nil =>
      cases next : rest.head? with
      | none => simp [next]
      | some c =>
        rw [List.nil_append, next, closing c next]
        decide
    | cons c tail => exact joinsBehind_of_isBlank c (behind c (by rw [first]; rfl))

end JuceWorkbench.Script
