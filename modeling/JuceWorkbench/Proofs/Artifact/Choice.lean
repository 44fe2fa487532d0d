import JuceWorkbench.Artifact.Candidate

/-! The choice among candidates. Sorting by length keeps the order of paths of one length, so the
first sorted candidate of a sort is the first of the shortest of that sort in the given order:
`find?_byLength`. The choice is of the sort that mentions the build type if there is one. -/

namespace JuceWorkbench.Artifact.Candidate

/-- A candidate that is shorter than all those in front of it that are `wanted`, and no longer than
those behind it. -/
structure IsFirstShortest (wanted : Candidate → Bool) (candidates : List Candidate)
    (chosen : Candidate) (before after : List Candidate) : Prop where
  split : candidates = before ++ chosen :: after
  wants : wanted chosen = true
  shorter : ∀ other ∈ before, wanted other = true → chosen.path.length < other.path.length
  notLonger : ∀ other ∈ after, wanted other = true → chosen.path.length ≤ other.path.length

theorem perm_byLength (candidates : List Candidate) : (byLength candidates).Perm candidates :=
  List.mergeSort_perm candidates _

theorem mem_byLength (candidates : List Candidate) (candidate : Candidate) :
    candidate ∈ byLength candidates ↔ candidate ∈ candidates :=
  (perm_byLength candidates).mem_iff

theorem decide_length_trans (a b c : Candidate)
    (first : decide (a.path.length ≤ b.path.length) = true)
    (second : decide (b.path.length ≤ c.path.length) = true) :
    decide (a.path.length ≤ c.path.length) = true :=
  decide_eq_true (Nat.le_trans (of_decide_eq_true first) (of_decide_eq_true second))

theorem decide_length_total (a b : Candidate) :
    (decide (a.path.length ≤ b.path.length) || decide (b.path.length ≤ a.path.length)) = true := by
  simpa using Nat.le_total a.path.length b.path.length

theorem pairwise_byLength (candidates : List Candidate) :
    (byLength candidates).Pairwise fun a b => a.path.length ≤ b.path.length :=
  (List.pairwise_mergeSort decide_length_trans decide_length_total candidates).imp of_decide_eq_true

theorem exists_byLength_cons (first : Candidate) (more : List Candidate) :
    ∃ front back, byLength (first :: more) = front ++ first :: back ∧
      byLength more = front ++ back ∧ ∀ other ∈ front, other.path.length < first.path.length := by
  obtain ⟨front, back, whole, rest, shorter⟩ :=
    List.mergeSort_cons decide_length_trans decide_length_total first more
  refine ⟨front, back, whole, rest, ?_⟩
  intro other member
  simpa using shorter other member

theorem find?_byLength (wanted : Candidate → Bool) (candidates : List Candidate)
    (chosen : Candidate) (found : (byLength candidates).find? wanted = some chosen) :
    ∃ before after, IsFirstShortest wanted candidates chosen before after := by
  induction candidates generalizing chosen with
  | nil =>
    have member := (mem_byLength [] chosen).1 (List.mem_of_find?_eq_some found)
    cases member
  | cons first more ih =>
    obtain ⟨front, back, whole, rest, shorter⟩ := exists_byLength_cons first more
    have sorted := pairwise_byLength (first :: more)
    rw [whole] at found sorted
    cases early : front.find? wanted with
    | some other =>
      -- what is sorted in front of the new candidate was chosen before it came
      rw [List.find?_append, early] at found
      obtain rfl : other = chosen := Option.some.inj found
      obtain ⟨before, after, choice⟩ := ih other (by rw [rest, List.find?_append, early]; rfl)
      refine ⟨first :: before, after, by rw [choice.split]; rfl, choice.wants, ?_, choice.notLonger⟩
      intro third member wants
      rcases List.mem_cons.1 member with rfl | later
      · exact shorter other (List.mem_of_find?_eq_some early)
      · exact choice.shorter third later wants
    | none =>
      rw [List.find?_append, early, Option.none_or] at found
      by_cases wants : wanted first = true
      · rw [List.find?_cons_of_pos wants] at found
        obtain rfl : first = chosen := Option.some.inj found
        refine ⟨[], more, rfl, wants, by simp, ?_⟩
        intro other member wantsOther
        have there := (mem_byLength more other).2 member
        rw [rest] at there
        rcases List.mem_append.1 there with ahead | behind
        · exact absurd wantsOther (List.find?_eq_none.1 early other ahead)
        · exact (List.pairwise_cons.1 (List.pairwise_append.1 sorted).2.1).1 other behind
      · rw [List.find?_cons_of_neg wants] at found
        obtain ⟨before, after, choice⟩ := ih chosen (by rw [rest, List.find?_append, early]; exact found)
        refine ⟨first :: before, after, by rw [choice.split]; rfl, choice.wants, ?_, choice.notLonger⟩
        intro third member wantsThird
        rcases List.mem_cons.1 member with rfl | later
        · exact absurd wantsThird wants
        · exact choice.shorter third later wantsThird

theorem best?_eq_none_iff (candidates : List Candidate) : best? candidates = none ↔ candidates = [] := by
  have empty : byLength candidates = [] ↔ candidates = [] := by
    rw [← List.length_eq_zero_iff, ← List.length_eq_zero_iff, (perm_byLength candidates).length_eq]
  unfold best?
  simp only [Option.or_eq_none_iff, List.head?_eq_none_iff, empty, and_iff_right_iff_imp]
  intro none
  rw [empty.2 none]
  rfl

/-- The sort a choice is made from: the candidates that mention the build type, or all if none
does. -/
def isPreferred (candidates : List Candidate) (candidate : Candidate) : Bool :=
  candidate.mentionsBuildType || !candidates.any (·.mentionsBuildType)

theorem isPreferred_congr {candidates : List Candidate} {a b : Candidate}
    (alike : a.mentionsBuildType = b.mentionsBuildType) :
    isPreferred candidates a = isPreferred candidates b := by
  unfold isPreferred
  rw [alike]

theorem mentions_of_isPreferred {candidates : List Candidate} {candidate other : Candidate}
    (preferred : isPreferred candidates candidate = true) (member : other ∈ candidates)
    (mentions : other.mentionsBuildType = true) : candidate.mentionsBuildType = true := by
  have mentioned : candidates.any (·.mentionsBuildType) = true :=
    List.any_eq_true.2 ⟨other, member, mentions⟩
  simpa [isPreferred, mentioned] using preferred

theorem best?_eq_find? (candidates : List Candidate) :
    best? candidates = (byLength candidates).find? (isPreferred candidates) := by
  unfold best?
  by_cases mentioned : candidates.any (·.mentionsBuildType) = true
  · have same : isPreferred candidates = (·.mentionsBuildType) := by
      funext candidate
      simp [isPreferred, mentioned]
    obtain ⟨candidate, member, mentions⟩ := List.any_eq_true.1 mentioned
    have found : ((byLength candidates).find? (·.mentionsBuildType)).isSome = true := by
      rw [List.find?_isSome]
      exact ⟨candidate, (mem_byLength candidates candidate).2 member, mentions⟩
    rw [same, Option.or_of_isSome found]
  · have all : isPreferred candidates = fun _ => true := by
      funext candidate
      simp [isPreferred, mentioned]
    have none : (byLength candidates).find? (·.mentionsBuildType) = none := by
      rw [List.find?_eq_none]
      intro candidate member mentions
      exact mentioned (List.any_eq_true.2 ⟨candidate, (mem_byLength candidates candidate).1 member, mentions⟩)
    rw [all]
    dsimp only
    rw [none, Option.none_or]
    cases byLength candidates <;> rfl

theorem exists_of_best? (candidates : List Candidate) (chosen : Candidate)
    (found : best? candidates = some chosen) :
    ∃ before after, IsFirstShortest (isPreferred candidates) candidates chosen before after :=
  find?_byLength _ _ _ (best?_eq_find? candidates ▸ found)

end JuceWorkbench.Artifact.Candidate
