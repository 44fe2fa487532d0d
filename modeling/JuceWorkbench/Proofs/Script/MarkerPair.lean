import JuceWorkbench.Proofs.Script.Insertion
import JuceWorkbench.Proofs.Script.Scan

/-! A usable pair of markers: the first line with the begin marker stands above the first line
with the end marker. Such a script is cut at its end marker, `MarkerPair`, and an entry goes
right in front of the cut. Lines without markers neither make nor break a pair. -/

namespace JuceWorkbench.Script

theorem isTrimmed_beginMarker : Text.IsTrimmed beginMarker where
  head := ⟨'#', beginMarker.tail, by decide, by decide⟩
  last := ⟨beginMarker.dropLast, 'N', by decide, by decide⟩

theorem isTrimmed_endMarker : Text.IsTrimmed endMarker where
  head := ⟨'#', endMarker.tail, by decide, by decide⟩
  last := ⟨endMarker.dropLast, 'D', by decide, by decide⟩

/-- The first line with the begin marker stands above the first line with the end marker. -/
def HasMarkers (lines : List (List Char)) : Prop :=
  ∃ opening closing, findFrom? (Text.contains · beginMarker) lines 0 = some opening ∧
    findFrom? (Text.contains · endMarker) lines 0 = some closing ∧ opening < closing

/-- A script cut at its first end marker, with a begin marker above. -/
structure MarkerPair where
  above : List (List Char)
  closing : List Char
  below : List (List Char)
  begins : ∃ line ∈ above, Text.contains line beginMarker = true
  first : ∀ line ∈ above, Text.contains line endMarker = false
  ends : Text.contains closing endMarker = true

namespace MarkerPair

def lines (pair : MarkerPair) : List (List Char) := pair.above ++ pair.closing :: pair.below

theorem findFrom?_end (pair : MarkerPair) :
    findFrom? (Text.contains · endMarker) pair.lines 0 = some pair.above.length := by
  rw [findFrom?_zero, findIdx?_eq_some_iff_cut]
  exact ⟨pair.above, pair.closing, pair.below, rfl, rfl, pair.ends, pair.first⟩

theorem findFrom?_begin (pair : MarkerPair) :
    ∃ opening, findFrom? (Text.contains · beginMarker) pair.lines 0 = some opening ∧
      opening < pair.above.length := by
  obtain ⟨line, member, hit⟩ := pair.begins
  obtain ⟨opening, found⟩ := Option.isSome_iff_exists.1
    (List.findIdx?_isSome (p := (Text.contains · beginMarker)) ▸
      List.any_eq_true.2 ⟨line, member, hit⟩ :
        (pair.above.findIdx? (Text.contains · beginMarker)).isSome = true)
  refine ⟨opening, ?_, ?_⟩
  · rw [findFrom?_zero, lines, List.findIdx?_append, found]
    rfl
  · exact (List.findIdx?_eq_some_iff_getElem.1 found).1

theorem hasMarkers (pair : MarkerPair) : HasMarkers pair.lines := by
  obtain ⟨opening, found, above⟩ := pair.findFrom?_begin
  exact ⟨opening, pair.above.length, found, pair.findFrom?_end, above⟩

theorem betweenMarkers?_lines (pair : MarkerPair) (entry newline : List Char) :
    betweenMarkers? pair.lines entry newline =
      some ⟨pair.above.length, [indentOf pair.closing ++ entry ++ newline]⟩ := by
  obtain ⟨opening, found, above⟩ := pair.findFrom?_begin
  have there : pair.lines.getD pair.above.length [] = pair.closing := by
    simp [lines]
  simp only [betweenMarkers?, found, pair.findFrom?_end, Option.bind_eq_bind, Option.bind_some]
  rw [if_neg (by omega), there]

end MarkerPair

theorem hasMarkers_iff_exists_pair (lines : List (List Char)) :
    HasMarkers lines ↔ ∃ pair : MarkerPair, pair.lines = lines := by
  constructor
  · rintro ⟨opening, closing, begins, ends, order⟩
    rw [findFrom?_zero, findIdx?_eq_some_iff_cut] at begins ends
    obtain ⟨above, line, below, rfl, rfl, hit, missed⟩ := ends
    obtain ⟨front, first, back, same, rfl, begun, -⟩ := begins
    have member : first ∈ above := by
      have whole : front ++ [first] <+: above ++ line :: below := ⟨back, by simp [same]⟩
      have reaches : front ++ [first] <+: above := by
        apply List.prefix_of_prefix_length_le whole (List.prefix_append above _)
        rw [List.length_append]
        exact order
      exact reaches.subset (by simp)
    exact ⟨⟨above, line, below, ⟨first, member, begun⟩, missed, hit⟩, rfl⟩
  · rintro ⟨pair, rfl⟩
    exact pair.hasMarkers

theorem betweenMarkers?_eq_none (lines : List (List Char)) (entry newline : List Char)
    (unusable : ¬ HasMarkers lines) : betweenMarkers? lines entry newline = none := by
  unfold betweenMarkers?
  cases begins : findFrom? (Text.contains · beginMarker) lines 0 with
  | none => rfl
  | some opening =>
    cases ends : findFrom? (Text.contains · endMarker) lines 0 with
    | none => rfl
    | some closing =>
      have order : closing ≤ opening := by
        apply Nat.le_of_not_lt
        intro above
        exact unusable ⟨opening, closing, begins, ends, above⟩
      simp [order]

/-! Lines without markers. -/

def isMarked (line : List Char) : Bool :=
  Text.contains line beginMarker || Text.contains line endMarker

theorem hasMarkers_filter (lines : List (List Char)) :
    HasMarkers (lines.filter isMarked) ↔ HasMarkers lines := by
  rw [hasMarkers_iff_exists_pair, hasMarkers_iff_exists_pair]
  constructor
  · rintro ⟨pair, same⟩
    obtain ⟨front, rest, rfl, above, behind⟩ := List.filter_eq_append_iff.1 same.symm
    obtain ⟨gap, back, rfl, plain, -, -⟩ := List.filter_eq_cons_iff.1 behind
    refine ⟨⟨front ++ gap, pair.closing, back, ?_, ?_, pair.ends⟩, by simp [MarkerPair.lines]⟩
    · obtain ⟨line, member, begun⟩ := pair.begins
      rw [← above] at member
      exact ⟨line, List.mem_append_left gap (List.mem_filter.1 member).1, begun⟩
    · intro line member
      rcases List.mem_append.1 member with early | late
      · by_cases marked : isMarked line = true
        · exact pair.first line (above ▸ List.mem_filter.2 ⟨early, marked⟩)
        · simp only [isMarked, Bool.or_eq_true, not_or, Bool.not_eq_true] at marked
          exact marked.2
      · have unmarked := plain line late
        simp only [isMarked, Bool.or_eq_true, not_or, Bool.not_eq_true] at unmarked
        exact unmarked.2
  · rintro ⟨pair, rfl⟩
    have kept : isMarked pair.closing = true := by simp [isMarked, pair.ends]
    refine ⟨⟨pair.above.filter isMarked, pair.closing, pair.below.filter isMarked, ?_, ?_,
      pair.ends⟩, ?_⟩
    · obtain ⟨line, member, begun⟩ := pair.begins
      exact ⟨line, List.mem_filter.2 ⟨member, by simp [isMarked, begun]⟩, begun⟩
    · intro line member
      exact pair.first line (List.mem_filter.1 member).1
    · rw [MarkerPair.lines, MarkerPair.lines, List.filter_append, List.filter_cons_of_pos kept]

theorem hasMarkers_replace (front old new back : List (List Char))
    (plainOld : ∀ line ∈ old, isMarked line = false)
    (plainNew : ∀ line ∈ new, isMarked line = false) :
    HasMarkers (front ++ new ++ back) ↔ HasMarkers (front ++ old ++ back) := by
  have drops (lines : List (List Char)) (plain : ∀ line ∈ lines, isMarked line = false) :
      lines.filter isMarked = [] := by
    rw [List.filter_eq_nil_iff]
    intro line member marked
    rw [plain line member] at marked
    cases marked
  rw [← hasMarkers_filter, ← hasMarkers_filter (front ++ old ++ back)]
  simp only [List.filter_append, drops old plainOld, drops new plainNew]

end JuceWorkbench.Script
