import Mathlib.Data.List.Count
import Mathlib.Data.List.Nodup
import JuceWorkbench.Repository
import JuceWorkbench.Proofs.Bench.Files
import JuceWorkbench.Proofs.Text.Line
import JuceWorkbench.Proofs.Text.Utf8

/-! The ignore file of a project. Completing it adds octets behind those that are there. Read again, it
has the lines it had and, behind them, one for each entry that was missing; there is nothing left to
add then. -/

namespace JuceWorkbench.Repository
open Text

/-- What becomes of the lines of an ignore file: the missing entries follow them. -/
structure Completes (before after : List (List Char)) : Prop where
  grown : ∃ added, after = before ++ added ∧
    (∀ line ∈ added, line = [] ∨ line ∈ ignored.map String.toList) ∧
    ∀ entry ∈ ignored, added.count entry.toList = if entry.toList ∈ before.map trim then 0 else 1
  listed : ∀ entry ∈ ignored, entry.toList ∈ after.map trim

/-! The entries, as texts. -/

theorem trim_entry : ∀ entry ∈ ignored, trim entry.toList = entry.toList := by decide

theorem clean_entry : ∀ entry ∈ ignored, ∀ c ∈ entry.toList, isLineBreak c = false := by
  have clean : (ignored.all fun entry => entry.toList.all fun c => !isLineBreak c) = true := by decide
  intro entry among c member
  simpa using List.all_eq_true.1 (List.all_eq_true.1 clean entry among) c member

theorem entry_ne_nil : ∀ entry ∈ ignored, entry.toList ≠ [] := by decide

theorem nodup_ignored : ignored.Nodup := by decide

theorem mem_missingEntries {text : List Char} {entry : String} : entry ∈ missingEntries text ↔
    entry ∈ ignored ∧ entry.toList ∉ (lineBodies text).map trim := by
  unfold missingEntries
  rw [List.mem_filter, Bool.not_eq_true', ← Bool.not_eq_true, List.contains_iff_mem]

theorem nodup_missingEntries (text : List Char) : (missingEntries text).Nodup := by
  unfold missingEntries
  exact nodup_ignored.filter _

theorem lineBodies_entries {entries : List String} (known : entries ⊆ ignored) :
    lineBodies (entries.flatMap fun entry => entry.toList ++ ['\n']) = entries.map String.toList := by
  have apart : ∀ line ∈ entries.map String.toList, (∀ c ∈ line, isLineBreak c = false) ∧ line ≠ [] := by
    intro line member
    obtain ⟨entry, among, rfl⟩ := List.mem_map.1 member
    exact ⟨clean_entry entry (known among), entry_ne_nil entry (known among)⟩
  have split := lines_ended_all (show ['\n'] ∈ endings by decide) (entries.map String.toList)
    (fun line member => (apart line member).1) fun line member => (apart line member).2
  rw [List.map_map] at split
  unfold lineBodies
  rw [List.flatMap_def]
  refine (congrArg (List.map lineBody) split).trans ?_
  rw [List.map_map]
  exact List.map_congr_left fun entry among => lineBody_append_feed (clean_entry entry (known among))

theorem not_mem_ignoreAddition (text : List Char) : '\r' ∉ ignoreAddition text := by
  unfold ignoreAddition
  dsimp only
  rw [List.mem_append, List.mem_flatMap, not_or]
  constructor
  · split <;> decide
  · rintro ⟨entry, among, inside⟩
    have known := (mem_missingEntries.1 among).1
    rcases List.mem_append.1 inside with early | late
    · cases clean_entry entry known '\r' early
    · cases List.mem_singleton.1 late

theorem ignoreAddition_of_listed {text : List Char}
    (listed : ∀ entry ∈ ignored, entry.toList ∈ (lineBodies text).map trim) :
    ignoreAddition text = [] := by
  have none : missingEntries text = [] := by
    rw [List.eq_nil_iff_forall_not_mem]
    intro entry among
    obtain ⟨known, missing⟩ := mem_missingEntries.1 among
    exact missing (listed entry known)
  unfold ignoreAddition
  rw [none]
  rfl

/-- The first line added may be an empty one: a text whose last line break is no line feed gets
another. -/
theorem lineBodies_ignoreAddition {text : List Char} (unified : '\r' ∉ text) :
    ∃ gap, (gap = [] ∨ gap = [[]]) ∧ lineBodies (text ++ ignoreAddition text) =
      lineBodies text ++ (gap ++ (missingEntries text).map String.toList) := by
  have known : missingEntries text ⊆ ignored := fun entry among => (mem_missingEntries.1 among).1
  have entries := lineBodies_entries known
  unfold ignoreAddition
  dsimp only
  generalize missingEntries text = missing at entries ⊢
  by_cases bare : missing = [] ∨ text = []
  · refine ⟨[], Or.inl rfl, ?_⟩
    rw [if_neg fun ⟨more, filled, _⟩ => bare.elim more filled, List.nil_append, List.nil_append]
    rcases bare with rfl | rfl
    · rw [List.flatMap_nil, List.map_nil, List.append_nil, List.append_nil]
    · exact entries
  obtain ⟨more, filled⟩ := not_or.1 bare
  have last : text.getLast? = some (text.getLast filled) := List.getLast?_eq_some_getLast filled
  generalize text.getLast filled = c at last
  have single : text.getLast? ≠ some '\r' := fun returns => unified (List.mem_of_getLast? returns)
  by_cases feeds : c = '\n'
  · subst feeds
    refine ⟨[], Or.inl rfl, ?_⟩
    have complete : Complete text := by
      intro d final
      rw [last] at final
      exact Option.some.inj final ▸ rfl
    rw [if_neg (by simp [last]), List.nil_append, List.nil_append, lineBodies_append _ _ complete, entries]
    exact fun returns => absurd returns single
  · rw [if_pos ⟨more, filled, by rw [last]; exact fun same => feeds (Option.some.inj same)⟩,
      ← List.append_assoc,
      lineBodies_append _ _ (complete_append_singleton text '\n' rfl) (by simp), entries]
    by_cases breaks : isLineBreak c = true
    · refine ⟨[[]], Or.inr rfl, ?_⟩
      have complete : Complete text := by
        intro d final
        rw [last] at final
        exact Option.some.inj final ▸ breaks
      rw [lineBodies_append _ _ complete fun returns => absurd returns single, List.append_assoc]
      rfl
    · refine ⟨[], Or.inl rfl, ?_⟩
      rw [lineBodies_append_feed last (Bool.eq_false_iff.2 breaks), List.nil_append]

theorem completes_ignoreAddition {text : List Char} (unified : '\r' ∉ text) :
    Completes (lineBodies text) (lineBodies (text ++ ignoreAddition text)) := by
  obtain ⟨gap, empty, grown⟩ := lineBodies_ignoreAddition unified
  have once {entry : String} (known : entry ∈ ignored) :
      (missingEntries text).count entry =
        if entry.toList ∈ (lineBodies text).map trim then 0 else 1 := by
    split
    · rename_i present
      exact List.count_eq_zero.2 fun among => (mem_missingEntries.1 among).2 present
    · rename_i missing
      exact List.count_eq_one_of_mem (nodup_missingEntries text) (mem_missingEntries.2 ⟨known, missing⟩)
  refine ⟨⟨_, grown, ?_, ?_⟩, ?_⟩
  · intro line member
    rcases List.mem_append.1 member with front | back
    · rcases empty with rfl | rfl
      · cases front
      · exact Or.inl (List.mem_singleton.1 front)
    · obtain ⟨entry, among, rfl⟩ := List.mem_map.1 back
      exact Or.inr (List.mem_map_of_mem (mem_missingEntries.1 among).1)
  · intro entry known
    have apart : gap.count entry.toList = 0 := by
      refine List.count_eq_zero.2 fun front => ?_
      rcases empty with rfl | rfl
      · cases front
      · exact entry_ne_nil entry known (List.mem_singleton.1 front)
    rw [List.count_append, apart, Nat.zero_add,
      List.count_map_of_injective _ _ fun _ _ => String.toList_injective, once known]
  · intro entry known
    rw [grown, List.map_append, List.mem_append]
    by_cases present : entry.toList ∈ (lineBodies text).map trim
    · exact Or.inl present
    · refine Or.inr (List.mem_map.2 ⟨entry.toList, ?_, trim_entry entry known⟩)
      exact List.mem_append_right _ (List.mem_map_of_mem (mem_missingEntries.2 ⟨known, present⟩))

theorem unifyBreaks_append_ignoreAddition (text : List Char) :
    unifyBreaks (text ++ ignoreAddition (unifyBreaks text)) =
      unifyBreaks text ++ ignoreAddition (unifyBreaks text) := by
  rw [unifyBreaks_append, unifyBreaks_of_not_mem (not_mem_ignoreAddition _)]
  intro returns
  have feeds : (unifyBreaks text).getLast? = some '\n' := by
    rw [getLast?_unifyBreaks, returns]
    rfl
  unfold ignoreAddition
  dsimp only
  rw [if_neg (by simp [feeds]), List.nil_append]
  cases missing : missingEntries (unifyBreaks text) with
  | nil => simp
  | cons entry more =>
    have known := (mem_missingEntries.1 (missing ▸ List.mem_cons_self)).1
    rw [List.flatMap_cons, List.append_assoc, List.head?_append]
    cases start : entry.toList with
    | nil => exact absurd start (entry_ne_nil entry known)
    | cons c rest =>
      intro feed
      have plain := clean_entry entry known c (by rw [start]; exact List.mem_cons_self)
      rw [show c = '\n' by simpa using feed] at plain
      cases plain

section Completion

variable {bench : Bench} {root : String} {location : FileTree.Location} {text : List Char}
  (opens : Opens bench.tree bench.surroundings (Path.join root ".gitignore") location)
  (reads : bench.surroundings.canRead (Path.join root ".gitignore") = true)
  (decodes : Utf8.decode location.written.1 = .ok text)
include opens reads decodes

theorem outcome_writeIgnoreFile : Work.outcome (writeIgnoreFile root) bench =
    (.ok (Path.join root ".gitignore"),
      bench.write location (location.written.1 ++ Utf8.encode (ignoreAddition (unifyBreaks text)))) := by
  unfold writeIgnoreFile
  dsimp only
  rw [Work.outcome_bind_ok (Work.outcome_fileExists opens.toLeads)]
  match location, opens, decodes with
  | .taken place (.file contents mode), opens, decodes =>
    refine (Work.outcome_bind_ok
      (Work.outcome_readText (Work.outcome_readOctets opens.toLeads reads) decodes) _).trans ?_
    exact Work.outcome_bind_ok (Work.outcome_appendOctets opens _) _
  | .free place, opens, decodes =>
    obtain rfl : [] = text := Except.ok.inj decodes
    exact Work.outcome_bind_ok (Work.outcome_appendOctets opens _) _

/-- Whatever text the ignore file is, or if there is none, it is completed: its octets are followed by
others, its lines by those of the missing entries. Completing it again changes nothing. -/
theorem completes_writeIgnoreFile : ∃ after more new,
    Work.outcome (writeIgnoreFile root) bench = (.ok (Path.join root ".gitignore"), after) ∧
      after = bench.write location (location.written.1 ++ more) ∧
      Work.outcome (Work.readText (Path.join root ".gitignore")) after = (.ok new, after) ∧
      Completes (lineBodies (unifyBreaks text)) (lineBodies new) ∧
      Work.outcome (writeIgnoreFile root) after = (.ok (Path.join root ".gitignore"), after) := by
  have completes := completes_ignoreAddition (not_mem_unifyBreaks text)
  have decoded := Utf8.decode_append_encode decodes (ignoreAddition (unifyBreaks text))
  have unified := unifyBreaks_append_ignoreAddition text
  have written : Opens
      (bench.write location (location.written.1 ++ Utf8.encode (ignoreAddition (unifyBreaks text)))).tree
      (bench.write location (location.written.1 ++ Utf8.encode (ignoreAddition (unifyBreaks text)))).surroundings
      (Path.join root ".gitignore") _ := opens.put ..
  have again := outcome_writeIgnoreFile written reads decoded
  rw [unified, ignoreAddition_of_listed completes.listed, Bench.write_write] at again
  refine ⟨_, _, _, outcome_writeIgnoreFile opens reads decodes, rfl,
    Work.outcome_readText (Work.outcome_readOctets written.toLeads reads) decoded, unified ▸ completes, ?_⟩
  simpa [FileTree.Location.written, Utf8.encode] using again

end Completion

/-- An ignore file that lists one entry with a blank behind it and ends in a form feed. -/
def unevenText : List Char := "build/ \r\n*.o\x0c".toList

def unevenBench : Bench where
  tree := ⟨[([], .folder), (["W"], .folder), (["W", ".gitignore"], .file (Utf8.encode unevenText) 0o644)],
    by decide⟩
  surroundings := {}

theorem completes_uneven : ∃ (location : FileTree.Location) (after : Bench) (more : List UInt8)
    (new : List Char),
    (Opens unevenBench.tree unevenBench.surroundings (Path.join "/W" ".gitignore") location ∧
      unevenBench.surroundings.canRead (Path.join "/W" ".gitignore") = true ∧
      Utf8.decode location.written.1 = .ok unevenText) ∧
    Work.outcome (writeIgnoreFile "/W") unevenBench = (.ok (Path.join "/W" ".gitignore"), after) ∧
      after = unevenBench.write location (location.written.1 ++ more) ∧
      Work.outcome (Work.readText (Path.join "/W" ".gitignore")) after = (.ok new, after) ∧
      Completes (lineBodies (unifyBreaks unevenText)) (lineBodies new) ∧
      Work.outcome (writeIgnoreFile "/W") after = (.ok (Path.join "/W" ".gitignore"), after) := by
  have opens : Opens unevenBench.tree unevenBench.surroundings (Path.join "/W" ".gitignore")
      (.taken ["W", ".gitignore"] (.file (Utf8.encode unevenText) 0o644)) :=
    ⟨⟨by decide, by decide +kernel⟩, by decide, rfl⟩
  have reads : unevenBench.surroundings.canRead (Path.join "/W" ".gitignore") = true := by decide
  have decodes := Utf8.decode_encode unevenText
  obtain ⟨after, more, new, does⟩ := completes_writeIgnoreFile opens reads decodes
  exact ⟨_, after, more, new, ⟨opens, reads, decodes⟩, does⟩

end JuceWorkbench.Repository
