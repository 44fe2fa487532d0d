import JuceWorkbench.Proofs.Path.Normal
import JuceWorkbench.Proofs.Script.MarkerPair
import JuceWorkbench.Scaffold.Project

/-! The names of the files of an element. A name that a person would give to an element makes file
names that are parts of paths and entries of build scripts. -/

namespace JuceWorkbench.Scaffold

/-- A name of an element that can be written between slashes and on a line of a build script. -/
structure IsElementName (name : String) : Prop where
  filled : name ≠ ""
  apart : '/' ∉ name.toList
  clean : '\x00' ∉ name.toList
  single : ∀ c ∈ name.toList, Text.isLineBreak c = false
  start : ∀ c, name.toList.head? = some c → Text.isBlank c = false
  unmarked : Text.contains name.toList Script.endMarker = false

structure IsTail (tail : List Char) : Prop where
  long : 2 ≤ tail.length
  apart : '/' ∉ tail
  clean : '\x00' ∉ tail
  single : tail.any Text.isLineBreak = false
  ends : tail.getLast?.any Text.isBlank = false
  unmarked : 'D' ∉ tail

def headerName (element : Element) (name : String) : String := element.className name ++ ".h"

def sourceName (element : Element) (name : String) : String := element.className name ++ ".cpp"

theorem exists_tail_header (element : Element) (name : String) :
    ∃ tail, (headerName element name).toList = name.toList ++ tail ∧ IsTail tail := by
  unfold headerName
  cases element with
  | plainClass =>
    exact ⟨".h".toList, String.toList_append, by decide, by decide, by decide, by decide, by decide, by decide⟩
  | component =>
    refine ⟨"Component.h".toList, ?_, by decide, by decide, by decide, by decide, by decide, by decide⟩
    rw [Element.className, String.toList_append, String.toList_append, List.append_assoc]
    rfl

theorem exists_tail_source (element : Element) (name : String) :
    ∃ tail, (sourceName element name).toList = name.toList ++ tail ∧ IsTail tail := by
  unfold sourceName
  cases element with
  | plainClass =>
    exact ⟨".cpp".toList, String.toList_append, by decide, by decide, by decide, by decide, by decide, by decide⟩
  | component =>
    refine ⟨"Component.cpp".toList, ?_, by decide, by decide, by decide, by decide, by decide, by decide⟩
    rw [Element.className, String.toList_append, String.toList_append, List.append_assoc]
    rfl

section FileName

variable {name file : String} {tail : List Char} (named : IsElementName name) (tailed : IsTail tail)
  (split : file.toList = name.toList ++ tail)
include named tailed split

theorem isPlain_fileName : Path.IsPlain file.toList := by
  have filled : 0 < name.toList.length := by
    refine List.length_pos_iff.2 fun empty => named.filled ?_
    exact String.toList_eq_nil_iff.1 empty
  have long := tailed.long
  have size : 3 ≤ file.toList.length := by
    rw [split, List.length_append]
    omega
  refine ⟨?_, ?_, ?_⟩
  · rintro (empty | dot)
    · rw [empty] at size
      exact absurd size (by decide)
    · rw [dot] at size
      exact absurd size (by decide)
  · intro dots
    rw [dots] at size
    exact absurd size (by decide)
  · rw [split, List.mem_append, not_or]
    exact ⟨named.apart, tailed.apart⟩

theorem clean_fileName : '\x00' ∉ file.toList := by
  rw [split, List.mem_append, not_or]
  exact ⟨named.clean, tailed.clean⟩

theorem isTrimmed_fileName : Text.IsTrimmed file.toList := by
  constructor
  · cases front : name.toList with
    | nil => exact absurd (String.toList_eq_nil_iff.1 front) named.filled
    | cons c rest =>
      refine ⟨c, rest ++ tail, ?_, named.start c (by rw [front]; rfl)⟩
      rw [split, front, List.cons_append]
  · have filled : tail ≠ [] := by
      rintro rfl
      exact absurd tailed.long (by decide)
    obtain ⟨front, c, whole⟩ := (List.eq_nil_or_concat tail).resolve_left filled
    rw [List.concat_eq_append] at whole
    have dark := tailed.ends
    rw [whole, List.getLast?_concat] at dark
    exact ⟨name.toList ++ front, c, by rw [split, whole, List.append_assoc], dark⟩

theorem trim_fileName : Text.trim file.toList = file.toList := (isTrimmed_fileName named tailed split).trim

theorem isBare_fileName : Script.IsBare file.toList := by
  refine ⟨isTrimmed_fileName named tailed split, ?_⟩
  intro c member
  rw [split] at member
  rcases List.mem_append.1 member with early | late
  · exact named.single c early
  · exact Text.forall_eq_false_of_any tailed.single c late

theorem isEntry_fileName : Script.IsEntry file.toList := (isBare_fileName named tailed split).isEntry

/-- The end marker ends in a letter that no tail has. -/
theorem unmarked_fileName : Text.contains file.toList Script.endMarker = false := by
  rw [Bool.eq_false_iff]
  intro found
  obtain ⟨front, back, whole⟩ := (Text.contains_iff _ _).1 found
  rw [split] at whole
  rcases List.append_eq_append_iff.1 whole with ⟨rest, longer, -⟩ | ⟨rest, longer, inside⟩
  · exact Bool.eq_false_iff.1 named.unmarked ((Text.contains_iff _ _).2 ⟨front, rest, longer.symm⟩)
  · rcases List.eq_nil_or_concat rest with rfl | ⟨init, c, rfl⟩
    · refine Bool.eq_false_iff.1 named.unmarked ((Text.contains_iff _ _).2 ⟨front, [], ?_⟩)
      rw [List.append_nil, longer, List.append_nil]
    · have last : (front ++ Script.endMarker).getLast? = some 'D' := by
        rw [List.getLast?_append]
        rfl
      rw [longer, List.concat_eq_append, ← List.append_assoc, List.getLast?_concat] at last
      obtain rfl := Option.some.inj last
      refine tailed.unmarked ?_
      rw [inside]
      simp

end FileName

end JuceWorkbench.Scaffold
