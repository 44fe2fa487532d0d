import JuceWorkbench.Proofs.Path.Normal
import JuceWorkbench.Proofs.Tree.Location

/-! The name a path ends in, told by its last character. -/

namespace JuceWorkbench

theorem Text.exists_last_piece {separator : Char} {ending text : List Char} (ends : ending <:+ text)
    (filled : ending ≠ []) (whole : separator ∉ ending) :
    ∃ piece, (splitOn separator text).getLast? = some piece ∧ ending <:+ piece := by
  induction text with
  | nil => exact absurd (List.suffix_nil.1 ends) filled
  | cons c rest ih =>
    rcases List.suffix_cons_iff.1 ends with rfl | later
    · refine ⟨c :: rest, ?_, List.suffix_refl _⟩
      rw [splitOn_of_not_mem whole]
      rfl
    · obtain ⟨piece, final, found⟩ := ih later
      unfold splitOn
      split
      · exact ⟨piece, FileTree.getLast?_cons_of_getLast? final, found⟩
      · split
        · rename_i pieces
          exact absurd pieces (splitOn_ne_nil separator rest)
        · rename_i first more pieces
          rw [pieces] at final
          by_cases single : more = []
          · subst single
            obtain rfl : first = piece := by simpa using final
            exact ⟨c :: first, rfl, found.trans (List.suffix_cons c first)⟩
          · rw [List.getLast?_cons_of_ne_nil single] at final
            exact ⟨piece, FileTree.getLast?_cons_of_getLast? final, found⟩

namespace FileTree

def EndsIn (place : Place) (last : Char) : Prop :=
  ∃ name, place.getLast? = some name ∧ name.toList.getLast? = some last

theorem EndsIn.unique {place : Place} {a b : Char} (first : EndsIn place a) (second : EndsIn place b) :
    a = b := by
  obtain ⟨name, ends, last⟩ := first
  obtain ⟨other, again, final⟩ := second
  obtain rfl : name = other := Option.some.inj (ends.symm.trans again)
  exact Option.some.inj (last.symm.trans final)

theorem exists_last_part {path ending : String} (ends : ending.toList <:+ path.toList)
    (filled : ending.toList ≠ []) (whole : '/' ∉ ending.toList) :
    ∃ name, (pathParts path).getLast? = some name ∧ ending.toList <:+ name.toList := by
  obtain ⟨piece, found, same⟩ := Text.exists_last_piece ends filled whole
  refine ⟨String.ofList piece, ?_, by rwa [String.toList_ofList]⟩
  unfold pathParts Path.parts
  rw [List.getLast?_map, found]
  rfl

/-- If the last link is not followed, the place at the end of a path has the last name of the path. -/
theorem endsIn_of_locate {tree : FileTree} {here : Place} {path : String} {location : Location}
    {last : Char} (leads : tree.locate false here path = .ok location)
    (ends : path.toList.getLast? = some last) (other : last ≠ '/') (named : last ≠ '.') :
    EndsIn location.place last := by
  have single : (String.singleton last).toList <:+ path.toList := by
    obtain ⟨front, text⟩ := List.getLast?_eq_some_iff.1 ends
    exact ⟨front, by rw [text, String.toList_singleton]⟩
  obtain ⟨name, final, later⟩ := exists_last_part single (by simp) (by simpa using Ne.symm other)
  have same : name.toList.getLast? = some last := by
    obtain ⟨before, text⟩ := later
    rw [← text, String.toList_singleton, List.getLast?_append]
    rfl
  obtain ⟨start, -, way⟩ := way_of_locate leads
  refine ⟨name, way.last_name final ⟨?_, ?_⟩, same⟩
  · rintro (rfl | rfl)
    · cases same
    · exact named (by simpa using same.symm)
  · rintro rfl
    exact named (by simpa using same.symm)

end FileTree

theorem Path.suffix_join (folder path : String) : path.toList <:+ (join folder path).toList := by
  cases absolute : isAbsolute path with
  | true => exact (join_of_absolute absolute).symm ▸ List.suffix_refl _
  | false =>
    rw [toList_join absolute]
    split
    · exact List.suffix_append _ _
    · exact (List.suffix_cons _ _).trans (List.suffix_append _ _)

theorem Path.getLast?_join (folder : String) {path : String} {last : Char}
    (ends : path.toList.getLast? = some last) : (join folder path).toList.getLast? = some last := by
  obtain ⟨front, whole⟩ := suffix_join folder path
  rw [← whole, List.getLast?_append, ends]
  rfl

end JuceWorkbench
