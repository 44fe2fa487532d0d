import JuceWorkbench.Proofs.Bench.Changes
import JuceWorkbench.Proofs.Path.LastPart
import JuceWorkbench.Script.File

/-! What writing a build script keeps. The text goes to a draft, which then takes the place of the
script or is removed; nothing else in the tree changes but the log. -/

namespace JuceWorkbench.Script
open Work

/-- A property of benches that survives the replacement of the script at a path: what is logged, the
writing of its draft, and what becomes of a draft that was written. -/
structure Survives (kept : Bench → Prop) (path : String) : Prop where
  logs : ∀ message, Keeps kept (Work.log message)
  writes : ∀ {bench : Bench} {location : FileTree.Location}, kept bench →
    Opens bench.tree bench.surroundings (draftPath path) location →
      ∀ contents, kept (bench.write location contents)
  removes : ∀ {bench : Bench} {draft : Place} {node : Node}, kept bench →
    bench.Finds (draftPath path) (.taken draft node) → node ≠ .folder → kept (bench.onTree (·.erase draft))
  moves : ∀ {bench : Bench} {draft : Place} {node : Node} {location : FileTree.Location}, kept bench →
    bench.Finds (draftPath path) (.taken draft node) → node ≠ .folder →
    bench.Finds path location → location.node? ≠ some .folder →
      kept (bench.onTree fun tree => (tree.erase draft).put location.place node)

theorem getLast?_draftPath (path : String) : (draftPath path).toList.getLast? = some 'p' := by
  unfold draftPath
  rw [String.toList_append, List.getLast?_append]
  rfl

theorem not_folder_of_written {path : String} {bench : Bench} {location : FileTree.Location}
    {octets : List UInt8}
    (opens : Opens bench.tree bench.surroundings (draftPath path) location) {old : Place} {node : Node}
    (finds : (bench.write location octets).Finds (draftPath path) (.taken old node)) :
    node ≠ .folder := by
  rintro rfl
  rcases FileTree.locate_unfollowed (opens.put octets location.written.2).leads with
    same | ⟨place, target, linked⟩
  · cases same.symm.trans finds
  · cases linked.symm.trans finds

theorem draft_of_finds {path : String} {bench : Bench} {old : Place} {node : Node}
    (finds : bench.Finds (draftPath path) (.taken old node)) (other : node ≠ .folder) :
    FileTree.EndsIn old 'p' ∧ bench.tree.get? old = some node :=
  ⟨FileTree.endsIn_of_locate finds (getLast?_draftPath path) (by decide) (by decide),
    FileTree.get?_place_of_locate finds fun folder => other (Option.some.inj folder)⟩

section Survives

variable {kept : Bench → Prop} {path : String} (survives : Survives kept path)
include survives

theorem Survives.keeps_discardDraft : Keeps kept (discardDraft path) := by
  refine Keeps.bind (keeps_fileExists _) fun found => ?_
  split
  · exact Yields.bind (Keeps.removeFile _ fun _ _ _ => survives.removes).attempt fun _ _ => Keeps.pure ()
  · exact Keeps.pure ()

theorem Survives.keeps_replace (text : List Char) : Keeps kept (do
    Work.writeText (draftPath path) text
    Work.moveFile (draftPath path) path) := by
  intro bench holds
  refine ⟨?_, fun _ _ => trivial⟩
  by_cases opens : ∃ location, Opens bench.tree bench.surroundings (draftPath path) location
  · obtain ⟨location, opens⟩ := opens
    have writes : outcome (Work.writeText (draftPath path) text) bench = _ := outcome_writeOctets opens _
    have written := survives.writes holds opens (Text.Utf8.encode text)
    rw [outcome_bind_ok writes]
    rcases moveFile_cases (draftPath path) path (bench.write location (Text.Utf8.encode text)) with
      ⟨old, node, spot, finds, target, free, moves⟩ | ⟨-, reason, stops⟩
    · rw [moves]
      exact survives.moves written finds (not_folder_of_written opens finds) target free
    · rw [stops]
      exact written
  · obtain ⟨fault, refused⟩ :=
      outcome_writeOctets_of_not_opens (not_exists.1 opens) (Text.Utf8.encode text)
    have stops : outcome (Work.writeText (draftPath path) text) bench = _ := refused
    rw [outcome_bind_error stops]
    exact holds

theorem Survives.keeps_write (text : List Char) : Keeps kept (Script.write path text) := by
  refine Yields.bind (survives.keeps_replace text).attempt fun result _ => ?_
  split
  · exact Keeps.pure ()
  · split
    · exact Keeps.bind survives.keeps_discardDraft fun _ => Yields.fail _
    · exact Yields.fail _

theorem Survives.keeps_register (entry : Datum) : Keeps kept (register path entry) := by
  refine Keeps.bind (keeps_readExact path) fun text => ?_
  refine Keeps.bind (Yields.ofExcept fun _ _ => trivial) fun injection => ?_
  dsimp only
  split
  · refine Keeps.bind (survives.keeps_write _) fun _ => ?_
    split
    · exact Keeps.bind (survives.logs _) fun _ => Keeps.bind (survives.logs _) fun _ => Keeps.pure _
    · exact Keeps.bind (survives.logs _) fun _ => Keeps.pure _
  · exact Keeps.bind (survives.logs _) fun _ => Keeps.pure _

end Survives

end JuceWorkbench.Script
