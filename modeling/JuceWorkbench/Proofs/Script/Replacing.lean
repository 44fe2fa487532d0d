import JuceWorkbench.Proofs.Script.File
import JuceWorkbench.Proofs.Script.Registration
import JuceWorkbench.Proofs.Text.Split
import JuceWorkbench.Proofs.Text.Utf8
import JuceWorkbench.Proofs.Tree.Avoiding

/-! The replacement of a script as a whole. Its text stands at the place of the script afterwards and
nothing else changed, or nothing changed at all. The place may hold a link; it is replaced itself, so
a path that leads through it to the script leads nowhere afterwards. -/

namespace JuceWorkbench

def Bench.Lacks (bench : Bench) (path : String) : Prop :=
  ∀ place node, ¬bench.Finds path (.taken place node)

/-- A path leads to a place whatever stands there. -/
def Bench.Spares (bench : Bench) (path : String) (place : Place) : Prop :=
  (bench.tree.erase place).locate false bench.surroundings.place path = .ok (.free place)

def Bench.LogsApart (bench : Bench) (path : String) : Prop :=
  ∀ location log, Leads bench.tree bench.surroundings path location →
    Leads bench.tree bench.surroundings bench.surroundings.logFile log → log.place ≠ location.place

namespace Script
open Work

variable {move : String → String → Work Unit} {path : String} {bench : Bench} {location : FileTree.Location}

/-- A way to move files, which may be refused for reasons that no tree shows. -/
def Moves (move : String → String → Work Unit) : Prop :=
  ∀ source target bench, outcome (move source target) bench = outcome (moveFile source target) bench ∨
    ∃ reason, outcome (move source target) bench =
      (.error (.fault (.file { reason, path := source, target := some target })), bench)

theorem moves_moveFile : Moves moveFile := fun _ _ _ => Or.inl rfl

theorem isFile_kind (reason : FileReason) : reason.kind.isFile = true := by cases reason <;> rfl

theorem exists_draft_part (path : String) : ∃ front last, FileTree.pathParts path = front ++ [last] ∧
    FileTree.pathParts (draftPath path) = front ++ [last ++ ".tmp"] := by
  have plain : '/' ∉ ".tmp".toList := by decide
  obtain ⟨front, last, pieces, longer⟩ := Text.splitOn_append_of_not_mem path.toList plain
  refine ⟨front.map String.ofList, String.ofList last, ?_, ?_⟩
  · unfold FileTree.pathParts Path.parts
    rw [pieces, List.map_append]
    rfl
  · have extended : String.ofList last ++ ".tmp" = String.ofList (last ++ ".tmp".toList) := by
      rw [String.ofList_append, String.ofList_toList]
    unfold FileTree.pathParts Path.parts draftPath
    rw [String.toList_append, longer, List.map_append, extended]
    rfl

theorem name_of_finds (finds : bench.Finds path location) (other : location.node? ≠ some .folder)
    {name : String} (last : (FileTree.pathParts path).getLast? = some name) :
    location.place.getLast? = some name := by
  obtain ⟨start, -, way⟩ := FileTree.way_of_locate finds
  have named : location.node? = some .folder ∨ ∃ found, location.place.getLast? = some found ∧ found = name :=
    way.name (fun follow => absurd follow Bool.false_ne_true) fun found ends =>
      Option.some.inj (ends.symm.trans last)
  obtain ⟨found, ends, rfl⟩ := named.resolve_left other
  exact ends

theorem place_ne_draft {before : Bench} {drafted : FileTree.Location} (finds : bench.Finds path location)
    (other : location.node? ≠ some .folder) (draft : before.Finds (draftPath path) drafted)
    (single : drafted.node? ≠ some .folder) : location.place ≠ drafted.place := by
  obtain ⟨front, last, parts, more⟩ := exists_draft_part path
  have name := name_of_finds finds other (by rw [parts, List.getLast?_concat])
  have longer := name_of_finds draft single (by rw [more, List.getLast?_concat])
  intro same
  rw [same, longer] at name
  have equal : last.length + 4 = last.length := by
    simpa using congrArg String.length (Option.some.inj name)
  omega

end Script

namespace Bench.Lacks
open Work

variable {path : String} {bench : Bench} (lacks : bench.Lacks path)
include lacks

theorem exists_free {location : FileTree.Location}
    (leads : bench.tree.locate true bench.surroundings.place path = .ok location) :
    ∃ place, location = .free place ∧ bench.Finds path (.free place) := by
  rcases FileTree.locate_unfollowed leads with same | ⟨place, target, linked⟩
  · cases location with
    | free place => exact ⟨place, rfl, same⟩
    | taken place node => exact absurd same (lacks place node)
  · exact absurd linked (lacks place _)

theorem not_exists : bench.tree.exists? bench.surroundings.place path = false := by
  unfold FileTree.exists? FileTree.node?
  cases leads : bench.tree.locate true bench.surroundings.place path with
  | error reason => rfl
  | ok location =>
    obtain ⟨place, rfl, -⟩ := lacks.exists_free leads
    rfl

end Bench.Lacks

namespace Script
open Work

variable {move : String → String → Work Unit} {path : String} {bench : Bench} {location : FileTree.Location}

theorem clean_of_draft (clean : (draftPath path).toList.contains '\x00' = false) :
    path.toList.contains '\x00' = false := by
  unfold draftPath at clean
  rw [String.toList_append, List.contains_append, Bool.or_eq_false_iff] at clean
  exact clean.1

def replaced (bench : Bench) (location : FileTree.Location) (text : List Char) : Bench :=
  bench.onTree (·.put location.place (.file (Text.Utf8.encode text) newFileMode))

theorem discardDraft_of_lacks (lacks : bench.Lacks (draftPath path)) :
    outcome (discardDraft path) bench = (.ok (), bench) := by
  have looks : outcome (fileExists (draftPath path)) bench = (.ok false, bench) :=
    congrArg (fun found => (Except.ok found, bench)) lacks.not_exists
  unfold discardDraft
  rw [outcome_bind_ok looks]
  rfl

section Draft

variable {place : Place} (free : bench.Finds (draftPath path) (.free place)) (text : List Char)
include free

theorem finds_replaced {follow : Bool} {other : String}
    (leads : bench.tree.locate follow bench.surroundings.place other = .ok (.free place)) :
    (replaced bench (.free place) text).tree.locate follow bench.surroundings.place other =
      .ok (.taken place (.file (Text.Utf8.encode text) newFileMode)) := by
  have takes : bench.tree.TakesFile place := FileTree.takesFile_of_locate free rfl
  exact (FileTree.locate_put leads takes _ _).trans (congrArg Except.ok (if_pos ⟨rfl, rfl⟩))

theorem discardDraft_of_replaced (clean : (draftPath path).toList.contains '\x00' = false)
    (leads : bench.tree.locate true bench.surroundings.place (draftPath path) = .ok (.free place)) :
    outcome (discardDraft path) (replaced bench (.free place) text) = (.ok (), bench) := by
  have unused : bench.tree.get? place = none := FileTree.get?_place_of_locate free (by rintro ⟨⟩)
  have looks : outcome (fileExists (draftPath path)) (replaced bench (.free place) text) =
      (.ok true, replaced bench (.free place) text) := by
    refine congrArg (fun found => (Except.ok found, _)) ?_
    unfold FileTree.exists? FileTree.node?
    simp only [show (replaced bench (.free place) text).surroundings = bench.surroundings from rfl,
      finds_replaced free text leads]
    rfl
  have removes : outcome (removeFile (draftPath path)) (replaced bench (.free place) text) =
      (.ok (), bench) := by
    unfold removeFile
    rw [outcome_bind_ok (outcome_locate_of_finds clean (finds_replaced free text free))]
    refine congrArg (fun tree => (Except.ok (), { bench with tree })) ?_
    exact FileTree.erase_put_of_free bench.tree unused _
  unfold discardDraft
  rw [outcome_bind_ok looks, if_pos rfl, outcome_bind_ok (outcome_attempt_of_ok removes)]
  rfl

theorem moveFile_of_replaced :
    (∃ location, bench.Finds path location ∧ location.node? ≠ some .folder ∧
        outcome (moveFile (draftPath path) path) (replaced bench (.free place) text) =
          (.ok (), replaced bench location text)) ∨
      (∀ location, bench.Finds path location → location.node? = some .folder) ∧ ∃ reason,
        outcome (moveFile (draftPath path) path) (replaced bench (.free place) text) =
          (.error (.fault (.file { reason, path := draftPath path, target := some path })),
            replaced bench (.free place) text) := by
  rcases moveFile_cases (draftPath path) path (replaced bench (.free place) text) with
    ⟨old, node, location, found, finds, other, moved⟩ | ⟨blocked, refused⟩
  · have unused : bench.tree.get? place = none := FileTree.get?_place_of_locate free (by rintro ⟨⟩)
    cases (finds_replaced free text free).symm.trans found
    have apart : location.place ≠ place := place_ne_draft finds other found (by rintro ⟨⟩)
    refine Or.inl ⟨location, FileTree.locate_of_put finds fun _ => apart, other, ?_⟩
    rw [moved]
    refine congrArg (fun tree => (Except.ok (), { bench with tree })) ?_
    exact congrArg (fun tree => FileTree.put tree _ _) (FileTree.erase_put_of_free bench.tree unused _)
  · refine Or.inr ⟨fun location finds => Decidable.byContradiction fun other => ?_, refused⟩
    have takes : bench.tree.TakesFile place := FileTree.takesFile_of_locate free rfl
    have apart : location.place ≠ place := place_ne_draft finds other free (by rintro ⟨⟩)
    have still : (replaced bench (.free place) text).Finds path location :=
      (FileTree.locate_put finds takes _ _).trans (congrArg Except.ok (FileTree.Location.after_of_ne apart _))
    exact other (blocked _ _ _ (finds_replaced free text free) still)

end Draft

theorem writeBy_of_stop {text : List Char} {fault : Fault} {mid : Bench}
    (stops : outcome (do
      Work.writeText (draftPath path) text
      move (draftPath path) path) bench = (.error (.fault fault), mid))
    (discards : outcome (discardDraft path) mid = (.ok (), bench))
    (ofFile : fault.kind.isFile = true ∨ mid = bench) :
    outcome (writeBy move path text) bench = (.error (.fault fault), bench) := by
  unfold writeBy
  rw [outcome_bind_ok (outcome_attempt_of_fault stops)]
  dsimp only
  split
  · exact outcome_bind_ok discards _
  · rename_i other
    obtain rfl := ofFile.resolve_left other
    rfl

/-- Nothing changes, or the text stands at the place of the script and nothing else changed. -/
theorem writeBy_cases (moves : Moves move) (lacks : bench.Lacks (draftPath path)) (text : List Char) :
    (∃ fault, outcome (writeBy move path text) bench = (.error (.fault fault), bench)) ∨
      ∃ location, path.toList.contains '\x00' = false ∧ bench.Finds path location ∧
        location.node? ≠ some .folder ∧ 
          outcome (writeBy move path text) bench = (.ok (), replaced bench location text) := by
  by_cases opens : ∃ location, Opens bench.tree bench.surroundings (draftPath path) location
  · obtain ⟨location, opens⟩ := opens
    obtain ⟨place, rfl, free⟩ := lacks.exists_free opens.leads
    have writes : outcome (Work.writeText (draftPath path) text) bench =
        (.ok (), replaced bench (.free place) text) := outcome_writeOctets opens _
    have refused : ∀ {reason}, outcome (move (draftPath path) path) (replaced bench (.free place) text) =
        (.error (.fault (.file { reason, path := draftPath path, target := some path })),
          replaced bench (.free place) text) →
        ∃ fault, outcome (writeBy move path text) bench = (.error (.fault fault), bench) :=
      fun stops => ⟨_, writeBy_of_stop ((outcome_bind_ok writes _).trans stops)
        (discardDraft_of_replaced free text opens.named opens.leads) (Or.inl (isFile_kind _))⟩
    rcases moves (draftPath path) path (replaced bench (.free place) text) with same | ⟨reason, stops⟩
    · rcases moveFile_of_replaced free text with ⟨location, finds, other, moved⟩ | ⟨-, reason, stops⟩
      · have replaces := outcome_attempt_of_ok ((outcome_bind_ok writes fun _ => move (draftPath path) path).trans
          (same.trans moved))
        exact Or.inr ⟨location, clean_of_draft opens.named, finds, other, outcome_bind_ok replaces _⟩
      · exact Or.inl (refused (same.trans stops))
    · exact Or.inl (refused stops)
  · obtain ⟨fault, refused⟩ :=
      outcome_writeOctets_of_not_opens (not_exists.1 opens) (Text.Utf8.encode text)
    have stops : outcome (Work.writeText (draftPath path) text) bench = (.error (.fault fault), bench) := refused
    exact Or.inl ⟨fault, writeBy_of_stop (outcome_bind_error stops _) (discardDraft_of_lacks lacks)
      (Or.inr rfl)⟩

theorem write_of_opens (lacks : bench.Lacks (draftPath path)) {drafted : FileTree.Location}
    (opens : Opens bench.tree bench.surroundings (draftPath path) drafted)
    (finds : bench.Finds path location) (other : location.node? ≠ some .folder) (text : List Char) :
    outcome (write path text) bench = (.ok (), replaced bench location text) := by
  obtain ⟨place, rfl, free⟩ := lacks.exists_free opens.leads
  have writes : outcome (Work.writeText (draftPath path) text) bench =
      (.ok (), replaced bench (.free place) text) := outcome_writeOctets opens _
  rcases moveFile_of_replaced free text with ⟨again, found, -, moved⟩ | ⟨blocked, -⟩
  · cases finds.symm.trans found
    exact outcome_bind_ok (outcome_attempt_of_ok ((outcome_bind_ok writes _).trans moved)) _
  · exact absurd (blocked location finds) other

section Replaced

variable (finds : bench.Finds path location) (other : location.node? ≠ some .folder) (text : List Char)
include finds other

theorem lacks_replaced (lacks : bench.Lacks (draftPath path)) :
    (replaced bench location text).Lacks (draftPath path) := by
  intro place node found
  refine lacks place node (FileTree.locate_of_put found fun file => ?_)
  exact (place_ne_draft finds other found (FileTree.Location.node?_of_takesFile file)).symm

omit finds other in
theorem leads_replaced (clean : path.toList.contains '\x00' = false) (spares : bench.Spares path location.place) :
    Leads (replaced bench location text).tree bench.surroundings path
      (.taken location.place (.file (Text.Utf8.encode text) newFileMode)) := by
  refine ⟨clean, ?_⟩
  obtain ⟨start, goes, way⟩ := FileTree.way_of_locate spares
  have passes : FileTree.Passes (bench.tree.erase location.place) (replaced bench location text).tree :=
    .of_erase fun place apart => FileTree.get?_put_of_ne bench.tree apart _
  exact goes _ _ _ ((way.written passes rfl (FileTree.get?_put_self ..)).followed (by rintro target ⟨⟩))

/-- The text that replaced a script is read back by those who may read it, unless the path led through a
link that was replaced. -/
theorem readExact_replaced_iff (clean : path.toList.contains '\x00' = false) :
    outcome (readExact path) (replaced bench location text) = (.ok text, replaced bench location text) ↔
      bench.surroundings.canRead path = true ∧ bench.Spares path location.place := by
  constructor
  · intro ends
    obtain ⟨reads, place, contents, mode, leads, -⟩ := leads_of_readExact ends
    exact ⟨reads, FileTree.locate_erase_of_put finds other leads.leads⟩
  · rintro ⟨reads, spares⟩
    exact outcome_readExact (outcome_readOctets (leads_replaced text clean spares) reads)
      (Text.Utf8.decode_encode text)

end Replaced

section Log

variable {place : Place} {contents : List UInt8} {mode : Nat}
  (leads : Leads bench.tree bench.surroundings path (.taken place (.file contents mode)))
  (finds : bench.Finds path location) (other : location.node? ≠ some .folder)
include leads finds other

theorem spares_of_leads : bench.Spares path location.place := by
  have single : bench.tree.get? location.place ≠ some .folder := by
    rwa [FileTree.get?_place_of_locate finds other]
  have erased := FileTree.locate_erase finds single (FileTree.linksTo_of_locate leads.leads finds).1
    (by rintro ⟨⟩)
  rwa [FileTree.Location.emptied, if_pos ⟨other, rfl⟩] at erased

theorem opens_replaced (apart : bench.LogsApart path) {log : FileTree.Location}
    (opens : Opens bench.tree bench.surroundings bench.surroundings.logFile log) (text : List Char) :
    log.place ≠ location.place ∧
      Opens (replaced bench location text).tree bench.surroundings bench.surroundings.logFile log := by
  have single : bench.tree.get? location.place ≠ some .folder := by
    rwa [FileTree.get?_place_of_locate finds other]
  have elsewhere : log.place ≠ place := apart _ log leads opens.toLeads
  obtain ⟨linked, ends⟩ := FileTree.linksTo_of_locate leads.leads finds
  have distinct : log.place ≠ location.place := by
    rcases ends with same | ⟨target, stands⟩
    · rwa [same]
    · intro same
      obtain ⟨bits, old, file⟩ := FileTree.takesFile_of_locate opens.leads opens.file _ (same ▸ stands)
      cases file
  have erased := FileTree.locate_erase opens.leads single linked fun _ => elsewhere
  rw [FileTree.Location.emptied, if_neg fun both => distinct both.2] at erased
  exact ⟨distinct, ⟨opens.named, FileTree.locate_of_erase erased
    (fun place apart => FileTree.get?_put_of_ne bench.tree apart _) fun _ => distinct⟩, opens.writes, opens.file⟩

theorem canRecord_replaced (apart : bench.LogsApart path) (records : bench.CanRecord) (text : List Char) :
    (replaced bench location text).CanRecord := by
  obtain ⟨log, opens⟩ := records
  exact ⟨log, (opens_replaced leads finds other apart opens text).2⟩

theorem stands_replaced (apart : bench.LogsApart path) (records : bench.CanRecord) (text : List Char) :
    Stands (replaced bench location text) path location.place (Text.Utf8.encode text) newFileMode := by
  refine ⟨leads_replaced text leads.named (spares_of_leads leads finds other), fun found recorded => ?_⟩
  obtain ⟨log, opens⟩ := records
  obtain ⟨distinct, again⟩ := opens_replaced leads finds other apart opens text
  obtain rfl := again.toLeads.unique recorded
  exact distinct

end Log

theorem text_of_unchanged {text : List Char} {entry : Datum} {injection : Injection}
    (injects : injectEntry text entry = .ok injection) (unchanged : injection.outcome = .unchanged) :
    injection.text = text := by
  unfold injectEntry at injects
  split at injects
  · rename_i word
    split at injects
    · rename_i found placed
      obtain rfl := Except.ok.inj injects
      have valid : IsEntry word.toList := (inject_isSome_iff text word.toList).1 (by rw [placed]; rfl)
      rw [inject_of_isEntry text valid] at placed
      obtain rfl := Option.some.inj placed
      have present : (place text (Text.trim word.toList)).strategy = .present := by
        unfold Injection.outcome Strategy.outcome at unchanged
        split at unchanged
        · assumption
        all_goals cases unchanged
      rw [place_of_listed (listed_of_present present)]
    · cases injects
  · cases injects

def Registers (bench : Bench) (path : String) (entry : Datum) (injection : Injection) (after : Bench) : Prop :=
  ∃ text, outcome (readExact path) bench = (.ok text, bench) ∧ injectEntry text entry = .ok injection ∧
    outcome (readExact path) after = (.ok injection.text, after) ∧
    if injection.outcome = .unchanged then Logged bench after
    else ∃ location, bench.Finds path location ∧ location.node? ≠ some .folder ∧
      Logged (replaced bench location injection.text) after

theorem registers_of_unchanged {place : Place} {contents : List UInt8} {mode : Nat} {text : List Char}
    {entry : Datum} {injection : Injection} {after : Bench}
    (stands : Stands bench path place contents mode) (reads : bench.surroundings.canRead path = true)
    (decodes : Text.Utf8.decode contents = .ok text) (injects : injectEntry text entry = .ok injection)
    (unchanged : injection.outcome = .unchanged) (logged : Logged bench after) :
    Registers bench path entry injection after := by
  have before := outcome_readExact (outcome_readOctets stands.toLeads reads) decodes
  rw [← logged.surroundings] at reads
  have still := outcome_readExact (outcome_readOctets (logged.stands stands).toLeads reads) decodes
  rw [← text_of_unchanged injects unchanged] at still
  exact ⟨text, before, injects, still, by rwa [if_pos unchanged]⟩

theorem registers_of_changed {place : Place} {contents : List UInt8} {mode : Nat} {text : List Char}
    {entry : Datum} {injection : Injection} {after : Bench}
    (leads : Leads bench.tree bench.surroundings path (.taken place (.file contents mode)))
    (reads : bench.surroundings.canRead path = true) (decodes : Text.Utf8.decode contents = .ok text)
    (finds : bench.Finds path location) (other : location.node? ≠ some .folder) (apart : bench.LogsApart path)
    (records : bench.CanRecord) (injects : injectEntry text entry = .ok injection)
    (changes : injection.outcome ≠ .unchanged) (logged : Logged (replaced bench location injection.text) after) :
    Registers bench path entry injection after := by
  have before := outcome_readExact (outcome_readOctets leads reads) decodes
  have stands := logged.stands (stands_replaced leads finds other apart records injection.text)
  rw [← show after.surroundings = bench.surroundings from logged.surroundings] at reads
  have again := outcome_readExact (outcome_readOctets stands.toLeads reads) (Text.Utf8.decode_encode _)
  exact ⟨text, before, injects, again, by rw [if_neg changes]; exact ⟨location, finds, other, logged⟩⟩

theorem registerBy_cases (moves : Moves move) (lacks : bench.Lacks (draftPath path)) (records : bench.CanRecord)
    (apart : bench.LogsApart path) (entry : Datum) :
    (∃ stop, outcome (registerBy (writeBy move) path entry) bench = (.error stop, bench)) ∨
      ∃ injection after, outcome (registerBy (writeBy move) path entry) bench = (.ok injection, after) ∧
        Registers bench path entry injection after := by
  have keeps : Keeps (· = bench) (readExact path) := keeps_readExact path
  have same := (keeps bench rfl).1
  unfold registerBy
  rcases readsAs : outcome (readExact path) bench with ⟨stop | text, mid⟩
  all_goals
    rw [readsAs] at same
    obtain rfl : mid = bench := same
  · exact Or.inl ⟨stop, outcome_bind_error readsAs _⟩
  obtain ⟨reads, spot, contents, mode, leads, decodes⟩ := leads_of_readExact readsAs
  rw [outcome_bind_ok readsAs]
  cases injects : injectEntry text entry with
  | error fault => exact Or.inl ⟨_, outcome_bind_error rfl _⟩
  | ok injection =>
    have injected : outcome (Work.ofExcept (.ok injection)) mid = (.ok injection, mid) := rfl
    rw [outcome_bind_ok injected]
    dsimp only
    -- nothing was written so far; from here on only the replacement can stop
    by_cases unchanged : injection.outcome = .unchanged
    · have stays : ¬injection.changed = true := by simp [Injection.changed, unchanged]
      obtain ⟨after, logs, logged⟩ := log_of_canRecord records
        { level := .info, text := entry.shown ++ " is already listed in " ++ path }
      have stands : Stands mid path spot contents mode := ⟨leads, fun log recorded => apart _ log leads recorded⟩
      rw [if_neg stays]
      exact Or.inr ⟨injection, after, outcome_bind_ok logs _,
        registers_of_unchanged stands reads decodes injects unchanged logged⟩
    · have changes : injection.changed = true := by simpa [Injection.changed] using unchanged
      rw [if_pos changes]
      rcases writeBy_cases moves lacks injection.text with
        ⟨fault, stops⟩ | ⟨location, -, finds, other, written⟩
      · exact Or.inl ⟨_, outcome_bind_error stops _⟩
      · have recording := canRecord_replaced leads finds other apart records injection.text
        have informs : ∀ {told}, Logged (replaced mid location injection.text) told →
            ∃ after, outcome (Work.info ("Added " ++ entry.shown ++ " to " ++ path)) told = (.ok (), after) ∧
              Registers mid path entry injection after := by
          intro told warned
          obtain ⟨after, logs, logged⟩ := log_of_canRecord (warned.canRecord recording)
            { level := .info, text := "Added " ++ entry.shown ++ " to " ++ path }
          exact ⟨after, logs, registers_of_changed leads reads decodes finds other apart records injects
            unchanged (warned.trans logged)⟩
        rw [outcome_bind_ok written]
        cases injection.warning? with
        | none =>
          obtain ⟨after, logs, registers⟩ := informs (.refl _)
          exact Or.inr ⟨injection, after, outcome_bind_ok logs _, registers⟩
        | some warning =>
          obtain ⟨told, warns, warned⟩ := log_of_canRecord recording
            { level := .warning, text := "Warning: " ++ warning }
          obtain ⟨after, logs, registers⟩ := informs warned
          exact Or.inr ⟨injection, after, (outcome_bind_ok warns _).trans (outcome_bind_ok logs _), registers⟩

/-- What a replacement of a script with a text comes to: the text stands at its place, nothing else
changed, and no draft is left. -/
structure Replaces (bench : Bench) (path : String) (text : List Char) (location : FileTree.Location)
    (after : Bench) : Prop where
  finds : bench.Finds path location
  single : location.node? ≠ some .folder
  rest : after = replaced bench location text
  lacks : after.Lacks (draftPath path)
  reads : outcome (readExact path) after = (.ok text, after) ↔
    bench.surroundings.canRead path = true ∧ bench.Spares path location.place

/-- Where no draft stands, a script is replaced as a whole or nothing changes, whatever the reason its
draft is not written or not moved. A registration does no more than this and its messages. -/
theorem script_replaced_or_kept (moves : Moves move) (lacks : bench.Lacks (draftPath path)) :
    (∀ text, (∃ fault, outcome (writeBy move path text) bench = (.error (.fault fault), bench)) ∨
      ∃ location after, outcome (writeBy move path text) bench = (.ok (), after) ∧
        Replaces bench path text location after) ∧
    (bench.CanRecord → bench.LogsApart path → ∀ entry,
      (∃ stop, outcome (registerBy (writeBy move) path entry) bench = (.error stop, bench)) ∨
        ∃ injection after, outcome (registerBy (writeBy move) path entry) bench = (.ok injection, after) ∧
          Registers bench path entry injection after) := by
  refine ⟨fun text => ?_, fun records apart entry => registerBy_cases moves lacks records apart entry⟩
  rcases writeBy_cases moves lacks text with stops | ⟨location, clean, finds, other, written⟩
  · exact Or.inl stops
  · exact Or.inr ⟨location, _, written, finds, other, rfl, lacks_replaced finds other text lacks,
      readExact_replaced_iff finds other text clean⟩

def scriptBench : Bench :=
  (Bench.fresh {}).onTree (·.put ["W", "CMakeLists.txt"]
    (.file (Text.Utf8.encode "add_executable(app)\n".toList) newFileMode))

theorem script_replaced_or_kept_scriptBench :
    (∀ text, (∃ fault, outcome (writeBy moveFile "CMakeLists.txt" text) scriptBench =
        (.error (.fault fault), scriptBench)) ∨
      ∃ location after, outcome (writeBy moveFile "CMakeLists.txt" text) scriptBench = (.ok (), after) ∧
        Replaces scriptBench "CMakeLists.txt" text location after) ∧
    (∀ entry, (∃ stop, outcome (registerBy (writeBy moveFile) "CMakeLists.txt" entry) scriptBench =
        (.error stop, scriptBench)) ∨
      ∃ injection after, outcome (registerBy (writeBy moveFile) "CMakeLists.txt" entry) scriptBench =
        (.ok injection, after) ∧ Registers scriptBench "CMakeLists.txt" entry injection after) := by
  have free : scriptBench.Finds (draftPath "CMakeLists.txt") (.free ["W", "CMakeLists.txt.tmp"]) := rfl
  have logs : Leads scriptBench.tree scriptBench.surroundings scriptBench.surroundings.logFile
      (.free ["L", "jucebuilder_20240102_030405.log"]) := ⟨by decide, rfl⟩
  have lacks : scriptBench.Lacks (draftPath "CMakeLists.txt") := by
    intro place node found
    cases free.symm.trans found
  have script : Leads scriptBench.tree scriptBench.surroundings "CMakeLists.txt"
      (.taken ["W", "CMakeLists.txt"] (.file (Text.Utf8.encode "add_executable(app)\n".toList) newFileMode)) :=
    ⟨by decide, rfl⟩
  have apart : scriptBench.LogsApart "CMakeLists.txt" := by
    intro location log leads recorded
    obtain rfl := script.unique leads
    obtain rfl := logs.unique recorded
    decide
  obtain ⟨writes, registers⟩ := script_replaced_or_kept moves_moveFile lacks
  exact ⟨writes, registers ⟨_, logs, by decide, rfl⟩ apart⟩

theorem readExact_log_ne {place : Place} {text : List Char} {mode : Nat}
    (opens : Opens bench.tree bench.surroundings bench.surroundings.logFile
      (.taken place (.file (Text.Utf8.encode text) mode))) (message : Message) : ∃ after,
    outcome (Work.log message) bench = (.ok (), after) ∧
      outcome (readExact bench.surroundings.logFile) after ≠ (.ok text, after) := by
  refine ⟨_, outcome_log_of_opens opens message, fun ends => ?_⟩
  obtain ⟨-, spot, contents, bits, leads, decodes⟩ := leads_of_readExact ends
  unfold Bench.write at leads
  rw [shown_tree, shown_surroundings] at leads
  cases (opens.put _ mode).toLeads.unique leads
  rw [FileTree.Location.written, Text.Utf8.encode, Text.Utf8.encode, ← List.flatMap_append, ← Text.Utf8.encode,
    Text.Utf8.decode_encode, Except.ok.injEq] at decodes
  have empty := congrArg List.getLast? (List.append_cancel_left (decodes.trans (List.append_nil text).symm))
  unfold Message.record at empty
  rw [String.toList_append, List.getLast?_append] at empty
  cases empty

def linkedBench : Bench := (Bench.fresh {}).onTree (·.put ["W", "L"] (.link "."))

def loggedBench : Bench :=
  (Bench.fresh {}).onTree (·.put ["L", "jucebuilder_20240102_030405.log"]
    (.file (Text.Utf8.encode "b.cpp".toList) newFileMode))

/-- A script that was written over the link its path leads through is not read back, and the log as a
script holds more than the text of a registration. -/
theorem written_script_not_read :
    (linkedBench.Lacks (draftPath "/W/L/L") ∧ linkedBench.surroundings.canRead "/W/L/L" = true ∧ ∃ after,
      outcome (write "/W/L/L" "x\n".toList) linkedBench = (.ok (), after) ∧
        outcome (readExact "/W/L/L") after ≠ (.ok "x\n".toList, after)) ∧
    (loggedBench.Lacks (draftPath loggedBench.surroundings.logFile) ∧ loggedBench.CanRecord ∧
      ∃ injection after,
        outcome (register loggedBench.surroundings.logFile (.text "b.cpp")) loggedBench = (.ok injection, after) ∧
          outcome (readExact loggedBench.surroundings.logFile) after ≠ (.ok injection.text, after)) := by
  constructor
  · have draftParts : FileTree.pathParts (draftPath "/W/L/L") = ["", "W", "L", "L.tmp"] := by decide
    have parts : FileTree.pathParts "/W/L/L" = ["", "W", "L", "L"] := by decide
    have draft : linkedBench.Finds (draftPath "/W/L/L") (.free ["W", "L.tmp"]) :=
      (FileTree.locate_of_parts (by decide) (by decide) draftParts).trans rfl
    have finds : linkedBench.Finds "/W/L/L" (.taken ["W", "L"] (.link ".")) :=
      (FileTree.locate_of_parts (by decide) (by decide) parts).trans rfl
    have opens : Opens linkedBench.tree linkedBench.surroundings (draftPath "/W/L/L") (.free ["W", "L.tmp"]) :=
      ⟨⟨by decide, (FileTree.locate_of_parts (by decide) (by decide) draftParts).trans rfl⟩, by decide, rfl⟩
    have lacks : linkedBench.Lacks (draftPath "/W/L/L") := by
      intro place node found
      cases draft.symm.trans found
    have reads : linkedBench.surroundings.canRead "/W/L/L" = true := by decide
    have single : (FileTree.Location.taken ["W", "L"] (.link ".")).node? ≠ some .folder := by rintro ⟨⟩
    have written := write_of_opens lacks opens finds single "x\n".toList
    refine ⟨lacks, reads, _, written, fun ends => ?_⟩
    have spares : (linkedBench.tree.erase ["W", "L"]).locate false linkedBench.surroundings.place "/W/L/L" =
        .ok (.free ["W", "L"]) :=
      ((readExact_replaced_iff finds single "x\n".toList (by decide)).1 ends).2
    have lost : (linkedBench.tree.erase ["W", "L"]).locateFrom false FileTree.maxLinks [] ["W", "L", "L"] =
      .error .missing := rfl
    rw [FileTree.locate_of_parts (by decide) (by decide) parts, lost] at spares
    cases spares
  · have parts : FileTree.pathParts loggedBench.surroundings.logFile =
        ["", "L", "jucebuilder_20240102_030405.log"] := by decide
    have draftParts : FileTree.pathParts (draftPath loggedBench.surroundings.logFile) =
        ["", "L", "jucebuilder_20240102_030405.log.tmp"] := by decide
    have draft : loggedBench.Finds (draftPath loggedBench.surroundings.logFile)
        (.free ["L", "jucebuilder_20240102_030405.log.tmp"]) :=
      (FileTree.locate_of_parts (by decide) (by decide) draftParts).trans rfl
    have opens : Opens loggedBench.tree loggedBench.surroundings loggedBench.surroundings.logFile
        (.taken ["L", "jucebuilder_20240102_030405.log"]
          (.file (Text.Utf8.encode "b.cpp".toList) newFileMode)) :=
      ⟨⟨by decide, (FileTree.locate_of_parts (by decide) (by decide) parts).trans rfl⟩, by decide, rfl⟩
    have lacks : loggedBench.Lacks (draftPath loggedBench.surroundings.logFile) := by
      intro place node found
      cases draft.symm.trans found
    have reads := outcome_readExact (outcome_readOctets opens.toLeads (by decide))
      (Text.Utf8.decode_encode "b.cpp".toList)
    have injects : outcome (Work.ofExcept (injectEntry "b.cpp".toList (.text "b.cpp"))) loggedBench =
        (.ok ⟨"b.cpp".toList, .present⟩, loggedBench) := by
      unfold injectEntry
      dsimp only
      rw [inject_of_isEntry _ (by decide), place_of_listed (by decide)]
      rfl
    obtain ⟨after, logs, differs⟩ := readExact_log_ne opens
      { level := .info,
        text := (Datum.text "b.cpp").shown ++ " is already listed in " ++ loggedBench.surroundings.logFile }
    refine ⟨lacks, ⟨_, opens⟩, ⟨"b.cpp".toList, .present⟩, after, ?_, differs⟩
    unfold register registerBy
    rw [outcome_bind_ok reads, outcome_bind_ok injects]
    exact outcome_bind_ok logs _

end Script

end JuceWorkbench
