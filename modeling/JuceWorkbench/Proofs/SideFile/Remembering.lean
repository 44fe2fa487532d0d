import JuceWorkbench.Proofs.SideFile.Loading

/-! What remembering a build type does to the side file. A file that was read keeps all it held.
A file that was not read, for a lack of permission or as no document, counts as empty and is
written over. -/

namespace JuceWorkbench.SideFile

theorem save_of_opens {bench : Bench} {folder : String} {location : FileTree.Location}
    (opens : Opens bench.tree bench.surroundings (path folder) location) {entries : Entries}
    {text : String} (printed : bench.surroundings.format.write entries = .ok text) :
    Work.outcome (save entries folder) bench =
      (.ok true, bench.write location (Text.Utf8.encode text.toList)) := by
  have emptied := Work.outcome_writeOctets opens (Text.Utf8.encode [])
  have filled : Work.outcome (Work.writeOctets (path folder) (Text.Utf8.encode text.toList))
      (bench.write location (Text.Utf8.encode [])) = (.ok (), _) :=
    Work.outcome_writeOctets (opens.put _ _) _
  rw [Bench.write_write] at filled
  have written : Work.outcome (write (path folder) entries) bench =
      (.ok (), bench.write location (Text.Utf8.encode text.toList)) := by
    unfold write
    refine (Work.outcome_bind_ok emptied _).trans ?_
    refine (Work.outcome_bind_ok (Work.outcome_surroundings _) _).trans ?_
    change Work.outcome (Work.ofExcept (bench.surroundings.format.write entries) >>= _) _ = _
    rw [printed]
    exact filled
  exact Work.outcome_bind_ok (Work.outcome_attempt_of_ok written) _

theorem refuses_save {bench : Bench} {folder : String} {kept : Bench → Prop}
    (logs : ∀ message, Work.Complains message → Work.Keeps kept (Work.log message)) (holds : kept bench)
    (closed : ∀ location, ¬Opens bench.tree bench.surroundings (path folder) location)
    (entries : Entries) : kept (Work.outcome (save entries folder) bench).2 ∧
      ∀ saved, (Work.outcome (save entries folder) bench).1 = .ok saved → saved = false := by
  obtain ⟨fault, refused⟩ := Work.outcome_writeOctets_of_not_opens closed (Text.Utf8.encode [])
  have stops : Work.outcome (write (path folder) entries) bench = (.error (.fault fault), bench) :=
    Work.outcome_bind_error refused _
  unfold save
  dsimp only
  rw [Work.outcome_bind_ok (Work.outcome_attempt_of_fault stops)]
  dsimp only
  split
  · have advises (trouble : String) : Work.Yields kept (reported trouble
        "Please check file permissions and ensure the directory is writable." false) (· = false) :=
      Work.yields_reported logs trouble (by decide) rfl
    exact advises _ bench holds
  · exact ⟨holds, by rintro saved ⟨⟩⟩

theorem save_of_not_opens {bench : Bench} {folder : String}
    (closed : ∀ location, ¬Opens bench.tree bench.surroundings (path folder) location)
    (entries : Entries) : Logged bench (Work.outcome (save entries folder) bench).2 :=
  (refuses_save (fun message _ => Work.Keeps.log .trans message) (Logged.refl bench) closed entries).1

/-! Remembering. -/

def loaded (surroundings : Surroundings) (file : String) (octets : List UInt8) : Entries :=
  if surroundings.canRead file then (tablesOf surroundings.format octets).getD [] else []

def fresh (buildType : Datum) : Entries :=
  [("config_version", .integer currentVersion), ("build", .table [("type", buildType)])]

theorem withBuildType_nil (buildType : Datum) : withBuildType [] buildType = .ok (fresh buildType) := rfl

/-- A file that tables are written to holds the same tables. -/
def ReadsBack (format : Format) (entries : Entries) : Prop :=
  ∃ text back, format.write entries = .ok text ∧
    tablesOf format (Text.Utf8.encode text.toList) = some back ∧
    (Datum.table entries).isAlike (.table back) = true

/-- Once a build type was remembered, the file has its old contents, or it could be read and every
key other than the build type and a missing version has its old value. -/
def KeepsFile (bench : Bench) (folder : String) (buildType : Datum) (octets : List UInt8) : Prop :=
  let after := (Work.outcome (remember folder buildType) bench).2
  ∃ place written mode,
    Leads after.tree after.surroundings (path folder) (.taken place (.file written mode)) ∧
      (written = octets ∨ ∃ entries back,
        IsRead bench.surroundings (path folder) octets entries ∧
          tablesOf bench.surroundings.format written = some back ∧
          ∀ keys, IsKept entries keys →
            Datum.Alike (find? keys (.table entries)) (find? keys (.table back)))

/-- A file that counts as empty is written over. -/
structure IsOverwritten (bench : Bench) (folder : String) (buildType : Datum) (octets : List UInt8) :
    Prop where
  empty : CountsEmpty bench.surroundings (path folder) octets
  recorded : bench.CanRecord
  writes : bench.surroundings.canWrite (path folder) = true
  differs : ∀ text, bench.surroundings.format.write (fresh buildType) = .ok text →
    Text.Utf8.encode text.toList ≠ octets

theorem readsBack_iff {format : Format} {entries : Entries} : ReadsBack format entries ↔
    ((format.write entries).toOption.bind fun text => tablesOf format (Text.Utf8.encode text.toList)).any
      (fun back => (Datum.table entries).isAlike (.table back)) = true := by
  constructor
  · rintro ⟨text, back, printed, tables, alike⟩
    rw [printed]
    change (tablesOf format (Text.Utf8.encode text.toList)).any _ = true
    rw [tables]
    exact alike
  · intro alike
    obtain ⟨back, found, same⟩ := (Option.any_eq_true _ _).1 alike
    obtain ⟨text, printed, tables⟩ := Option.bind_eq_some_iff.1 found
    exact ⟨text, back, toOption_eq_some_iff.1 printed, tables, same⟩

instance (format : Format) (entries : Entries) : Decidable (ReadsBack format entries) :=
  decidable_of_iff _ readsBack_iff.symm

section Remembering

variable {bench : Bench} {folder : String} {buildType : Datum} {place : Place} {octets : List UInt8}
  {mode : Nat}

theorem outcome_remember {after : Bench} {entries new : Entries}
    (ends : Work.outcome (load folder) bench = (.ok entries, after))
    (done : withBuildType entries buildType = .ok new) :
    Work.outcome (remember folder buildType) bench = Work.outcome (save new folder) after := by
  unfold remember
  rw [Work.outcome_bind_ok ends, done]
  exact Work.outcome_bind_ok (Work.outcome_pure new after) _

theorem keepsFile_of_logged (stands : Stands bench (path folder) place octets mode)
    (logged : Logged bench (Work.outcome (remember folder buildType) bench).2) :
    KeepsFile bench folder buildType octets :=
  ⟨place, octets, mode, (logged.stands stands).toLeads, Or.inl rfl⟩

theorem not_opens_of_not_canWrite {surroundings : Surroundings} {file : String}
    (refused : surroundings.canWrite file = false) (tree : FileTree) (location : FileTree.Location) :
    ¬Opens tree surroundings file location := by
  intro opens
  rw [opens.writes] at refused
  cases refused

theorem keepsFile_of_read (stands : Stands bench (path folder) place octets mode) {entries : Entries}
    (read : IsRead bench.surroundings (path folder) octets entries)
    (ends : Work.outcome (load folder) bench = (.ok entries, bench))
    (readsBack : ∀ new, withBuildType entries buildType = .ok new → ReadsBack bench.surroundings.format new) :
    KeepsFile bench folder buildType octets := by
  cases done : withBuildType entries buildType with
  | error fault =>
    refine keepsFile_of_logged stands ?_
    unfold remember
    rw [Work.outcome_bind_ok ends, done]
    exact Logged.refl bench
  | ok new =>
    have goes := outcome_remember ends done
    cases writes : bench.surroundings.canWrite (path folder) with
    | false =>
      refine keepsFile_of_logged stands ?_
      rw [goes]
      exact save_of_not_opens (not_opens_of_not_canWrite writes bench.tree) new
    | true =>
      have opens : Opens _ _ _ _ := ⟨stands.toLeads, writes, rfl⟩
      obtain ⟨text, back, printed, tables, alike⟩ := readsBack new done
      unfold KeepsFile
      rw [goes, save_of_opens opens printed]
      refine ⟨place, _, mode, (opens.put _ mode).toLeads, Or.inr ⟨entries, back, read, tables, ?_⟩⟩
      intro keys kept
      rw [← find?_withBuildType done kept]
      exact alike_find? keys alike

/-- A file that counts as empty is left alone only if the log or the file itself cannot be
written. -/
theorem remember_of_empty (stands : Stands bench (path folder) place octets mode)
    (empty : CountsEmpty bench.surroundings (path folder) octets) {text : String}
    (printed : bench.surroundings.format.write (fresh buildType) = .ok text) :
    (bench.CanRecord ∧ bench.surroundings.canWrite (path folder) = true ∧
        Leads (Work.outcome (remember folder buildType) bench).2.tree
          (Work.outcome (remember folder buildType) bench).2.surroundings (path folder)
          (.taken place (.file (Text.Utf8.encode text.toList) mode))) ∨
      ¬(bench.CanRecord ∧ bench.surroundings.canWrite (path folder) = true) ∧
        Logged bench (Work.outcome (remember folder buildType) bench).2 := by
  obtain ⟨trouble, advice, loads⟩ : ∃ trouble advice, Work.outcome (load folder) bench =
      Work.outcome (reported trouble advice []) bench := by
    rcases load_cases stands.toLeads with ⟨entries, read, -⟩ | ⟨-, loads⟩ | ⟨filled, -⟩
    · exact absurd read (empty.not_read entries)
    · exact loads
    · exact absurd empty filled
  by_cases records : bench.CanRecord
  · obtain ⟨after, ends, logged⟩ := reported_of_canRecord records trouble advice ([] : Entries)
    have goes := outcome_remember (loads.trans ends) (withBuildType_nil buildType)
    rw [goes]
    cases writes : bench.surroundings.canWrite (path folder) with
    | true =>
      have opens : Opens _ _ _ _ :=
        ⟨(logged.stands stands).toLeads, by rw [logged.surroundings]; exact writes, rfl⟩
      rw [save_of_opens opens (logged.surroundings ▸ printed)]
      exact Or.inl ⟨records, rfl, (opens.put _ mode).toLeads⟩
    | false =>
      refine Or.inr ⟨fun both => Bool.false_ne_true both.2, logged.trans (save_of_not_opens ?_ _)⟩
      rw [logged.surroundings]
      exact not_opens_of_not_canWrite writes after.tree
  · obtain ⟨fault, after, ends, logged⟩ := reported_of_not_canRecord records trouble advice ([] : Entries)
    refine Or.inr ⟨fun both => records both.1, ?_⟩
    unfold remember
    rw [Work.outcome_bind_error (loads.trans ends)]
    exact logged

theorem loaded_of_read {surroundings : Surroundings} {file : String} {entries : Entries}
    (read : IsRead surroundings file octets entries) : loaded surroundings file octets = entries := by
  unfold loaded
  rw [if_pos read.reads, read.tables]
  rfl

theorem loaded_of_empty {surroundings : Surroundings} {file : String}
    (empty : CountsEmpty surroundings file octets) : loaded surroundings file octets = [] := by
  unfold loaded
  cases empty with
  | denied denied => rw [denied, if_neg Bool.false_ne_true]
  | malformed text report reads decodes rejected =>
    rw [if_pos reads, tablesOf_of_read decodes rejected]
    rfl

theorem not_keepsFile_of_overwritten (stands : Stands bench (path folder) place octets mode)
    (lost : IsOverwritten bench folder buildType octets) {text : String}
    (printed : bench.surroundings.format.write (fresh buildType) = .ok text) :
    ¬KeepsFile bench folder buildType octets := by
  rintro ⟨spot, written, bits, again, same | ⟨entries, back, read, -⟩⟩
  · rcases remember_of_empty stands lost.empty printed with ⟨-, -, leads⟩ | ⟨closed, -⟩
    · cases leads.unique again
      exact lost.differs text printed same
    · exact closed ⟨lost.recorded, lost.writes⟩
  · exact lost.empty.not_read entries read

/-- Remembering a build type keeps the file, unless the file counts as empty and is written over. -/
theorem keepsFile_iff (stands : Stands bench (path folder) place octets mode)
    (readsBack : ∀ entries, withBuildType (loaded bench.surroundings (path folder) octets) buildType =
      .ok entries → ReadsBack bench.surroundings.format entries) :
    KeepsFile bench folder buildType octets ↔ ¬IsOverwritten bench folder buildType octets := by
  rcases load_cases stands.toLeads with ⟨entries, read, ends⟩ | ⟨empty, -⟩ | ⟨filled, fault, after, ends, logged⟩
  · rw [loaded_of_read read] at readsBack
    refine iff_of_true (keepsFile_of_read stands read ends readsBack) ?_
    exact fun lost => lost.empty.not_read entries read
  · rw [loaded_of_empty empty] at readsBack
    obtain ⟨text, back, printed, -, -⟩ := readsBack _ (withBuildType_nil buildType)
    refine ⟨fun kept lost => not_keepsFile_of_overwritten stands lost printed kept, ?_⟩
    intro kept
    rcases remember_of_empty stands empty printed with ⟨records, writes, leads⟩ | ⟨-, logged⟩
    · refine ⟨place, _, mode, leads, Or.inl ?_⟩
      refine Classical.byContradiction fun differs => kept ⟨empty, records, writes, ?_⟩
      intro other again
      cases printed.symm.trans again
      exact differs
    · exact keepsFile_of_logged stands logged
  · refine iff_of_true (keepsFile_of_logged stands ?_) fun lost => filled lost.empty
    unfold remember
    rw [Work.outcome_bind_error ends]
    exact logged

end Remembering

/-! A side file that is read, and one that counts as empty. -/

theorem write_release : Toml.write (fresh (.text "Release")) =
    .ok "config_version = 1\n\n[build]\ntype = \"Release\"\n" :=
  toOption_eq_some_iff.1 (by decide +kernel)

def namedText : String := "[project]\nname = \"App\"\n"

theorem tablesOf_named : tablesOf Toml.format (Text.Utf8.encode namedText.toList) =
    some [("project", .table [("name", .text "App")])] := by
  have read : Toml.read namedText.toList = .ok [("project", .table [("name", .text "App")])] := by
    with_unfolding_all rfl
  exact tablesOf_encode (by decide) read

theorem keepsFile_iff_named :
    IsRead {} (path "/W") (Text.Utf8.encode namedText.toList) [("project", .table [("name", .text "App")])] ∧
      KeepsFile (projectBench (Text.Utf8.encode namedText.toList)) "/W" (.text "Release")
        (Text.Utf8.encode namedText.toList) := by
  have read : IsRead {} (path "/W") (Text.Utf8.encode namedText.toList) _ :=
    ⟨by decide, tablesOf_named⟩
  refine ⟨read, (keepsFile_iff (stands_project _) ?_).2 ?_⟩
  · intro entries done
    rw [show (projectBench _).surroundings = {} from rfl, loaded_of_read read] at done
    obtain rfl : _ = entries := Except.ok.inj done
    change ReadsBack Toml.format _
    decide +kernel
  · exact fun lost => lost.empty.not_read _ read

def unclosedText : String := "[project\nname = \"App\"\n"

theorem countsEmpty_unclosed :
    CountsEmpty {} (path "/W") (Text.Utf8.encode unclosedText.toList) := by
  have unified : Text.unifyBreaks unclosedText.toList = unclosedText.toList := by decide
  have rejected : Toml.read unclosedText.toList =
      .error (.malformed (Toml.Report.message ⟨.header, 0, 1, 1⟩)) := by
    with_unfolding_all rfl
  exact .malformed unclosedText.toList _ (by decide) (Text.Utf8.decode_encode _) (unified ▸ rejected)

theorem not_keepsFile_unclosed :
    tablesOf Toml.format (Text.Utf8.encode unclosedText.toList) = none ∧
      (∀ entries, withBuildType (loaded {} (path "/W") (Text.Utf8.encode unclosedText.toList))
        (.text "Release") = .ok entries → ReadsBack Toml.format entries) ∧
      ¬KeepsFile (projectBench (Text.Utf8.encode unclosedText.toList)) "/W" (.text "Release")
        (Text.Utf8.encode unclosedText.toList) := by
  refine ⟨?_, ?_, ?_⟩
  · rw [← Option.isNone_iff_eq_none]
    decide +kernel
  · intro entries done
    rw [loaded_of_empty countsEmpty_unclosed, withBuildType_nil] at done
    obtain rfl := Except.ok.inj done
    decide +kernel
  · refine not_keepsFile_of_overwritten (stands_project _) ⟨countsEmpty_unclosed, ?_, ?_, ?_⟩ write_release
    · exact ⟨_, opens_log _⟩
    · decide
    · intro text printed
      obtain rfl := Except.ok.inj (write_release.symm.trans printed)
      decide

end JuceWorkbench.SideFile
