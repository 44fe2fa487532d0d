import JuceWorkbench.Proofs.SideFile.Setting

/-! Setting a value and looking it up. What is reported as set is what is found at the key from then
on, and nothing beside the key is lost. What is not reported was not written. -/

namespace JuceWorkbench

namespace SideFile
open CommandLine Datum

/-! Paths of keys. -/

section Paths

variable {keys other : List String} {value : Datum} {entries new : Entries}

theorem find?_set_self (filled : keys ≠ []) (done : set keys value entries = .ok new) :
    find? keys (.table new) = some value := by
  induction keys generalizing entries new with
  | nil => exact absurd rfl filled
  | cons key keys ih =>
    rcases set_cons_cases done with ⟨rfl, rfl⟩ | ⟨more, inner, changed, -, further, rfl⟩
    · rw [find?_single, Entries.get?_put_self]
    · rw [find?_cons, Entries.get?_put_self, Option.bind_some]
      exact ih more further

/-- A path that neither goes through the end of another one nor ends on it keeps its value when that
one is set. -/
theorem find?_set_of_apart (done : set keys value entries = .ok new) (above : ¬other <+: keys)
    (below : ¬keys <+: other) : find? other (.table new) = find? other (.table entries) := by
  induction keys generalizing entries new other with
  | nil => exact absurd List.nil_prefix below
  | cons key keys ih =>
    cases other with
    | nil => exact absurd List.nil_prefix above
    | cons first rest =>
      by_cases same : first = key
      · subst same
        rw [List.prefix_cons_inj] at above below
        cases rest with
        | nil => exact absurd List.nil_prefix above
        | cons next rest =>
          rcases set_cons_cases done with ⟨rfl, rfl⟩ | ⟨-, inner, changed, there, further, rfl⟩
          · exact absurd List.nil_prefix below
          · rw [find?_of_tableAt (tableAt_put_self ..), find?_of_tableAt there, ih further above below]
      · have apart : ∀ value, find? (first :: rest) (.table (entries.put key value)) =
            find? (first :: rest) (.table entries) := by
          intro value
          rw [find?_cons, find?_cons, Entries.get?_put_of_ne entries value same]
        rcases set_cons_cases done with ⟨-, rfl⟩ | ⟨-, inner, changed, -, -, rfl⟩
        · exact apart _
        · exact apart _

end Paths

theorem keyParts_ne_nil (key : String) : keyParts key ≠ [] := by
  unfold keyParts
  simpa using Text.splitOn_ne_nil '.' key.toList

/-! The report of a setting. -/

def report (key value : String) : Message :=
  { level := .info, text := "Set '" ++ key ++ "' to '" ++ value ++ "'" }

def ReportsSet (bench after : Bench) (key value : String) : Prop :=
  ∃ more, after.output = bench.output ++ (report key value).printed bench.surroundings.now.time.text ++ more

/-- Nothing was put out, or advice first of all. -/
structure Advises (bench after : Bench) : Prop where
  surroundings : after.surroundings = bench.surroundings
  output : after.output = bench.output ∨ ∃ advice more, "Please".toList <+: advice.toList ∧
    after.output = bench.output ++
      Message.printed bench.surroundings.now.time.text { level := .info, text := advice } ++ more

/-- A value was set: the side file holds tables with the value at the key and with what the old ones held
at every path beside it. The value is what is shown for the key, if the log is not written to the side
file itself. -/
structure IsSet (bench after : Bench) (folder key value : String) (place : Place) (octets : List UInt8)
    (mode : Nat) (written : List UInt8) (old back : Entries) : Prop where
  leads : Leads bench.tree bench.surroundings (path folder) (.taken place (.file octets mode))
  read : IsRead bench.surroundings (path folder) octets old
  logged : Logged (bench.write (.taken place (.file octets mode)) written) after
  tables : tablesOf bench.surroundings.format written = some back
  found : find? (keyParts key) (.table back) = some (.text value)
  beside : ∀ keys, ¬keys <+: keyParts key → ¬keyParts key <+: keys →
    Alike (find? keys (.table old)) (find? keys (.table back))
  shown : (∀ location, Leads bench.tree bench.surroundings bench.surroundings.logFile location →
      location.place ≠ place) →
    Work.outcome (getValue folder key) after = Work.outcome (echo value) after

section Report

variable {bench after : Bench} {folder key value : String} {place : Place} {octets : List UInt8} {mode : Nat}

def lead (clock : String) : String :=
  Level.cyan ++ Level.bright ++ "[" ++ clock ++ "]" ++ Level.reset ++ " " ++ Level.cyan

theorem printed_info (clock text : String) :
    Message.printed clock { level := .info, text } = lead clock ++ text ++ (Level.reset ++ "\n") := by
  change Level.cyan ++ Level.bright ++ "[" ++ clock ++ "]" ++ Level.reset ++ " " ++ Level.cyan ++ "" ++ "" ++ text ++
    Level.reset ++ "\n" = _
  rw [String.append_empty, String.append_empty, String.append_assoc]
  rfl

theorem keeps_advises (message : Message) (complains : Work.Complains message) :
    Work.Keeps (Advises bench) (Work.log message) := by
  intro mid before
  have logged := (Work.Keeps.log .trans message mid (Logged.refl mid)).1
  refine ⟨⟨logged.surroundings.trans before.surroundings, ?_⟩, fun _ _ => trivial⟩
  rw [Work.output_log, before.surroundings]
  rcases before.output with same | ⟨advice, more, asks, first⟩
  · rw [same]
    cases complains with
    | trouble message level =>
      left
      unfold Message.printed
      rw [if_pos level, String.append_empty]
    | advice text asks => exact Or.inr ⟨text, "", asks, (String.append_empty ..).symm⟩
  · rw [first]
    exact Or.inr ⟨advice, _, asks, String.append_assoc ..⟩

/-- Advice is no report of a setting, since the two begin with other letters. -/
theorem Advises.not_reportsSet (advises : Advises bench after) : ¬ReportsSet bench after key value := by
  rintro ⟨more, reports⟩
  rw [report, printed_info] at reports
  rcases advises.output with same | ⟨advice, rest, ⟨tail, asks⟩, first⟩
  · rw [same] at reports
    have empty := congrArg String.toList reports
    simp [lead] at empty
  · rw [first, printed_info] at reports
    have letters := congrArg String.toList reports
    have please : "Please".toList = 'P' :: "lease".toList := by decide
    have set : "Set '".toList = 'S' :: "et '".toList := by decide
    simp only [String.toList_append, List.append_assoc, List.append_cancel_left_eq, ← asks, please, set,
      List.cons_append, List.cons.injEq] at letters
    exact absurd letters.1 (by decide)

theorem reportsSet_of_carriesOut
    (leads : Leads bench.tree bench.surroundings (path folder) (.taken place (.file octets mode)))
    {new : Entries} (carries : CarriesOut bench folder key value new) {text : String}
    (printed : bench.surroundings.format.write new = .ok text) :
    ReportsSet bench (afterSetting folder bench (key, value)) key value := by
  have keeps : ∀ message, Work.Keeps (ReportsSet bench · key value) (Work.log message) := by
    rintro message mid ⟨more, reports⟩
    refine ⟨⟨more ++ message.printed mid.surroundings.now.time.text, ?_⟩, fun _ _ => trivial⟩
    rw [Work.output_log, reports, String.append_assoc]
  rw [afterSetting_of_carriesOut leads carries printed]
  refine kept_lastResort keeps ⟨"", ?_⟩
  exact (Work.output_log (report key value) _).trans (String.append_empty ..).symm

theorem not_reportsSet_of_refused
    (refused : ∀ place octets mode new,
      Leads bench.tree bench.surroundings (path folder) (.taken place (.file octets mode)) →
        ¬CarriesOut bench folder key value new) :
    ¬ReportsSet bench (afterSetting folder bench (key, value)) key value ∧
      Logged bench (afterSetting folder bench (key, value)) := by
  have advises : Advises bench (afterSetting folder bench (key, value)) :=
    kept_afterSetting_of_refused keeps_advises ⟨rfl, Or.inl rfl⟩ refused
  exact ⟨advises.not_reportsSet, kept_afterSetting_of_refused (fun message _ => Work.Keeps.log .trans message)
    (Logged.refl bench) refused⟩

theorem outcome_getValue_of_text {entries : Entries}
    (loads : Work.outcome (load folder) bench = (.ok entries, bench))
    (found : find? (keyParts key) (.table entries) = some (.text value)) :
    Work.outcome (getValue folder key) bench = Work.outcome (echo value) bench := by
  have filled : entries ≠ [] := by
    rintro rfl
    cases parts : keyParts key with
    | nil => exact keyParts_ne_nil key parts
    | cons first rest =>
      rw [parts] at found
      cases found
  unfold getValue
  rw [Work.outcome_bind_ok (outcome_loadOrReport_of_filled filled loads)]
  dsimp only
  rw [found]
  exact Work.outcome_bind_ok (Work.outcome_pure () bench) _

theorem eq_text_of_alike {other : Option Datum} (alike : Alike (some (.text value)) other) :
    other = some (.text value) := by
  cases alike with
  | @some _ other like =>
    have same := text?_of_alike like
    cases other with
    | text other =>
      obtain rfl := Option.some.inj same
      rfl
    | _ => cases same

theorem isSet_of_carriesOut
    (leads : Leads bench.tree bench.surroundings (path folder) (.taken place (.file octets mode)))
    {new : Entries} (carries : CarriesOut bench folder key value new)
    (readsBack : ReadsBack bench.surroundings.format new) :
    ∃ written old back, IsSet bench (afterSetting folder bench (key, value)) folder key value place octets mode
      written old back := by
  obtain ⟨text, back, printed, read, alike⟩ := readsBack
  have logged := logged_of_carriesOut leads carries printed
  have found : find? (keyParts key) (.table back) = some (.text value) := by
    refine eq_text_of_alike ?_
    rw [← find?_set_self (keyParts_ne_nil key) carries.done]
    exact alike_find? _ alike
  refine ⟨_, _, back, leads, carries.isRead leads, logged, read, found, ?_, ?_⟩
  · intro keys above below
    rw [← find?_set_of_apart carries.done above below]
    exact alike_find? keys alike
  · intro apart
    have stands := logged.stands (stands_write ⟨leads, apart⟩ (Text.Utf8.encode text.toList))
    have same : (afterSetting folder bench (key, value)).surroundings = bench.surroundings :=
      logged.surroundings
    refine outcome_getValue_of_text (load_of_read stands.toLeads ?_) found
    rw [same]
    exact ⟨(carries.isRead leads).reads, read⟩

/-- A setting that is reported as done is found again, with nothing beside it lost; one that is not
reported changes nothing but the log. -/
theorem setting_agrees
    (readsBack : ∀ new, CarriesOut bench folder key value new → ReadsBack bench.surroundings.format new) :
    (ReportsSet bench (afterSetting folder bench (key, value)) key value →
      ∃ place octets mode written old back, IsSet bench (afterSetting folder bench (key, value)) folder key
        value place octets mode written old back) ∧
      (¬ReportsSet bench (afterSetting folder bench (key, value)) key value →
        Logged bench (afterSetting folder bench (key, value))) := by
  by_cases carried : ∃ place octets mode new,
      Leads bench.tree bench.surroundings (path folder) (.taken place (.file octets mode)) ∧
        CarriesOut bench folder key value new
  · obtain ⟨place, octets, mode, new, leads, carries⟩ := carried
    have back := readsBack new carries
    refine ⟨fun _ => ⟨place, octets, mode, isSet_of_carriesOut leads carries back⟩, fun silent => ?_⟩
    obtain ⟨text, -, printed, -⟩ := back
    exact absurd (reportsSet_of_carriesOut leads carries printed) silent
  · have refused := not_reportsSet_of_refused fun place octets mode new leads carries =>
      carried ⟨place, octets, mode, new, leads, carries⟩
    exact ⟨fun reports => absurd reports refused.1, fun _ => refused.2⟩

end Report

theorem setting_agrees_name :
    ReportsSet versionBench (afterSetting "." versionBench ("project.name", "App")) "project.name" "App" ∧
      ∃ place octets mode written old back,
        IsSet versionBench (afterSetting "." versionBench ("project.name", "App")) "." "project.name" "App"
          place octets mode written old back := by
  have carries := carriesOut_versionBench (by decide) set_name
  have readsBack : ∀ new, CarriesOut versionBench "." "project.name" "App" new →
      ReadsBack Toml.format new := by
    intro new again
    rw [eq_of_carriesOut again set_name]
    exact readsBack_name
  obtain ⟨text, -, printed, -⟩ := readsBack_name
  have reports := reportsSet_of_carriesOut (leads_project _) carries printed
  exact ⟨reports, (setting_agrees readsBack).1 reports⟩

end SideFile

end JuceWorkbench
