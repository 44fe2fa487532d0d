import JuceWorkbench.SideFile

/-! What a side file keeps when a build type is put into its tables. Values are compared key by
key, since a document that is written sorts the entries of its tables. -/

namespace JuceWorkbench

namespace Datum

mutual
/-- Whether two values hold the same; the order of the entries of a table does not count. -/
def isAlike : Datum → Datum → Bool
  | .null, .null => true
  | .boolean value, .boolean other => value == other
  | .integer value, .integer other => value == other
  | .real value, .real other => value == other
  | .text value, .text other => value == other
  | .octets value, .octets other => value == other
  | .date value, .date other => value == other
  | .time value, .time other => value == other
  | .moment value, .moment other => value == other
  | .list items, .list others => itemsAlike items others
  | .table entries, .table others =>
    entriesAlike entries others && others.all fun entry => (Entries.get? entries entry.1).isSome
  | _, _ => false

def itemsAlike : List Datum → List Datum → Bool
  | [], [] => true
  | item :: more, other :: others => isAlike item other && itemsAlike more others
  | _, _ => false

def entriesAlike : List (String × Datum) → List (String × Datum) → Bool
  | [], _ => true
  | entry :: more, others =>
    (match Entries.get? others entry.1 with
      | some other => isAlike entry.2 other
      | none => false) && entriesAlike more others
end

abbrev Alike : Option Datum → Option Datum → Prop := Option.Rel fun a b => a.isAlike b = true

theorem alike_get?_of_entriesAlike {entries others : Entries} (alike : entriesAlike entries others = true)
    {key : String} {value : Datum} (there : entries.get? key = some value) :
    ∃ other, others.get? key = some other ∧ value.isAlike other = true := by
  induction entries with
  | nil => cases there
  | cons entry more ih =>
    rw [entriesAlike, Bool.and_eq_true] at alike
    by_cases same : entry.1 = key
    · have first : entry.2 = value := by simpa [Entries.get?, same] using there
      rw [← same, ← first]
      have like := alike.1
      split at like
      · rename_i other found
        exact ⟨other, found, like⟩
      · cases like
    · refine ih alike.2 ?_
      simpa [Entries.get?, same] using there

theorem alike_get? {entries others : Entries} (alike : (table entries).isAlike (.table others) = true)
    (key : String) : Alike (entries.get? key) (others.get? key) := by
  rw [isAlike, Bool.and_eq_true] at alike
  cases there : entries.get? key with
  | some value =>
    obtain ⟨other, found, like⟩ := alike_get?_of_entriesAlike alike.1 there
    rw [found]
    exact .some like
  | none =>
    cases found : others.get? key with
    | none => exact .none
    | some other =>
      obtain ⟨entry, hit, -⟩ := Option.map_eq_some_iff.1 found
      have named : entry.1 = key := by simpa using List.find?_some hit
      have known := List.all_eq_true.1 alike.2 entry (List.mem_of_find?_eq_some hit)
      rw [named, there] at known
      cases known

theorem Alike.bind {value other : Option Datum} (alike : Alike value other)
    {next : Datum → Option Datum}
    (goes : ∀ {a b : Datum}, a.isAlike b = true → Alike (next a) (next b)) :
    Alike (value.bind next) (other.bind next) := by
  cases alike with
  | none => exact .none
  | some like => exact goes like

end Datum

namespace SideFile
open Datum

theorem alike_find? (keys : List String) {value other : Datum} (alike : value.isAlike other = true) :
    Alike (find? keys value) (find? keys other) := by
  induction keys generalizing value other with
  | nil => exact .some alike
  | cons key keys ih =>
    cases value <;> cases other
    case table.table entries others => exact (alike_get? alike key).bind ih
    all_goals first | exact .none | cases alike

/-- The keys on the way to a value that is not touched by a build type or by the first version. -/
structure IsKept (entries : Entries) (keys : List String) : Prop where
  outside : ¬keys <+: ["build", "type"]
  elsewhere : ¬["build", "type"] <+: keys
  versioned : keys = ["config_version"] → (entries.get? "config_version").isSome = true

theorem find?_cons (key : String) (keys : List String) (entries : Entries) :
    find? (key :: keys) (.table entries) = (entries.get? key).bind (find? keys) := rfl

theorem find?_single (key : String) (entries : Entries) :
    find? [key] (.table entries) = entries.get? key := by
  rw [find?_cons]
  cases entries.get? key <;> rfl

def versioned (entries : Entries) : Entries :=
  if (entries.get? "config_version").isSome then entries
  else entries.put "config_version" (.integer currentVersion)

theorem get?_versioned (entries : Entries) {key : String} (other : key ≠ "config_version") :
    (versioned entries).get? key = entries.get? key := by
  unfold versioned
  split
  · rfl
  · exact Entries.get?_put_of_ne entries _ other

theorem find?_versioned {entries : Entries} {keys : List String} (kept : IsKept entries keys) :
    find? keys (.table (versioned entries)) = find? keys (.table entries) := by
  cases keys with
  | nil => exact absurd List.nil_prefix kept.outside
  | cons key keys =>
    rw [find?_cons, find?_cons]
    by_cases version : key = "config_version"
    · subst version
      unfold versioned
      split
      · rfl
      · rename_i missing
        rw [Bool.not_eq_true, Option.isSome_eq_false_iff, Option.isNone_iff_eq_none] at missing
        rw [Entries.get?_put_self, missing]
        cases keys with
        | nil =>
          have there := kept.versioned rfl
          rw [missing] at there
          cases there
        | cons next keys => rfl
    · rw [get?_versioned entries version]

theorem withBuildType_cases {entries new : Entries} {buildType : Datum}
    (done : withBuildType entries buildType = .ok new) :
    ∃ build : Entries, new = (versioned entries).put "build" (.table (build.put "type" buildType)) ∧
      ((versioned entries).get? "build" = some (.table build) ∨
        (versioned entries).get? "build" = none ∧ build = []) := by
  have version : (if (entries.get? "config_version").isSome then entries
    else entries.put "config_version" (.integer currentVersion)) = versioned entries := rfl
  unfold withBuildType at done
  dsimp only at done
  rw [version] at done
  split at done
  · rename_i missing
    cases done
    exact ⟨[], rfl, Or.inr ⟨missing, rfl⟩⟩
  · rename_i build there
    cases done
    exact ⟨build, rfl, Or.inl there⟩
  · cases done

/-- Only the build type and a missing version are touched. -/
theorem find?_withBuildType {entries new : Entries} {buildType : Datum}
    (done : withBuildType entries buildType = .ok new) {keys : List String}
    (kept : IsKept entries keys) : find? keys (.table new) = find? keys (.table entries) := by
  obtain ⟨build, rfl, old⟩ := withBuildType_cases done
  rw [← find?_versioned kept]
  cases keys with
  | nil => exact absurd List.nil_prefix kept.outside
  | cons key keys =>
    rw [find?_cons, find?_cons]
    by_cases inBuild : key = "build"
    · subst inBuild
      rw [Entries.get?_put_self, Option.bind_some]
      cases keys with
      | nil => exact absurd ⟨["type"], rfl⟩ kept.outside
      | cons next keys =>
        have other : next ≠ "type" := by
          rintro rfl
          exact kept.elsewhere ⟨keys, rfl⟩
        rw [find?_cons, Entries.get?_put_of_ne _ _ other]
        rcases old with there | ⟨missing, rfl⟩
        · rw [there, Option.bind_some, find?_cons]
        · rw [missing]
          rfl
    · rw [Entries.get?_put_of_ne _ _ inBuild]

end SideFile

end JuceWorkbench
