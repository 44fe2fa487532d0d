import Mathlib.Algebra.Ring.Int.Defs
import Mathlib.Algebra.Ring.Nat
import JuceWorkbench.Project.Metadata
import JuceWorkbench.Proofs.Path.Normal

/-! Making metadata. What is accepted is in normal form: a name, a normal absolute folder, a kind and
a build type, none of which the making changes again. So metadata can be made again from what they
hold, in any folder, and their build type can be changed without changing anything else. What is no
build type is refused with its text in the message, so a value without a text is refused for that. -/

namespace JuceWorkbench

def Datum.text? : Datum → Option String
  | .text value => some value
  | _ => none

theorem Datum.isOverlong_iff (n : Int) : isOverlong n = true ↔ 10 ^ Numeral.maxDigits ≤ n.natAbs := by
  have digits : (toString n.natAbs).length ≤ Numeral.maxDigits ↔ n.natAbs < 10 ^ Numeral.maxDigits :=
    Nat.length_repr_le_iff (by decide)
  unfold isOverlong
  rw [decide_eq_true_iff, ← Nat.not_le, digits, Nat.not_lt]

/-- A whole number has a text unless it has too many digits. -/
theorem Datum.shownFault?_integer (n : Int) : shownFault? (.integer n) =
    if 10 ^ Numeral.maxDigits ≤ n.natAbs then some .tooManyDigits else none := by
  simp only [← isOverlong_iff]
  rfl

namespace Project

def Raw.text? : Raw → Option String
  | .datum value => value.text?
  | .known _ => none

theorem Raw.text?_eq_some_iff {value : Raw} {text : String} :
    value.text? = some text ↔ value = .text text := by
  rcases value with value | kind
  · cases value <;> simp [Raw.text?, Datum.text?, Raw.text]
  · simp [Raw.text?, Raw.text]

theorem Raw.ne_text {value : Raw} (none : value.text? = none) (word : String) : value ≠ .text word := by
  rintro rfl
  cases none

theorem Metadata.name?_eq (value : Raw) : Metadata.name? value = value.text?.bind fun name =>
    if Text.trim name.toList = [] then none else some name := by
  rcases value with value | kind
  · cases value <;> rfl
  · rfl

theorem Metadata.name?_eq_some_iff {value : Raw} {name : String} : Metadata.name? value = some name ↔
    value = .text name ∧ Text.trim name.toList ≠ [] := by
  rw [Metadata.name?_eq, Option.bind_eq_some_iff, ← Raw.text?_eq_some_iff]
  constructor
  · rintro ⟨text, given, named⟩
    split at named
    · cases named
    · rename_i filled
      cases named
      exact ⟨given, filled⟩
  · rintro ⟨given, filled⟩
    exact ⟨name, given, if_neg filled⟩

theorem BuildType.parse?_eq (value : Raw) :
    BuildType.parse? value = value.text?.bind BuildType.ofWord? := by
  rcases value with value | kind
  · cases value <;> rfl
  · rfl

theorem Kind.parse_eq (value : Datum) :
    Kind.parse value = (value.text?.map Kind.ofWord).getD .unknown := by
  cases value <;> rfl

theorem Metadata.toOption_make_congr (here : String) (root : Raw) {name name' kind kind' type type' : Raw}
    (names : name.text? = name'.text?) (kinds : Kind.parse kind = Kind.parse kind')
    (types : type.text? = type'.text?) :
    (Metadata.make here name root kind type).toOption =
      (Metadata.make here name' root kind' type').toOption := by
  unfold Metadata.make
  rw [Metadata.name?_eq, Metadata.name?_eq, BuildType.parse?_eq, BuildType.parse?_eq, names, kinds, types]
  split
  · rfl
  · split <;> rfl

theorem Metadata.make_cases {here : String} {name root kind type : Raw} {made : Metadata}
    (makes : Metadata.make here name root kind type = .ok made) :
    Metadata.name? name = some made.name ∧ BuildType.parse? type = some made.buildType ∧
      ∃ folder, root = .text folder ∧
        made = ⟨made.name, Path.absolute here folder, Kind.parse kind, made.buildType⟩ := by
  unfold Metadata.make at makes
  split at makes
  · cases makes
  · rename_i named
    split at makes
    · cases makes
    · rename_i typed
      split at makes
      · cases makes
        exact ⟨named, typed, _, rfl, rfl⟩
      · cases makes

/-! Build types and their words. -/

namespace BuildType

theorem ofWord?_eq_some_iff {word : String} {type : BuildType} :
    ofWord? word = some type ↔ word = type.word := by
  constructor
  · intro found
    have same := List.find?_some found
    rw [beq_iff_eq] at same
    exact same.symm
  · rintro rfl
    exact ofWord?_word type

theorem mem_words_iff {word : String} : word ∈ buildTypeWords ↔ ∃ type, ofWord? word = some type := by
  simp only [ofWord?_eq_some_iff, ← all_words, List.mem_map]
  constructor
  · rintro ⟨type, -, rfl⟩
    exact ⟨type, rfl⟩
  · rintro ⟨type, rfl⟩
    exact ⟨type, by cases type <;> decide, rfl⟩

end BuildType

namespace Metadata

def values (metadata : Metadata) : List Raw :=
  [.text metadata.name, .text metadata.root, .known metadata.kind, .text metadata.buildType.word]

/-- Metadata that their own checks leave as they are. -/
structure IsNormal (metadata : Metadata) : Prop where
  named : Text.trim metadata.name.toList ≠ []
  rooted : Path.IsNormal metadata.root

structure IsFor (changed metadata : Metadata) (word : String) : Prop where
  name : changed.name = metadata.name
  root : changed.root = metadata.root
  kind : changed.kind = metadata.kind
  buildFolder : changed.buildFolder = metadata.buildFolder
  sourceFolder : changed.sourceFolder = metadata.sourceFolder
  buildType : changed.buildType.word = word

theorem exists_make_of_ofValues {here : String} {given : List Raw} {metadata : Metadata}
    (makes : ofValues here given = .ok metadata) :
    ∃ name root kind type, make here name root kind type = .ok metadata := by
  unfold ofValues at makes
  split at makes
  · exact ⟨_, _, _, _, makes⟩
  · exact ⟨_, _, _, _, makes⟩
  · exact ⟨_, _, _, _, makes⟩
  · cases makes

theorem isNormal_of_make {here : String} {name root kind type : Raw} {metadata : Metadata}
    (rooted : Path.isAbsolute here = true) (makes : make here name root kind type = .ok metadata) :
    metadata.IsNormal := by
  obtain ⟨named, -, folder, -, whole⟩ := make_cases makes
  refine ⟨(name?_eq_some_iff.1 named).2, ?_⟩
  rw [whole]
  exact Path.isNormal_absolute rooted folder

theorem IsNormal.name?_name {metadata : Metadata} (normal : metadata.IsNormal) :
    name? (.text metadata.name) = some metadata.name :=
  name?_eq_some_iff.2 ⟨rfl, normal.named⟩

theorem IsNormal.withBuildType_eq {metadata : Metadata} (normal : metadata.IsNormal) (here : String)
    (value : Raw) : withBuildType here metadata value =
      match BuildType.parse? value with
      | some type => .ok { metadata with buildType := type }
      | none => .error (value.shownFault?.getD (.invalidBuildType value.shown)) := by
  -- a kind stays as it is, and a normal folder is the same from everywhere
  unfold withBuildType make
  rw [normal.name?_name, Raw.text]
  dsimp only
  rw [normal.rooted.absolute_eq here, Kind.parse]
  cases BuildType.parse? value with
  | none => rfl
  | some type => rfl

theorem IsNormal.withBuildType_word {metadata : Metadata} (normal : metadata.IsNormal) (here : String)
    (type : BuildType) :
    withBuildType here metadata (.text type.word) = .ok { metadata with buildType := type } := by
  rw [normal.withBuildType_eq, Raw.text, BuildType.parse?, BuildType.ofWord?_word]

theorem IsNormal.ofValues_values {metadata : Metadata} (normal : metadata.IsNormal) (here : String) :
    ofValues here metadata.values = .ok metadata :=
  normal.withBuildType_word here metadata.buildType

theorem parse?_eq_none_of_unknown {value : Raw} (unknown : ∀ word ∈ buildTypeWords, value ≠ .text word) :
    BuildType.parse? value = none := by
  rw [BuildType.parse?_eq, Option.eq_none_iff_forall_ne_some]
  intro type found
  obtain ⟨word, given, named⟩ := Option.bind_eq_some_iff.1 found
  exact unknown word (BuildType.mem_words_iff.2 ⟨type, named⟩) (Raw.text?_eq_some_iff.1 given)

theorem IsNormal.withBuildType_unknown {metadata : Metadata} (normal : metadata.IsNormal) (here : String)
    {value : Raw} (unknown : ∀ word ∈ buildTypeWords, value ≠ .text word) :
    withBuildType here metadata value =
      .error (value.shownFault?.getD (.invalidBuildType value.shown)) := by
  rw [normal.withBuildType_eq, parse?_eq_none_of_unknown unknown]

/-- Metadata that were accepted stay as they are. Their folder is a normal absolute path; made from
their own fields, in whatever folder, they are the same again; each of the four words gives the same
project with that build type. Every other value is refused: as an unknown build type if it has a text
to be shown, and else for the reason why it has none. -/
theorem ofValues_staysNormal {here : String} {given : List Raw} {metadata : Metadata}
    (rooted : Path.isAbsolute here = true) (makes : ofValues here given = .ok metadata) :
    Path.IsNormal metadata.root ∧ ∀ elsewhere : String,
      ofValues elsewhere metadata.values = .ok metadata ∧
      (∀ word ∈ buildTypeWords, ∃ changed,
        withBuildType elsewhere metadata (.text word) = .ok changed ∧ changed.IsFor metadata word) ∧
      ∀ value : Raw, (∀ word ∈ buildTypeWords, value ≠ .text word) →
        ∃ fault, withBuildType elsewhere metadata value = .error fault ∧
          (value.shownFault? = none → fault = .invalidBuildType value.shown) ∧
          ∀ other, value.shownFault? = some other → fault = other := by
  obtain ⟨name, root, kind, type, made⟩ := exists_make_of_ofValues makes
  have normal := isNormal_of_make rooted made
  refine ⟨normal.rooted, fun elsewhere => ⟨normal.ofValues_values elsewhere, ?_, ?_⟩⟩
  · intro word known
    obtain ⟨type, found⟩ := BuildType.mem_words_iff.1 known
    obtain rfl := BuildType.ofWord?_eq_some_iff.1 found
    exact ⟨_, normal.withBuildType_word elsewhere type, rfl, rfl, rfl, rfl, rfl, rfl⟩
  · intro value unknown
    refine ⟨_, normal.withBuildType_unknown elsewhere unknown, ?_, ?_⟩
    · intro shown
      rw [shown, Option.getD_none]
    · intro other broken
      rw [broken, Option.getD_some]

theorem ofValues_staysNormal_nested :
    Path.isAbsolute "/W" = true ∧
      ofValues "/W" [.text " x ", .text "//a/.././/b/", .datum .null, .text "Release"] =
        .ok ⟨" x ", "//b", .unknown, .release⟩ ∧
      Path.IsNormal "//b" ∧
      ofValues "elsewhere" [.text " x ", .text "//b", .known .unknown, .text "Release"] =
        .ok ⟨" x ", "//b", .unknown, .release⟩ ∧
      ∃ fault, withBuildType "elsewhere" ⟨" x ", "//b", .unknown, .release⟩ (.text "Fast") =
        .error fault ∧ fault = .invalidBuildType "Fast" := by
  have rooted : Path.isAbsolute "/W" = true := by decide
  have makes : ofValues "/W" [.text " x ", .text "//a/.././/b/", .datum .null, .text "Release"] =
      .ok ⟨" x ", "//b", .unknown, .release⟩ := rfl
  obtain ⟨normal, stays⟩ := ofValues_staysNormal rooted makes
  obtain ⟨again, -, refused⟩ := stays "elsewhere"
  have unknown : ∀ word ∈ buildTypeWords, Raw.text "Fast" ≠ .text word := by simp [buildTypeWords, Raw.text]
  obtain ⟨fault, refuses, shown, -⟩ := refused (.text "Fast") unknown
  exact ⟨rooted, makes, normal, again, fault, refuses, shown rfl⟩

/-- A whole number of 5001 digits is no build type and has no text for the message; neither has a moment
whose offset is a whole day. -/
theorem withBuildType_unshown :
    let metadata : Metadata := ⟨"App", "/W", .unknown, .debug⟩
    let long : Raw := .datum (.integer (10 ^ 5000))
    let far : Raw := .datum (.moment ⟨⟨1979, 5, 27⟩, ⟨7, 32, 0, 0⟩, some 1440⟩)
    ofValues "/W" [.text "App", .text "."] = .ok metadata ∧
      (∀ word ∈ buildTypeWords, long ≠ .text word ∧ far ≠ .text word) ∧
      withBuildType "/W" metadata long = .error .tooManyDigits ∧
      withBuildType "/W" metadata far = .error .offsetTooFar ∧
      Fault.tooManyDigits.kind ≠ .invalidConfiguration ∧ Fault.offsetTooFar.kind ≠ .invalidConfiguration := by
  intro metadata long far
  have makes : ofValues "/W" [.text "App", .text "."] = .ok metadata := rfl
  have normal : metadata.IsNormal := by
    obtain ⟨name, root, kind, type, made⟩ := exists_make_of_ofValues makes
    exact isNormal_of_make (by decide) made
  have overlong : long.shownFault? = some .tooManyDigits := by
    have many : 10 ^ Numeral.maxDigits ≤ ((10 : Int) ^ 5000).natAbs := by
      rw [Int.natAbs_pow, show (10 : Int).natAbs = 10 from rfl]
      apply Nat.pow_le_pow_right <;> decide
    exact (Datum.shownFault?_integer _).trans (if_pos many)
  have distant : far.shownFault? = some .offsetTooFar := by
    unfold far Raw.shownFault? Datum.shownFault?
    exact if_pos rfl
  have unknown : ∀ word ∈ buildTypeWords, long ≠ .text word ∧ far ≠ .text word :=
    fun word _ => ⟨Raw.ne_text rfl word, Raw.ne_text rfl word⟩
  refine ⟨makes, unknown, ?_, ?_, by decide, by decide⟩
  · rw [normal.withBuildType_unknown "/W" fun word known => (unknown word known).1, overlong, Option.getD_some]
  · rw [normal.withBuildType_unknown "/W" fun word known => (unknown word known).2, distant, Option.getD_some]

end Metadata
end Project
end JuceWorkbench
