import JuceWorkbench.Script.Scan
import JuceWorkbench.Script.Listing

/-! Registering a source file in a build script. In this order: an entry that is already
listed changes nothing; a pair of marker lines takes the entry right before the end marker;
a `target_sources` call over several lines takes it into its `PRIVATE` list; else a managed
block is appended. Lines are only ever added: `Insertion.apply` keeps every old line. -/

namespace JuceWorkbench.Script

def beginMarker : List Char := "# JUCEBUILDER_SOURCES_BEGIN".toList
def endMarker : List Char := "# JUCEBUILDER_SOURCES_END".toList
def managedComment : List Char := "# jucebuilder managed sources".toList
def callName : List Char := "target_sources".toList
def privateLabel : List Char := "PRIVATE".toList
def sectionLabels : List (List Char) := [privateLabel, "PUBLIC".toList, "INTERFACE".toList]
def indentStep : List Char := "    ".toList

inductive Strategy
  | present
  | markers
  | targetSources
  | append
  deriving DecidableEq, Repr

inductive Outcome
  | updated
  | unchanged
  | appended
  deriving DecidableEq, Repr

def Strategy.outcome : Strategy → Outcome
  | .present => .unchanged
  | .markers => .updated
  | .targetSources => .updated
  | .append => .appended

def Strategy.word : Strategy → String
  | .present => "present"
  | .markers => "markers"
  | .targetSources => "target_sources"
  | .append => "append"

def Outcome.word : Outcome → String
  | .updated => "updated"
  | .unchanged => "unchanged"
  | .appended => "appended"

/-- What the user is told when no marker pair led the way. -/
def Strategy.warning? : Strategy → Option String
  | .targetSources =>
    some "CMake markers not found; used fallback parsing for source insertion."
  | .append =>
    some "Could not find a target_sources block; appended a new jucebuilder managed block."
  | _ => none

structure Injection where
  text : List Char
  strategy : Strategy
  deriving DecidableEq, Repr

def Injection.outcome (injection : Injection) : Outcome := injection.strategy.outcome
def Injection.warning? (injection : Injection) : Option String := injection.strategy.warning?
def Injection.changed (injection : Injection) : Bool := injection.outcome != .unchanged

/-- Lines to be put in front of the line at `index`. -/
structure Insertion where
  index : Nat
  added : List (List Char)
  deriving DecidableEq, Repr

def Insertion.apply (insertion : Insertion) (lines : List (List Char)) : List (List Char) :=
  lines.take insertion.index ++ insertion.added ++ lines.drop insertion.index

def startsWithLabel (line : List Char) : Bool :=
  sectionLabels.any fun label => label.isPrefixOf (Text.trimLeft line)

def startsPrivate (line : List Char) : Bool := privateLabel.isPrefixOf (Text.trimLeft line)

/-- Whether a line ends the list of entries above it: a closing parenthesis or the label of
the next section. -/
def endsList (line : List Char) : Bool :=
  [')'].isPrefixOf (Text.trimLeft line) || startsWithLabel line

def opensCall (line : List Char) : Bool :=
  let rest := Text.trimLeft line
  callName.isPrefixOf rest &&
    ['('].isPrefixOf (Text.trimLeft (rest.drop callName.length))

/-- The entry right before the first end marker, when the first begin marker is above it. -/
def betweenMarkers? (lines : List (List Char)) (entry newline : List Char) : Option Insertion := do
  let opening ← findFrom? (Text.contains · beginMarker) lines 0
  let closing ← findFrom? (Text.contains · endMarker) lines 0
  if closing ≤ opening then none
  else
    let margin := indentOf (lines.getD closing [])
    some ⟨closing, [margin ++ entry ++ newline]⟩

/-- The first call whose block closes on a later line, as the indices of its first and last
line. A call that never closes ends the search. -/
def callBlock? : List (List Char) → Option (Nat × Nat)
  | [] => none
  | line :: more =>
    let later := (callBlock? more).map fun block => (block.1 + 1, block.2 + 1)
    if opensCall line then
      match closesAfter? 0 (line :: more) with
      | none => none
      | some 0 => later
      | some (n + 1) => some (0, n + 1)
    else later

/-- The entry at the end of the list under the label on line `label`, in a block that
closes on line `closing`. It takes the indentation of the first entry of the list. -/
def intoPrivateList (lines : List (List Char)) (label closing : Nat) (entry newline : List Char) :
    Insertion :=
  let index := label + 1 + ((lines.take closing).drop (label + 1)).findIdx endsList
  let margin :=
    match findFrom? (fun line => !(Text.trim line).isEmpty) (lines.take index) (label + 1) with
    | some sibling => indentOf (lines.getD sibling [])
    | none => indentOf (lines.getD label []) ++ indentStep
  ⟨index, [margin ++ entry ++ newline]⟩

/-- The entry in the private list of the first call over several lines, under a new label
when the call has none. -/
def intoCall? (lines : List (List Char)) (entry newline : List Char) : Option Insertion :=
  (callBlock? lines).map fun (opening, closing) =>
    match findFrom? startsPrivate (lines.take closing) (opening + 1) with
    | some label => intoPrivateList lines label closing entry newline
    | none =>
      let margin := indentOf (lines.getD opening []) ++ indentStep
      ⟨opening + 1, [margin ++ privateLabel ++ newline, margin ++ indentStep ++ entry ++ newline]⟩

def managedBlock (entry newline : List Char) : List (List Char) :=
  [managedComment, "target_sources($\x7bPROJECT_NAME\x7d".toList, indentStep ++ privateLabel,
    indentStep ++ indentStep ++ beginMarker, indentStep ++ indentStep ++ entry,
    indentStep ++ indentStep ++ endMarker, [')']].map (· ++ newline)

/-- What stands between a document and a block appended to it: the line ending that the last
line lacks, then a blank line. -/
def separation (document newline : List Char) : List Char :=
  match document.getLast? with
  | none => []
  | some c => if c = '\n' ∨ c = '\r' then newline else newline ++ newline

def place (document entry : List Char) : Injection :=
  if isListed document entry then ⟨document, .present⟩
  else
    let lines := Text.lines document
    let newline := Text.newlineOf lines
    match betweenMarkers? lines entry newline with
    | some insertion => ⟨(insertion.apply lines).flatten, .markers⟩
    | none =>
      match intoCall? lines entry newline with
      | some insertion => ⟨(insertion.apply lines).flatten, .targetSources⟩
      | none =>
        ⟨document ++ separation document newline ++ (managedBlock entry newline).flatten, .append⟩

/-- An entry can be registered when it is not blank and stands on one line. -/
def IsEntry (entry : List Char) : Prop := Text.trim entry ≠ [] ∧ (Text.lines entry).length ≤ 1

instance (entry : List Char) : Decidable (IsEntry entry) := inferInstanceAs (Decidable (_ ∧ _))

/-- Registers `entry`, without the white space at its ends, in `document`; none when it is
no entry. -/
def inject (document entry : List Char) : Option Injection :=
  if IsEntry entry then some (place document (Text.trim entry)) else none

theorem inject_isSome_iff (document entry : List Char) :
    (inject document entry).isSome = true ↔ IsEntry entry := by
  unfold inject
  split <;> simp_all

end JuceWorkbench.Script
