import JuceWorkbench.CommandLine.Suggestion
import JuceWorkbench.Text.Literal

/-! The options and arguments of one command. Options and arguments may be mixed, two hyphens
alone end the options, a value may follow its option directly, behind an equals sign or as
the next word, and the last of several values counts. -/

namespace JuceWorkbench.CommandLine

/-- An option by its names, the long ones first; its values may be limited to some words. -/
structure OptionSpec where
  names : List String
  takesValue : Bool
  choices : List String := []
  deriving DecidableEq, Repr

structure ArgumentSpec where
  label : String
  choices : List String := []
  deriving DecidableEq, Repr

/-- A command by the words that lead to it, the shape of what follows them, its options and
its arguments. A group takes another command and no arguments. -/
structure CommandSpec where
  words : List String
  shape : String
  options : List OptionSpec := []
  arguments : List ArgumentSpec := []
  isGroup : Bool := false
  /-- The names of the commands of a group. -/
  members : List String := []
  deriving DecidableEq, Repr

def helpOption : OptionSpec := { names := ["--help"], takesValue := false }

inductive UsageFault
  | noSuchCommand (name : String) (close : List String)
  | missingCommand
  | noSuchOption (name : String) (close : List String)
  | missingArgument (argument : ArgumentSpec)
  | extraArguments (words : List String)
  | invalidChoice (label value : String) (choices : List String)
  | needsValue (name : String)
  | takesNoValue (name : String)
  | helpWanted
  deriving DecidableEq, Repr

def notAmong (value : String) (choices : List String) : String :=
  Text.quoted value ++ " is not one of " ++
    String.intercalate ", " (choices.map fun choice => "'" ++ choice ++ "'") ++ "."

def meant (close : List String) : String :=
  let names := String.intercalate ", " (close.map Text.quoted)
  match close with
  | [] => ""
  | [_] => " Did you mean " ++ names ++ "?"
  | _ => " (Did you mean one of: " ++ names ++ "?)"

def UsageFault.message : UsageFault → String
  | .noSuchCommand name close => "No such command " ++ Text.quoted name ++ "." ++ meant close
  | .missingCommand => "Missing command."
  | .noSuchOption name close => "No such option " ++ Text.quoted name ++ "." ++ meant close
  | .missingArgument argument =>
    "Missing argument '" ++ argument.label ++ "'." ++
      (if argument.choices.isEmpty then ""
        else " Choose from:" ++ String.intercalate "," (argument.choices.map ("\n\t" ++ ·)))
  | .extraArguments words =>
    "Got unexpected extra argument" ++ (if words.length = 1 then "" else "s") ++ " (" ++
      String.intercalate " " words ++ ")"
  | .invalidChoice label value choices =>
    "Invalid value for " ++ label ++ ": " ++ notAmong value choices
  | .needsValue name => "Option " ++ Text.quoted name ++ " requires an argument."
  | .takesNoValue name => "Option " ++ Text.quoted name ++ " does not take a value."
  | .helpWanted => ""

/-- Whether the fault is reported without the usage of its command. -/
def UsageFault.isBrief : UsageFault → Bool
  | .needsValue _ => true
  | .takesNoValue _ => true
  | _ => false

/-- An option with the value it was given; a flag has the empty value. -/
structure Given where
  option : OptionSpec
  value : String
  deriving DecidableEq, Repr

/-- An option that was read from a word, under the name it was given by; without a value it
still waits for one. -/
structure Reading where
  given : List Given
  waiting : Option (OptionSpec × String) := none
  deriving Repr

namespace CommandSpec

def allOptions (command : CommandSpec) : List OptionSpec := command.options ++ [helpOption]

def option? (command : CommandSpec) (name : String) : Option OptionSpec :=
  command.allOptions.find? fun option => option.names.contains name

def isLong (name : List Char) : Bool := "--".toList.isPrefixOf name

def closeOptions (command : CommandSpec) (name : String) : List String :=
  suggestions name
    ((command.allOptions.flatMap (·.names)).filter fun name => isLong name.toList)

def readShort (command : CommandSpec) : List Char → Except UsageFault Reading
  | [] => .ok { given := [] }
  | c :: rest =>
    let name := String.ofList ['-', c]
    match command.option? name with
    | none => .error (.noSuchOption name [])
    | some option =>
      if option.takesValue then
        if rest.isEmpty then .ok { given := [], waiting := some (option, name) }
        else .ok { given := [⟨option, String.ofList rest⟩] }
      else do
        let reading ← command.readShort rest
        .ok { reading with given := ⟨option, ""⟩ :: reading.given }

def readOption (command : CommandSpec) (word : String) : Except UsageFault Reading :=
  let letters := word.toList
  let name := String.ofList (letters.takeWhile (· ≠ '='))
  if isLong letters then
    match command.option? name with
    | none => .error (.noSuchOption name (command.closeOptions name))
    | some option =>
      match letters.dropWhile (· ≠ '=') with
      | _ :: value =>
        if option.takesValue then .ok { given := [⟨option, String.ofList value⟩] }
        else .error (.takesNoValue name)
      | [] =>
        if option.takesValue then .ok { given := [], waiting := some (option, name) }
        else .ok { given := [⟨option, ""⟩] }
  else command.readShort letters.tail

/-- Parts the words after a command into the options given and the other words. Those of a
group end at the first word that is no option. -/
def part (command : CommandSpec) : List String → Except UsageFault (List Given × List String)
  | [] => .ok ([], [])
  | word :: more =>
    if word = "--" then .ok ([], more)
    else if ['-'].isPrefixOf word.toList ∧ 1 < word.length then do
      let reading ← command.readOption word
      match reading.waiting with
      | none => do
        let (given, rest) ← command.part more
        .ok (reading.given ++ given, rest)
      | some (option, name) =>
        match more with
        | [] => .error (.needsValue name)
        | value :: more => do
          let (given, rest) ← command.part more
          .ok (reading.given ++ ⟨option, value⟩ :: given, rest)
    else if command.isGroup then .ok ([], word :: more)
    else do
      let (given, rest) ← command.part more
      .ok (given, word :: rest)

end CommandSpec

structure Accepted where
  given : List Given
  arguments : List String
  deriving Repr

def lastValue (given : List Given) (option : OptionSpec) : Option String :=
  (given.reverse.find? fun entry => entry.option == option).map (·.value)

def Accepted.value? (accepted : Accepted) (name : String) : Option String :=
  (accepted.given.reverse.find? fun entry => entry.option.names.contains name).map (·.value)

def Accepted.isSet (accepted : Accepted) (name : String) : Bool := (accepted.value? name).isSome

def checkChoice (label value : String) (choices : List String) : Except UsageFault Unit :=
  if choices.isEmpty ∨ choices.contains value then .ok ()
  else .error (.invalidChoice label value choices)

def OptionSpec.label (option : OptionSpec) : String :=
  String.intercalate " / " (option.names.map fun name => "'" ++ name ++ "'")

/-- Gives the arguments of a command their words; what is left over is given back. -/
def takeArguments : List ArgumentSpec → List String → Except UsageFault (List String × List String)
  | [], words => .ok ([], words)
  | argument :: _, [] => .error (.missingArgument argument)
  | argument :: more, word :: words => do
    checkChoice ("'" ++ argument.label ++ "'") word argument.choices
    let (taken, rest) ← takeArguments more words
    .ok (word :: taken, rest)

/-- Checks the options in the order they were given, then the arguments. -/
def CommandSpec.accept (command : CommandSpec) (given : List Given) (words : List String) :
    Except UsageFault Accepted := do
  if given.any (·.option == helpOption) then throw .helpWanted
  given.forM fun entry => checkChoice entry.option.label
    ((lastValue given entry.option).getD "") entry.option.choices
  let (taken, rest) ← takeArguments command.arguments words
  if rest.isEmpty then .ok ⟨given, taken⟩ else .error (.extraArguments rest)

end JuceWorkbench.CommandLine
