import JuceWorkbench.Datum
import JuceWorkbench.Platform
import JuceWorkbench.Text.Utf8

/-! Everything that can go wrong, as causes. `Fault.message` words a cause and `Fault.kind`
gives the kind of fault that decides how it is reported. -/

namespace JuceWorkbench

inductive FileReason
  | missing
  | denied
  | occupied
  | notFolder
  | isFolder
  | nameTooLong
  | linkLoop
  deriving DecidableEq, Repr

def FileReason.code : FileReason → Nat
  | .missing => 2
  | .denied => 13
  | .occupied => 17
  | .notFolder => 20
  | .isFolder => 21
  | .nameTooLong => 36
  | .linkLoop => 40

def FileReason.text : FileReason → String
  | .missing => "No such file or directory"
  | .denied => "Permission denied"
  | .occupied => "File exists"
  | .notFolder => "Not a directory"
  | .isFolder => "Is a directory"
  | .nameTooLong => "File name too long"
  | .linkLoop => "Too many levels of symbolic links"

/-- A refused file operation: why, the path as it was given, and the second path of a move. -/
structure FileFault where
  reason : FileReason
  path : String
  target : Option String := none
  deriving DecidableEq, Repr

def FileFault.message (fault : FileFault) : String :=
  "[Errno " ++ toString fault.reason.code ++ "] " ++ fault.reason.text ++ ": " ++
    Text.quoted fault.path ++ (fault.target.map (" -> " ++ Text.quoted ·)).getD ""

inductive FaultKind
  | abort
  | command
  | usage
  | own
  | injection
  | rootMissing
  | artifactNotFound
  | invalidConfiguration
  | configVersion
  | build
  | projectExists
  | unknownTemplate
  | elementExists
  | vcs
  | fileMissing
  | permission
  | fileExists
  | notFolder
  | isFolder
  | system
  | sameFile
  | decoding
  | value
  | typing
  | attribute
  | key
  | index
  | overflow
  | unassigned
  | recursion
  | runtime
  deriving DecidableEq, Repr

namespace FaultKind

def reportName : FaultKind → String
  | .abort => "click.exceptions.Abort"
  | .command => "click.exceptions.ClickException"
  | .usage => "click.exceptions.UsageError"
  | .own => "jucebuilder.errors.JucebuilderError"
  | .injection => "jucebuilder.errors.InjectionError"
  | .rootMissing => "jucebuilder.errors.RootMissingError"
  | .artifactNotFound => "jucebuilder.errors.ArtifactNotFoundError"
  | .invalidConfiguration => "jucebuilder.errors.InvalidConfigurationError"
  | .configVersion => "jucebuilder.errors.ConfigVersionError"
  | .build => "jucebuilder.errors.BuildError"
  | .projectExists => "jucebuilder.errors.ProjectExistsError"
  | .unknownTemplate => "jucebuilder.errors.UnknownTemplateError"
  | .elementExists => "jucebuilder.errors.ElementExistsError"
  | .vcs => "jucebuilder.errors.VcsError"
  | .fileMissing => "FileNotFoundError"
  | .permission => "PermissionError"
  | .fileExists => "FileExistsError"
  | .notFolder => "NotADirectoryError"
  | .isFolder => "IsADirectoryError"
  | .system => "OSError"
  | .sameFile => "shutil.SameFileError"
  | .decoding => "UnicodeDecodeError"
  | .value => "ValueError"
  | .typing => "TypeError"
  | .attribute => "AttributeError"
  | .key => "KeyError"
  | .index => "IndexError"
  | .overflow => "OverflowError"
  | .unassigned => "UnboundLocalError"
  | .recursion => "RecursionError"
  | .runtime => "RuntimeError"

def isOwn : FaultKind → Bool
  | .own | .injection | .rootMissing | .artifactNotFound | .invalidConfiguration
  | .configVersion | .build | .projectExists | .unknownTemplate | .elementExists | .vcs => true
  | _ => false

def isFile : FaultKind → Bool
  | .fileMissing | .permission | .fileExists | .notFolder | .isFolder | .system
  | .sameFile => true
  | _ => false

def isCommand : FaultKind → Bool
  | .command | .usage => true
  | _ => false

end FaultKind

def FileReason.kind : FileReason → FaultKind
  | .missing => .fileMissing
  | .denied => .permission
  | .occupied => .fileExists
  | .notFolder => .notFolder
  | .isFolder => .isFolder
  | .nameTooLong => .system
  | .linkLoop => .system

inductive Fault
  /-- A fault known by its kind and text alone. -/
  | raised (kind : FaultKind) (text : String)
  | notScript (typeName : String)
  | invalidEntry (value : Datum)
  | rootMissing (root : String)
  | artifactNotFound (configuration : String) (platform : Option Platform) (root : Option String)
  | nameMissing
  | invalidBuildType (shown : String)
  | unsupportedVersion (version : Datum)
  | buildFailed (step : String) (code : Int)
  | projectExists (path : String)
  | unknownTemplate
  | unknownElement (type : String)
  | elementExists (type name : String)
  | repository (command output : String)
  | file (fault : FileFault)
  | linkedFolder
  | sameFile (source target : String)
  | malformedText (sequence : Text.Utf8.Malformed)
  | nullInPath
  | notPath (typeName : String)
  | wrongArguments
  | notTable (typeName method : String)
  | notAssignable (typeName : String)
  | listKey
  | textKey
  | outOfRange (sequence : String)
  | notIterable (typeName : String)
  | notContainer (typeName : String)
  | notSubscriptable (typeName : String)
  /-- A table was to be added to something that is no list. -/
  | notGrowing
  /-- A name for a text over several lines is empty. -/
  | unassigned
  | codePointTooLarge
  | numberTooLarge
  | offsetTooFar
  | tooManyDigits
  | tooDeep
  | tooDeepToShow
  | notJson (typeName : String)
  deriving Repr

def buildTypeWords : List String := ["Debug", "Release", "RelWithDebInfo", "MinSizeRel"]
def templateWords : List String := ["GuiApplication", "AudioPlugin", "ConsoleApp"]

def commaList (words : List String) : String := String.intercalate ", " words

def malformedMessage (sequence : Text.Utf8.Malformed) : String :=
  let place :=
    if sequence.size = 1 then
      "byte 0x" ++ String.ofList (Text.hex 2 sequence.octet.toNat) ++ " in position " ++
        toString sequence.position
    else
      "bytes in position " ++ toString sequence.position ++ "-" ++
        toString (sequence.position + sequence.size - 1)
  let reason :=
    match sequence.defect with
    | .start => "invalid start byte"
    | .continuation => "invalid continuation byte"
    | .truncated => "unexpected end of data"
  "'utf-8' codec can't decode " ++ place ++ ": " ++ reason

namespace Fault

def kind : Fault → FaultKind
  | .raised kind _ => kind
  | .notScript _ => .injection
  | .invalidEntry _ => .injection
  | .rootMissing _ => .rootMissing
  | .artifactNotFound _ _ _ => .artifactNotFound
  | .nameMissing => .invalidConfiguration
  | .invalidBuildType _ => .invalidConfiguration
  | .unsupportedVersion _ => .configVersion
  | .buildFailed _ _ => .build
  | .projectExists _ => .projectExists
  | .unknownTemplate => .unknownTemplate
  | .unknownElement _ => .unknownTemplate
  | .elementExists _ _ => .elementExists
  | .repository _ _ => .vcs
  | .file fault => fault.reason.kind
  | .linkedFolder => .system
  | .sameFile _ _ => .sameFile
  | .malformedText _ => .decoding
  | .nullInPath => .value
  | .notPath _ => .typing
  | .wrongArguments => .typing
  | .notTable _ _ => .attribute
  | .notAssignable _ => .typing
  | .listKey => .typing
  | .textKey => .typing
  | .outOfRange _ => .index
  | .notIterable _ => .typing
  | .notContainer _ => .typing
  | .notSubscriptable _ => .typing
  | .notGrowing => .typing
  | .unassigned => .unassigned
  | .codePointTooLarge => .overflow
  | .numberTooLarge => .overflow
  | .offsetTooFar => .value
  | .tooManyDigits => .value
  | .tooDeep => .recursion
  | .tooDeepToShow => .recursion
  | .notJson _ => .typing

def message : Fault → String
  | .raised .abort _ => ""
  | .raised .key text => Text.quoted text
  | .raised _ text => text
  | .notScript typeName => "Expected build script text, got " ++ typeName
  | .invalidEntry value => "Invalid source entry: " ++ value.literal
  | .rootMissing root =>
    "Build output directory not found at " ++ root ++ ". Build the project first."
  | .artifactNotFound configuration platform root =>
    "Executable not found for build type: " ++ configuration ++
      (platform.map fun platform => " (platform: " ++ platform.word ++ ")").getD "" ++
      (root.map (" in " ++ ·)).getD ""
  | .nameMissing => "Project name must be a non-empty string."
  | .invalidBuildType shown =>
    "Invalid build configuration '" ++ shown ++ "'. Expected one of: " ++
      commaList buildTypeWords ++ "."
  | .unsupportedVersion version =>
    "jucebuilder.toml has config_version " ++ version.literal ++
      "; this jucebuilder supports up to 1."
  | .buildFailed step code => "CMake " ++ step ++ " failed with exit code " ++ toString code
  | .projectExists path => "Project directory already exists: " ++ path
  | .unknownTemplate => "Unknown template. Available templates: " ++ commaList templateWords
  | .unknownElement type => "Invalid element type: " ++ type
  | .elementExists type name => type ++ " '" ++ name ++ "' already exists in the project."
  | .repository command output => "git " ++ command ++ " failed: " ++ output
  | .file fault => fault.message
  | .sameFile source target =>
    Text.quoted source ++ " and " ++ Text.quoted target ++ " are the same file"
  | .linkedFolder => "Cannot call rmtree on a symbolic link"
  | .malformedText sequence => malformedMessage sequence
  | .nullInPath => "embedded null byte"
  | .notPath typeName => "expected str, bytes or os.PathLike object, not " ++ typeName
  | .wrongArguments => "wrong number of arguments"
  | .notTable typeName method => "'" ++ typeName ++ "' object has no attribute '" ++ method ++ "'"
  | .notAssignable typeName => "'" ++ typeName ++ "' object does not support item assignment"
  | .listKey => "list indices must be integers or slices, not str"
  | .textKey => "string indices must be integers, not 'str'"
  | .outOfRange sequence => sequence ++ " index out of range"
  | .notIterable typeName => "'" ++ typeName ++ "' object is not iterable"
  | .notContainer typeName => "argument of type '" ++ typeName ++ "' is not iterable"
  | .notSubscriptable typeName => "'" ++ typeName ++ "' object is not subscriptable"
  | .notGrowing => "You can only load a file descriptor, filename or list"
  | .unassigned => "cannot access local variable 'value' where it is not associated with a value"
  | .codePointTooLarge => "Python int too large to convert to C int"
  | .numberTooLarge => "int too large to convert to float"
  | .offsetTooFar =>
    "offset must be a timedelta strictly between -timedelta(hours=24) and timedelta(hours=24)."
  | .tooManyDigits =>
    "Exceeds the limit (" ++ toString Numeral.maxDigits ++ " digits) for integer string " ++
      "conversion; use sys.set_int_max_str_digits() to increase the limit"
  | .tooDeep => "maximum recursion depth exceeded while calling a Python object"
  | .tooDeepToShow => "maximum recursion depth exceeded while getting the repr of an object"
  | .notJson typeName => "Object of type " ++ typeName ++ " is not JSON serializable"

def account (fault : Fault) : String :=
  if fault.message.isEmpty then fault.kind.reportName
  else fault.kind.reportName ++ ": " ++ fault.message

end Fault

namespace Datum

def maxHeight : Nat := 980

/-- Why a value has no text inside another one. -/
def literalFault? (value : Datum) : Option Fault :=
  if maxHeight < value.height then some .tooDeepToShow
  else if value.hasOverlong then some .tooManyDigits
  else none

def shownFault? (value : Datum) : Option Fault :=
  if value.isFarMoment then some .offsetTooFar else value.literalFault?

def wholeText (n : Int) : Except Fault String :=
  if isOverlong n then .error .tooManyDigits else .ok (toString n)

end Datum
end JuceWorkbench
