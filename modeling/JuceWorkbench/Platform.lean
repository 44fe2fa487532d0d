/-! The platforms that builds are told apart by, and how a host is recognised as one. -/

namespace JuceWorkbench

inductive Platform
  | linux
  | windows
  | macos
  | other
  deriving DecidableEq, Repr

structure Host where
  family : String
  system : String
  deriving DecidableEq, Repr

namespace Platform

def all : List Platform := [.linux, .windows, .macos, .other]

def word : Platform → String
  | .linux => "linux"
  | .windows => "windows"
  | .macos => "macos"
  | .other => "other"

def ofWord? (word : String) : Option Platform := all.find? fun platform => platform.word == word

theorem ofWord?_word (platform : Platform) : ofWord? platform.word = some platform := by
  cases platform <;> decide

/-- Whether files carry permission bits that make them executable. -/
def isUnix : Platform → Bool
  | .linux => true
  | .macos => true
  | _ => false

def executableName (platform : Platform) (name : String) : String :=
  match platform with
  | .windows => name ++ ".exe"
  | _ => name

end Platform

/-- The system interface decides for Windows; else the system's name does. -/
def Host.platform (host : Host) : Platform :=
  if host.family = "nt" then .windows
  else if host.system = "darwin" then .macos
  else if "linux".toList.isPrefixOf host.system.toList then .linux
  else .other

end JuceWorkbench
