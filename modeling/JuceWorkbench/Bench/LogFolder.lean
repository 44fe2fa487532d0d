import JuceWorkbench.Bench.Log

/-! The log files of past sessions: how old they are, which is the latest and which are to be
removed. A file that vanished after it was listed counts as the oldest. -/

namespace JuceWorkbench.LogFolder

def maxFiles : Int := 20

def isLogName (name : String) : Bool := ".log".toList.isSuffixOf name.toList

def names : Work (List String) := do
  let folder := (← Work.surroundings).logFolder
  if ← Work.isFolder folder then return (← Work.listFolder folder).filter isLogName
  else pure []

/-- When a log file was created; none if it has vanished. -/
def created? (surroundings : Surroundings) (name : String) : Option Int :=
  match surroundings.created.find? fun entry => entry.1 == name with
  | some entry => entry.2
  | none => some surroundings.createdElse

def age (surroundings : Surroundings) (name : String) : Int := (created? surroundings name).getD 0

/-- Older files first; files of one age keep their order. -/
def byAge (surroundings : Surroundings) (names : List String) : List String :=
  names.mergeSort fun a b => decide (age surroundings a ≤ age surroundings b)

/-- Of files from old to new, those that go when `keep` may stay; a negative number says how
many go. -/
def stale (keep : Int) (names : List String) : List String :=
  if keep < 0 then names.take keep.natAbs else names.take (names.length - keep.toNat)

def discard (name : String) : Work Unit := do
  let surroundings ← Work.surroundings
  if (created? surroundings name).isSome then
    match ← Work.attempt (Work.removeFile (Path.join surroundings.logFolder name)) with
    | .ok _ => pure ()
    | .error fault => if fault.kind = .fileMissing then pure () else Work.fail fault

def prune (keep : Int) : Work Unit := do
  let surroundings ← Work.surroundings
  (stale keep (byAge surroundings (← names))).forM discard

/-- The first of the newest of some files. -/
def newest (surroundings : Surroundings) : String → List String → String
  | best, [] => best
  | best, name :: more =>
    newest surroundings (if age surroundings best < age surroundings name then name else best) more

def latest? : Work (Option String) := do
  let surroundings ← Work.surroundings
  match ← names with
  | [] => pure none
  | first :: more =>
    match (first :: more).find? fun name => (created? surroundings name).isNone with
    | some vanished => Work.refuse .missing (Path.join surroundings.logFolder vanished)
    | none => return some (Path.join surroundings.logFolder (newest surroundings first more))

end JuceWorkbench.LogFolder
