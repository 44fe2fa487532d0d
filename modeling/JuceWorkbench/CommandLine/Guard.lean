import JuceWorkbench.Bench.Log

/-! What becomes of a fault on a command line. A guarded command logs it and exits with
status one, except that refusals of the command line itself are passed on. -/

namespace JuceWorkbench.CommandLine

def reportAndExit {α : Type} (heading : String) (fault : Fault) : Work α := do
  Work.error (heading ++ fault.message)
  Work.reportFault fault
  Work.exit 1

def handle {α : Type} (fault : Fault) : Work α :=
  if fault.kind = .abort then do
    Work.warn "Command aborted by user."
    Work.exit 1
  else if fault.kind.isCommand then Work.fail fault
  else if fault.kind.isOwn then do
    Work.error ("Error: " ++ fault.message)
    Work.exit 1
  else if fault.kind = .fileMissing then reportAndExit "Error: File not found - " fault
  else reportAndExit "An unexpected error occurred: " fault

def guarded {α : Type} (work : Work α) : Work α :=
  tryCatch work fun
    | .fault fault => handle fault
    | .exit status => Work.exit status

/-- The end of every fault that a command passes on. -/
def lastResort (work : Work Unit) : Work Unit :=
  tryCatch work fun
    | .fault fault => do
      Work.error ("An unexpected error occurred: " ++ fault.message)
      Work.info "Please report this issue to the jucebuilder developers."
      Work.reportFault fault
      Work.exit 1
    | .exit status => Work.exit status

end JuceWorkbench.CommandLine
