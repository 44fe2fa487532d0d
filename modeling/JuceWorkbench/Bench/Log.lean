import JuceWorkbench.Bench.Files

/-! The session log. Each message goes to the console, in the colour of its level, and as a
plain record to the log file of the session; the file comes second, so a message that cannot
be recorded is still seen. -/

namespace JuceWorkbench

inductive Level
  | info
  | step
  | success
  | warning
  | error
  | debug
  | traceback
  deriving DecidableEq, Repr

namespace Level

def word : Level → String
  | .info => "INFO"
  | .step => "STEP"
  | .success => "SUCCESS"
  | .warning => "WARNING"
  | .error => "ERROR"
  | .debug => "DEBUG"
  | .traceback => "TRACEBACK"

def bright : String := "\x1b[1m"
def reset : String := "\x1b[0m"
def cyan : String := "\x1b[36m"

def colour : Level → String
  | .info => cyan
  | .step => cyan
  | .success => "\x1b[32m"
  | .warning => "\x1b[33m"
  | .error => "\x1b[31m"
  | .debug => "\x1b[37m\x1b[2m"
  | .traceback => "\x1b[31m"

def mark : Level → String
  | .success => "✓ "
  | .warning => "⚠ "
  | .error => "✖ "
  | _ => ""

def isTrouble : Level → Bool
  | .warning => true
  | .error => true
  | .traceback => true
  | _ => false

end Level

/-- A message of the log: steps and the lines of a traceback carry no time. -/
structure Message where
  level : Level
  text : String
  indent : Nat := 0
  timed : Bool := true
  deriving DecidableEq, Repr

namespace Message

def pad (message : Message) : String := String.ofList (List.replicate message.indent ' ')

def consoleLine (clock : String) (message : Message) : String :=
  let colour := message.level.colour
  let mark := message.level.mark
  let mark := if mark.isEmpty then "" else Level.bright ++ mark ++ Level.reset ++ colour
  let time :=
    if message.timed then colour ++ Level.bright ++ "[" ++ clock ++ "]" ++ Level.reset ++ " " else ""
  time ++ colour ++ message.pad ++ mark ++ message.text ++ Level.reset ++ "\n"

def record (clock : String) (message : Message) : String :=
  (if message.timed then "[" ++ clock ++ "] " else "") ++ "[" ++ message.level.word ++ "] " ++
    message.pad ++ message.text ++ "\n"

end Message

def Surroundings.logFile (surroundings : Surroundings) : String :=
  let date := surroundings.now.date
  let time := surroundings.now.time
  let name := "jucebuilder_" ++ padded 4 date.year ++ padded 2 date.month ++ padded 2 date.day ++
    "_" ++ padded 2 time.hour ++ padded 2 time.minute ++ padded 2 time.second ++ ".log"
  Path.join surroundings.logFolder name

namespace Work

def log (message : Message) : Work Unit := do
  let surroundings ← surroundings
  let clock := surroundings.now.time.text
  if message.level.isTrouble then printError (message.consoleLine clock)
  else print (message.consoleLine clock)
  appendText surroundings.logFile (message.record clock).toList

def info (text : String) : Work Unit := log { level := .info, text }
def success (text : String) : Work Unit := log { level := .success, text }
def warn (text : String) : Work Unit := log { level := .warning, text }
def error (text : String) : Work Unit := log { level := .error, text }
def debug (text : String) : Work Unit := log { level := .debug, text }

def step (text : String) (indent : Nat) : Work Unit :=
  log { level := .step, text, indent, timed := false }

def phase (title : String) : Work Unit := step ("==> " ++ title) 0

/-- Reports a fault that nothing has handled: its message, then its account line by line. -/
def reportFault (fault : Fault) : Work Unit := do
  error ("An unhandled exception occurred: " ++ fault.message)
  let lines := (Text.lineBodies fault.account.toList).filter fun line => !(Text.trim line).isEmpty
  lines.forM fun line => log { level := .traceback, text := ">> " ++ String.ofList line }

end Work
end JuceWorkbench
