import JuceWorkbench.Fault

/-! Text formats for tables. A reader may refuse a text, in words of its own, or stop with a fault that
no text should bring about. -/

namespace JuceWorkbench

inductive Rejection
  | malformed (report : String)
  | broken (fault : Fault)
  deriving Repr

structure Format where
  read : List Char → Except Rejection Entries
  write : Entries → Except Fault String

end JuceWorkbench
