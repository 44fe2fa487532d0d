import JuceWorkbench.Text.Blank

/-! Command lines as a shell reads them. A word of safe characters stands as it is; any
other word, the empty one too, is put in single quotes, and a single quote inside it closes
them, stands in double quotes and opens them again. -/

namespace JuceWorkbench.Text

def isShellSafe (c : Char) : Bool :=
  c.isAlphanum || "_@%+=:,./-".toList.contains c

def singleQuoted (word : List Char) : List Char :=
  '\'' :: word.flatMap (fun c => if c = '\'' then "'\"'\"'".toList else [c]) ++ ['\'']

def shellWord (word : List Char) : List Char :=
  if word ≠ [] ∧ word.all isShellSafe then word else singleQuoted word

def shellLine (words : List (List Char)) : List Char := joinWith [' '] (words.map shellWord)

end JuceWorkbench.Text
