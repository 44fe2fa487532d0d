import JuceWorkbench.Bench.Command
import JuceWorkbench.Proofs.Text.Split

/-! Command lines read back. A shell reads a text from left to right: blanks part the words, quotes
of either sort keep what is between them together, and parts that touch are one word. Read like
this, a command line gives back the words it was made of, so no two commands look alike. -/

namespace JuceWorkbench.Shell
open Text

inductive Quoting
  | bare
  | single
  | double

/-- What a shell has read so far. A word is open from its first character or quote to the next
blank, so an empty pair of quotes is a word too. -/
structure Reading where
  quoting : Quoting
  complete : List (List Char)
  current : Option (List Char)

namespace Reading

def start : Reading := ⟨.bare, [], none⟩

def put (reading : Reading) (piece : List Char) : Reading :=
  { reading with current := some (reading.current.getD [] ++ piece) }

def openQuote (reading : Reading) (quoting : Quoting) : Reading := { reading.put [] with quoting }

def closeQuote (reading : Reading) : Reading := { reading with quoting := .bare }

def endWord (reading : Reading) : Reading :=
  { reading with complete := reading.complete ++ reading.current.toList, current := none }

/-- The words of a text that ends here. No quote may be left open. -/
def words? (reading : Reading) : Option (List (List Char)) :=
  match reading.quoting with
  | .bare => some reading.endWord.complete
  | _ => none

end Reading

/-- What ends a command, joins it to others, is replaced by something else or takes the meaning of
the next character away, outside of quotes. -/
def activeBare : List Char := "|&;<>()$`\\*?[#~\n".toList

def activeDouble : List Char := "$`\\".toList

def step (reading : Reading) (c : Char) : Option Reading :=
  match reading.quoting with
  | .single => some (if c = '\'' then reading.closeQuote else reading.put [c])
  | .double =>
    if c = '"' then some reading.closeQuote
    else if c ∈ activeDouble then none else some (reading.put [c])
  | .bare =>
    if c = ' ' ∨ c = '\t' then some reading.endWord
    else if c = '\'' then some (reading.openQuote .single)
    else if c = '"' then some (reading.openQuote .double)
    else if c ∈ activeBare then none else some (reading.put [c])

def read (reading : Reading) (text : List Char) : Option Reading := text.foldlM step reading

/-- The words of a text, if blanks and quotes are all there is to it. -/
def words? (text : List Char) : Option (List (List Char)) := (read .start text).bind Reading.words?

def lineWords? (line : String) : Option (List String) :=
  (words? line.toList).map (List.map String.ofList)

section Word

variable {complete : List (List Char)}

theorem read_cons (reading : Reading) (c : Char) (text : List Char) :
    read reading (c :: text) = (step reading c).bind (read · text) := rfl

theorem read_append (reading : Reading) (text more : List Char) :
    read reading (text ++ more) = (read reading text).bind (read · more) :=
  List.foldlM_append

/-- A character that needs no quotes is none of those that mean something. -/
theorem step_safe {reading : Reading} {c : Char} (bare : reading.quoting = .bare)
    (safe : isShellSafe c = true) : step reading c = some (reading.put [c]) := by
  have meaning : (' ' :: '\t' :: '\'' :: '"' :: activeBare).all (!isShellSafe ·) = true := by decide
  have other : c ∉ ' ' :: '\t' :: '\'' :: '"' :: activeBare := by
    intro member
    have quoted := List.all_eq_true.1 meaning c member
    rw [safe] at quoted
    cases quoted
  simp only [List.mem_cons, not_or] at other
  obtain ⟨space, tab, single, double, active⟩ := other
  unfold step
  rw [bare]
  simp only [space, tab, single, double, active, or_self, if_false]

theorem read_safe (front : List Char) {word : List Char} (safe : ∀ c ∈ word, isShellSafe c = true) :
    read ⟨.bare, complete, some front⟩ word = some ⟨.bare, complete, some (front ++ word)⟩ := by
  induction word generalizing front with
  | nil =>
    rw [List.append_nil]
    rfl
  | cons c rest ih =>
    have further := ih (front ++ [c]) fun d later => safe d (List.mem_cons_of_mem c later)
    rw [List.append_assoc] at further
    rw [read_cons, step_safe rfl (safe c List.mem_cons_self), Option.bind_some]
    exact further

/-- Between single quotes every character adds itself to the word. For a single quote the reading
leaves them, takes it between double quotes and comes back. -/
theorem read_escaped (front word : List Char) :
    read ⟨.single, complete, some front⟩
        (word.flatMap fun c => if c = '\'' then "'\"'\"'".toList else [c]) =
      some ⟨.single, complete, some (front ++ word)⟩ := by
  induction word generalizing front with
  | nil =>
    rw [List.append_nil]
    rfl
  | cons c rest ih =>
    have character : read ⟨.single, complete, some front⟩
        (if c = '\'' then "'\"'\"'".toList else [c]) = some ⟨.single, complete, some (front ++ [c])⟩ := by
      split
      · rename_i quote
        subst quote
        simp [read, step, Reading.closeQuote, Reading.openQuote, Reading.put, activeDouble]
      · rename_i other
        simp [read, step, Reading.put, other]
    rw [List.flatMap_cons, read_append, character, Option.bind_some, ih, List.append_assoc]
    rfl

theorem read_singleQuoted (word : List Char) :
    read ⟨.bare, complete, none⟩ (singleQuoted word) = some ⟨.bare, complete, some word⟩ := by
  unfold singleQuoted
  rw [List.cons_append, read_cons]
  change read ⟨.single, complete, some []⟩ _ = _
  rw [read_append, read_escaped, Option.bind_some]
  rfl

theorem read_shellWord (word : List Char) :
    read ⟨.bare, complete, none⟩ (shellWord word) = some ⟨.bare, complete, some word⟩ := by
  unfold shellWord
  split
  · rename_i bare
    obtain ⟨filled, safe⟩ := bare
    rw [List.all_eq_true] at safe
    obtain ⟨c, rest, rfl⟩ := List.exists_cons_of_ne_nil filled
    rw [read_cons, step_safe rfl (safe c List.mem_cons_self), Option.bind_some]
    exact read_safe [c] fun d later => safe d (List.mem_cons_of_mem c later)
  · exact read_singleQuoted word

end Word

theorem read_shellLine (complete words : List (List Char)) :
    (read ⟨.bare, complete, none⟩ (shellLine words)).bind Reading.words? = some (complete ++ words) := by
  induction words generalizing complete with
  | nil => rfl
  | cons word more ih =>
    cases more with
    | nil =>
      change (read _ (shellWord word)).bind _ = _
      rw [read_shellWord]
      rfl
    | cons next more =>
      -- the space ends the open word, so the rest is read like a line of its own
      have line : shellLine (word :: next :: more) =
          shellWord word ++ ' ' :: shellLine (next :: more) := by
        simp [shellLine, joinWith]
      have space : step ⟨.bare, complete, some word⟩ ' ' = some ⟨.bare, complete ++ [word], none⟩ := rfl
      rw [line, read_append, read_shellWord, Option.bind_some, read_cons, space, Option.bind_some, ih,
        List.append_assoc]
      rfl

theorem words?_shellLine (words : List (List Char)) : words? (shellLine words) = some words :=
  read_shellLine [] words

theorem lineWords?_commandLine (words : List String) : lineWords? (commandLine words) = some words := by
  unfold lineWords? commandLine
  rw [String.toList_ofList, words?_shellLine, Option.map_some, map_ofList_toList]

/-- A command line loses nothing: its words are read back from it, whatever characters they hold and
however many there are, and two different commands never have the same line. -/
theorem commandLine_keepsWords :
    (∀ words : List String, lineWords? (commandLine words) = some words) ∧
      Function.Injective commandLine := by
  refine ⟨lineWords?_commandLine, fun words others same => ?_⟩
  have readBack := lineWords?_commandLine words
  rw [same, lineWords?_commandLine others] at readBack
  exact (Option.some.inj readBack).symm

example : words? "a'b c'\"d'\" ''".toList = some ["ab cd'".toList, []] := by decide

example : words? "a; b".toList = none ∧ words? "'a".toList = none := by decide

end JuceWorkbench.Shell
