import JuceWorkbench.Text.Printable

/-! Quoted forms of texts and octets, as they stand in messages: single quotes unless the
text holds a single quote and no double quote, and an escape for every character that is
not printable. -/

namespace JuceWorkbench.Text

def hexDigit (n : Nat) : Char := (Nat.digitChar (n % 16))

def hex (width n : Nat) : List Char :=
  match width with
  | 0 => []
  | width + 1 => hex width (n / 16) ++ [hexDigit n]

/-- The escape of a character by its code point: two, four or eight hexadecimal digits. -/
def codeEscape (n : Nat) : List Char :=
  if n < 0x100 then '\\' :: 'x' :: hex 2 n
  else if n < 0x10000 then '\\' :: 'u' :: hex 4 n
  else '\\' :: 'U' :: hex 8 n

def quotedChar (quote c : Char) : List Char :=
  if c = quote ∨ c = '\\' then ['\\', c]
  else if c = '\n' then ['\\', 'n']
  else if c = '\r' then ['\\', 'r']
  else if c = '\t' then ['\\', 't']
  else if isPrintable c then [c]
  else codeEscape c.toNat

def quoteFor (text : List Char) : Char := if text.contains '\'' && !text.contains '"' then '"' else '\''

def literal (text : List Char) : List Char :=
  let quote := quoteFor text
  quote :: text.flatMap (quotedChar quote) ++ [quote]

def quoted (text : String) : String := String.ofList (literal text.toList)

def quotedOctet (quote : Char) (octet : UInt8) : List Char :=
  let c := Char.ofNat octet.toNat
  if octet.toNat < 128 then quotedChar quote c else codeEscape octet.toNat

def octetLiteral (octets : List UInt8) : List Char :=
  let quote := quoteFor (octets.map fun octet => Char.ofNat octet.toNat)
  'b' :: quote :: octets.flatMap (quotedOctet quote) ++ [quote]

end JuceWorkbench.Text
