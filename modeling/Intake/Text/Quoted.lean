import Intake.Text.Category
import Intake.Text.Property

/-!
# Quoted — text in double quotes for a log line

A quoted text shows every character that prints as itself and escapes the others, so that two
different texts never look alike: quotes and backslashes take a backslash, the common controls
have letters, and whatever does not print or would join the character before it is written by its
code point.
-/

namespace Intake.Text

/-- **Printing characters:** assigned ones that are no control, format or private-use character
    and no separator; of the separators the plain space prints. -/
def isPrinting (c : Char) : Bool :=
  let n := c.toNat
  if n < 0x7F then 0x20 ≤ n
  else inCategories (Category.letters ++ Category.marks ++ Category.numbers ++
    Category.punctuation ++ Category.symbols) c

def hexDigits (n : Nat) : List Char := Nat.toDigits 16 n

def codeEscape (c : Char) : String :=
  "\\u\x7b" ++ String.ofList (hexDigits c.toNat) ++ "\x7d"

def quotedChar (c : Char) : String :=
  if c = '"' then "\\\""
  else if c = '\\' then "\\\\"
  else if c = '\n' then "\\n"
  else if c = '\r' then "\\r"
  else if c = '\t' then "\\t"
  else if c.toNat = 0 then "\\0"
  else if c.toNat < 0x300 && isPrinting c then String.singleton c
  else if graphemeExtend.contains c.toNat then codeEscape c
  else if isPrinting c then String.singleton c
  else codeEscape c

def quoted (s : String) : String := "\"" ++ String.join (s.toList.map quotedChar) ++ "\""

def quotedPath (s : String) : String :=
  let char (c : Char) : String := if c.toNat = 0x27 then "\\'" else quotedChar c
  "\"" ++ String.join (s.toList.map char) ++ "\""

def quotedList (items : List String) : String :=
  "[" ++ ", ".intercalate (items.map quoted) ++ "]"

end Intake.Text
