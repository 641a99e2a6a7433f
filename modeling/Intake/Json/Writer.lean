import Intake.Json

/-!
# Writer — compact text of a data value

The compact form: no spaces, the fields of an object in the order they are listed, strings with
the shortest escapes and every character from the space on as it is.
-/

namespace Intake.Json

/-! ## 1. Strings and numbers -/

def lowerHex (n : Nat) : Char := if n < 10 then Char.ofNat (48 + n) else Char.ofNat (87 + n)

def escapeChar (c : Char) : List Char :=
  if c = '"' then ['\\', '"']
  else if c = '\\' then ['\\', '\\']
  else if c.toNat = 8 then ['\\', 'b']
  else if c.toNat = 9 then ['\\', 't']
  else if c.toNat = 10 then ['\\', 'n']
  else if c.toNat = 12 then ['\\', 'f']
  else if c.toNat = 13 then ['\\', 'r']
  else if c.toNat < 32 then
    ['\\', 'u', '0', '0', lowerHex (c.toNat / 16), lowerHex (c.toNat % 16)]
  else [c]

def writeStr (cs : List Char) : List Char := '"' :: (cs.flatMap escapeChar ++ ['"'])

def writeInt : Int → List Char
  | .ofNat n => Nat.toDigits 10 n
  | .negSucc n => '-' :: Nat.toDigits 10 (n + 1)

/-! ## 2. Values -/

mutual

/-- **The compact text** of a value, as characters. -/
def write : Json → List Char
  | .null => ['n', 'u', 'l', 'l']
  | .bool true => ['t', 'r', 'u', 'e']
  | .bool false => ['f', 'a', 'l', 's', 'e']
  | .int n => writeInt n
  | .real text => text.toList
  | .str s => writeStr s.toList
  | .arr [] => ['[', ']']
  | .arr (item :: rest) => '[' :: (write item ++ (writeItems rest ++ [']']))
  | .obj [] => ['\x7b', '\x7d']
  | .obj ((name, value) :: rest) =>
    '\x7b' :: (writeStr name.toList ++ (':' :: (write value ++ (writeFields rest ++ ['\x7d']))))

def writeItems : List Json → List Char
  | [] => []
  | item :: rest => ',' :: (write item ++ writeItems rest)

def writeFields : List (String × Json) → List Char
  | [] => []
  | (name, value) :: rest =>
    ',' :: (writeStr name.toList ++ (':' :: (write value ++ writeFields rest)))

end

def compact (j : Json) : String := String.ofList (write j)

end Intake.Json
