import Intake.Text.Category
import Intake.Text.Fold
import Intake.Text.Pieces
import Intake.Uri.Percent

/-!
# Host — the host of a URI

A host is blank, a name, or an address of version 4 or 6.  Schemes with a registered syntax take
domain names, in which letters are folded to lower case, labels outside ASCII are written in
Punycode, and a name that ends in a number must be an address.  Other schemes take any name
without delimiters, with what is not ASCII escaped.
-/

namespace Intake

inductive UriError where
  | emptyHost
  | badDomain
  | badPort
  | badAddress4
  | badAddress6
  | badHostChar
  | noScheme
  deriving DecidableEq, Repr

def UriError.message : UriError → String
  | emptyHost => "empty host"
  | badDomain => "invalid international domain name"
  | badPort => "invalid port number"
  | badAddress4 => "invalid IPv4 address"
  | badAddress6 => "invalid IPv6 address"
  | badHostChar => "invalid domain character"
  | noScheme => "relative URL without a base"

namespace Uri

inductive Host where
  | blank
  | name (text : String)
  | address4 (value : Nat)
  | address6 (groups : List Nat)
  deriving DecidableEq, Repr, Inhabited

namespace Host

/-! ## 1. Version 4 addresses -/

def dotted (cs : List Char) : List (List Char) :=
  let parts := Text.pieces (· == '.') cs
  if parts.length > 1 && parts.getLast? == some [] then parts.dropLast else parts

def valueIn? (base : Nat) (cs : List Char) : Option Nat :=
  cs.foldl (fun acc c => do
    let d ← Text.Ranges.hexDigit? c
    if d < base then return base * (← acc) + d else none) (some 0)

def number? : List Char → Option Nat
  | [] => none
  | '0' :: 'x' :: rest => valueIn? 16 rest
  | '0' :: 'X' :: rest => valueIn? 16 rest
  | '0' :: d :: rest => valueIn? 8 (d :: rest)
  | cs => valueIn? 10 cs

/-- Whether a domain has to be read as an address: its last part is a number. -/
def endsInNumber (cs : List Char) : Bool :=
  match (dotted cs).getLast? with
  | some last => (!last.isEmpty && last.all Char.isDigit) || (number? last).isSome
  | none => false

def readAddress4 (cs : List Char) : Except UriError Nat := do
  let parts := dotted cs
  if parts.length > 4 then throw .badAddress4
  let numbers ← parts.mapM fun p =>
    match number? p with
    | some n => if n < 0x100000000 then pure n else throw .badAddress4
    | none => throw .badAddress4
  let lead := numbers.dropLast
  let last := numbers.getLast?.getD 0
  if last ≥ Nat.pow 256 (4 - lead.length) || lead.any (· > 255) then throw .badAddress4
  return lead.zipIdx.foldl (fun sum (n, i) => sum + n * Nat.pow 256 (3 - i)) last

def address4Text (n : Nat) : String :=
  ".".intercalate ([3, 2, 1, 0].map fun i => toString (n / Nat.pow 256 i % 256))

/-! ## 2. Version 6 addresses -/

def group? (cs : List Char) : Option Nat :=
  if cs.isEmpty || cs.length > 4 then none else Text.Ranges.hexValue? cs

def byte? (cs : List Char) : Option Nat :=
  match cs with
  | [] => none
  | '0' :: _ :: _ => none
  | _ =>
    match valueIn? 10 cs with
    | some n => if n < 256 && cs.length ≤ 3 then some n else none
    | none => none

def groups? (lastRun : Bool) : List (List Char) → Option (List Nat)
  | [] => some []
  | [item] =>
    if lastRun && item.contains '.' then
      match (Text.pieces (· == '.') item).mapM byte? with
      | some [a, b, c, d] => some [a * 256 + b, c * 256 + d]
      | _ => none
    else (group? item).map fun g => [g]
  | item :: rest => do return (← group? item) :: (← groups? lastRun rest)

def run? (lastRun : Bool) (cs : List Char) : Option (List Nat) :=
  if cs.isEmpty then some [] else groups? lastRun (Text.pieces (· == ':') cs)

def splitGap : List Char → Option (List Char × List Char)
  | ':' :: ':' :: rest => some ([], rest)
  | c :: rest => (splitGap rest).map fun (a, b) => (c :: a, b)
  | [] => none

def readAddress6 (cs : List Char) : Except UriError (List Nat) :=
  match splitGap cs with
  | none =>
    match run? true cs with
    | some groups => if groups.length = 8 then .ok groups else .error .badAddress6
    | none => .error .badAddress6
  | some (before, after) =>
    match run? false before, run? true after with
    | some front, some back =>
      if front.length + back.length < 8 then
        .ok (front ++ List.replicate (8 - front.length - back.length) 0 ++ back)
      else .error .badAddress6
    | _, _ => .error .badAddress6

def zeroRun (groups : List Nat) : Nat := (groups.takeWhile (· == 0)).length

def longestZeros (groups : List Nat) : Nat × Nat :=
  (List.range groups.length).foldl (fun best i =>
    let n := zeroRun (groups.drop i)
    if n > best.2 && n ≥ 2 then (i, n) else best) (0, 0)

def address6Text (groups : List Nat) : String :=
  let hex (n : Nat) := String.ofList (Nat.toDigits 16 n)
  let (start, count) := longestZeros groups
  if count = 0 then ":".intercalate (groups.map hex)
  else
    ":".intercalate ((groups.take start).map hex) ++ "::" ++
      ":".intercalate ((groups.drop (start + count)).map hex)

/-! ## 3. Punycode -/

def punyDigit (n : Nat) : Char := if n < 26 then Char.ofNat (97 + n) else Char.ofNat (22 + n)

def punyValue? (c : Char) : Option Nat :=
  if 'a' ≤ c ∧ c ≤ 'z' then some (c.toNat - 97)
  else if '0' ≤ c ∧ c ≤ '9' then some (c.toNat - 22)
  else none

def adaptFrom : Nat → Nat → Nat → Nat
  | 0, _, k => k
  | fuel + 1, delta, k =>
    if delta > 455 then adaptFrom fuel (delta / 35) (k + 36) else k + 36 * delta / (delta + 38)

def adapt (delta count : Nat) (first : Bool) : Nat :=
  let d := if first then delta / 700 else delta / 2
  adaptFrom 64 (d + d / count) 0

def punyNumber (bias : Nat) : Nat → Nat → Nat → List Char
  | 0, _, _ => []
  | fuel + 1, q, k =>
    let t := if k ≤ bias then 1 else if k ≥ bias + 26 then 26 else k - bias
    if q < t then [punyDigit q]
    else punyDigit (t + (q - t) % (36 - t)) :: punyNumber bias fuel ((q - t) / (36 - t)) (k + 36)

/-- What has been written, the distance so far, the bias and the number of characters handled. -/
structure PunyState where
  out : List Char
  delta : Nat
  bias : Nat
  handled : Nat

def punyStep (basic n : Nat) (s : PunyState) (c : Char) : PunyState :=
  if c.toNat < n then { s with delta := s.delta + 1 }
  else if c.toNat = n then
    { out := s.out ++ punyNumber s.bias 64 s.delta 36
      delta := 0
      bias := adapt s.delta (s.handled + 1) (s.handled == basic)
      handled := s.handled + 1 }
  else s

def punyLoop (cs : List Char) (basic : Nat) : List Nat → Nat → PunyState → PunyState
  | [], _, s => s
  | m :: rest, n, s =>
    let s := { s with delta := s.delta + (m - n) * (s.handled + 1) }
    let s := cs.foldl (punyStep basic m) s
    punyLoop cs basic rest (m + 1) { s with delta := s.delta + 1 }

def punycode (cs : List Char) : List Char :=
  let ascii := cs.filter fun c => c.toNat < 0x80
  let codes := ((cs.filter fun c => c.toNat ≥ 0x80).map Char.toNat).eraseDups.mergeSort
  let start := if ascii.isEmpty then [] else ascii ++ ['-']
  (punyLoop cs ascii.length codes 0x80 ⟨start, 0, 72, ascii.length⟩).out

/-! ## 4. Names -/

def forbidden (c : Char) : Bool :=
  c.toNat ≤ 0x20 || c.toNat == 0x7F || "%#/:<>?@[\\]^|".toList.contains c

def ignored (c : Char) : Bool :=
  let n := c.toNat
  n == 0xAD || n == 0x200B || n == 0x2060 || n == 0xFEFF || (0xFE00 ≤ n && n ≤ 0xFE0F)

def mapChar (c : Char) : Char :=
  let n := c.toNat
  if n == 0x3002 || n == 0xFF61 then '.'
  else if 0xFF01 ≤ n && n ≤ 0xFF5E then Text.fold (Char.ofNat (n - 0xFEE0))
  else Text.fold c

def isEncoded (cs : List Char) : Bool :=
  let digits := cs.reverse.takeWhile (· != '-')
  !digits.isEmpty && digits.all fun c => (punyValue? c).isSome

def label? (cs : List Char) : Option (List Char) :=
  if cs.all fun c => c.toNat < 0x80 then
    if cs.take 4 == "xn--".toList && !isEncoded (cs.drop 4) then none else some cs
  else if cs.all Text.isAssigned then some ("xn--".toList ++ punycode cs)
  else none

def domain? (bs : Bytes) : Option (List Char) := do
  let text ← Text.decode? bs
  let mapped := (text.toList.filter (!ignored ·)).map mapChar
  if mapped.any forbidden then none
  let labels ← (Text.pieces (· == '.') mapped).mapM label?
  return Text.glue '.' labels

def bracketed? (cs : List Char) : Option (Except UriError Host) :=
  match cs with
  | '[' :: rest =>
    if rest.getLast? = some ']' then some ((readAddress6 rest.dropLast).map .address6)
    else some (.error .badAddress6)
  | _ => none

def readDomain (cs : List Char) : Except UriError Host :=
  match bracketed? cs with
  | some result => result
  | none =>
    match domain? (Percent.unescape cs) with
    | none => .error .badDomain
    | some [] => .error .emptyHost
    | some domain =>
      if endsInNumber domain then (readAddress4 domain).map .address4
      else .ok (.name (String.ofList domain))

def delimiter (c : Char) : Bool :=
  c.toNat == 0 || "\t\n\r #/:<>?@[\\]^|".toList.contains c

def readOther (cs : List Char) : Except UriError Host :=
  match bracketed? cs with
  | some result => result
  | none =>
    if cs.isEmpty then .ok .blank
    else if cs.any delimiter then .error .badHostChar
    else .ok (.name (String.ofList
      (Percent.escapeChars (fun b => 0x20 ≤ b && b != 0x7F) cs)))

def text : Host → String
  | blank => ""
  | name s => s
  | address4 n => address4Text n
  | address6 groups => "[" ++ address6Text groups ++ "]"

end Host

end Uri

end Intake
