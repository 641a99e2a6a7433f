/-!
# Json — data values

The value type in which keys are written and records are stored.  Integers are exact; a number
with a fraction or an exponent keeps its written form, since nothing in this library computes
with one.  Objects list their fields in order, each name once; `Json.object` puts fields into the
order in which they are written.
-/

namespace Intake

inductive Json where
  | null
  | bool (value : Bool)
  | int (value : Int)
  | real (text : String)
  | str (text : String)
  | arr (items : List Json)
  | obj (fields : List (String × Json))
  deriving Repr, BEq, Inhabited

namespace Json

/-! ## 1. Objects -/

def insertField (name : String) (value : Json) : List (String × Json) → List (String × Json)
  | [] => [(name, value)]
  | (n, v) :: rest =>
    if name < n then (name, value) :: (n, v) :: rest
    else if name = n then (name, value) :: rest
    else (n, v) :: insertField name value rest

/-- **Object** with its fields sorted by name; of two fields with one name the later counts. -/
def object (fields : List (String × Json)) : Json :=
  .obj (fields.foldl (fun acc f => insertField f.1 f.2 acc) [])

def get? (j : Json) (name : String) : Option Json :=
  match j with
  | .obj fields => fields.lookup name
  | _ => none

/-- The value of a field, with an absent field and a null one read alike. -/
def field? (j : Json) (name : String) : Option Json :=
  match j.get? name with
  | some .null => none
  | found => found

/-! ## 2. Views -/

def asStr? : Json → Option String
  | .str s => some s
  | _ => none

def asBool? : Json → Option Bool
  | .bool b => some b
  | _ => none

def asArr? : Json → Option (List Json)
  | .arr items => some items
  | _ => none

def asInt? : Json → Option Int
  | .int n => some n
  | _ => none

def maxWord : Nat := 0xFFFFFFFFFFFFFFFF

def asWord? : Json → Option Nat
  | .int (.ofNat n) => if n ≤ maxWord then some n else none
  | _ => none

/-! ## 3. Structures -/

/-- **The fields of a structure** in the order of their names, each absent or present.  A structure
    is written as an object, in which other fields are ignored, or as an array, in which fields go
    by position and only trailing ones may be absent. -/
def fields? (names : List String) (j : Json) : Option (List (Option Json)) :=
  match j with
  | .obj _ => some (names.map j.get?)
  | .arr items =>
    if items.length ≤ names.length then
      some (items.map some ++ List.replicate (names.length - items.length) none)
    else none
  | _ => none

def optional {α : Type} (read : Json → Option α) : Option Json → Option (Option α)
  | none => some none
  | some .null => some none
  | some j => (read j).map some

def orDefault {α : Type} (fallback : α) (read : Json → Option α) : Option Json → Option α
  | none => some fallback
  | some j => read j

end Json

end Intake
