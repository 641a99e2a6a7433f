import Intake.Json

/-!
# Toml — configuration documents

The tables of a configuration document while it is read.  A table remembers how it came to be,
since that decides what may still be added to it: a table under its own header is closed to other
headers and to dotted keys, one that a longer header or a dotted key implied is not.
-/

namespace Intake.Toml

inductive Origin where
  | implied
  | dotted
  | header
  deriving DecidableEq, Repr

/-- **Node.**  What a key of a document holds: a value, a table, or an array of tables. -/
inductive Node where
  | value (j : Json)
  | table (origin : Origin) (entries : List (String × Node))
  | tables (items : List (List (String × Node)))

abbrev Table := List (String × Node)

/-! ## 1. Finished documents -/

mutual

def Node.toJson : Node → Json
  | .value j => j
  | .table _ entries => .object (fieldsOf entries)
  | .tables items => .arr (objectsOf items)

def fieldsOf : List (String × Node) → List (String × Json)
  | [] => []
  | (k, n) :: rest => (k, n.toJson) :: fieldsOf rest

def objectsOf : List (List (String × Node)) → List Json
  | [] => []
  | t :: rest => .object (fieldsOf t) :: objectsOf rest

end

/-! ## 2. Growing tables -/

def setKey (t : Table) (key : String) (n : Node) : Table :=
  if t.any (·.1 == key) then t.map fun e => if e.1 == key then (key, n) else e
  else t ++ [(key, n)]

def onLast (items : List Table) (change : Table → Option Table) : Option (List Table) := do
  let last ← items.getLast?
  return items.dropLast ++ [← change last]

/-- **Assigns a value** to a dotted key.  Every key but the last names a table that is implied or
    made by dotted keys; the last one must be new. -/
def assign : List String → Json → Table → Option Table
  | [], _, _ => none
  | [key], j, t => if t.any (·.1 == key) then none else some (t ++ [(key, .value j)])
  | key :: more, j, t =>
    match t.lookup key with
    | none => (assign more j []).map fun sub => t ++ [(key, .table .dotted sub)]
    | some (.table .header _) => none
    | some (.table origin sub) =>
      (assign more j sub).map fun sub => setKey t key (.table origin sub)
    | some _ => none

def openTable : List String → Table → Option Table
  | [], _ => none
  | [key], t =>
    match t.lookup key with
    | none => some (t ++ [(key, .table .header [])])
    | some (.table .implied sub) => some (setKey t key (.table .header sub))
    | some _ => none
  | key :: more, t =>
    match t.lookup key with
    | none => (openTable more []).map fun sub => t ++ [(key, .table .implied sub)]
    | some (.table origin sub) =>
      (openTable more sub).map fun sub => setKey t key (.table origin sub)
    | some (.tables items) =>
      (onLast items (openTable more)).map fun items => setKey t key (.tables items)
    | some (.value _) => none

def openItem : List String → Table → Option Table
  | [], _ => none
  | [key], t =>
    match t.lookup key with
    | none => some (t ++ [(key, .tables [[]])])
    | some (.tables items) => some (setKey t key (.tables (items ++ [[]])))
    | some _ => none
  | key :: more, t =>
    match t.lookup key with
    | none => (openItem more []).map fun sub => t ++ [(key, .table .implied sub)]
    | some (.table origin sub) =>
      (openItem more sub).map fun sub => setKey t key (.table origin sub)
    | some (.tables items) =>
      (onLast items (openItem more)).map fun items => setKey t key (.tables items)
    | some (.value _) => none

def inTable : List String → (Table → Option Table) → Table → Option Table
  | [], change, t => change t
  | key :: more, change, t =>
    match t.lookup key with
    | some (.table origin sub) =>
      (inTable more change sub).map fun sub => setKey t key (.table origin sub)
    | some (.tables items) =>
      (onLast items (inTable more change)).map fun items => setKey t key (.tables items)
    | _ => none

end Intake.Toml
