import Intake.Json.Writer
import Intake.Record
import Intake.Text.Blank

/-!
# KeyPolicy — which files are one unit of work

A policy selects attributes of a file; its partition key is the compact text of an object that
holds them.  A strategy names attributes joined by `+`, in any order, with aliases and without
regard to case; the policy keeps them in one order, without repetition.
-/

namespace Intake

/-! ## 1. Attributes -/

inductive Attribute where
  | uri
  | name
  | path
  | lastModified
  | size
  | digest
  deriving DecidableEq, Repr, Inhabited

namespace Attribute

def all : List Attribute := [.uri, .name, .path, .lastModified, .size, .digest]

def text : Attribute → String
  | uri => "uri"
  | name => "name"
  | path => "path"
  | lastModified => "lastModified"
  | size => "size"
  | digest => "digest"

/-- A name without blanks at its ends and in lower case; only ASCII letters have a case. -/
def normal (raw : String) : String :=
  String.ofList ((Text.trim raw.toList).map Char.toLower)

def ofNormal? (name : String) : Option Attribute :=
  if name = "uri" then some .uri
  else if name = "name" then some .name
  else if name = "path" then some .path
  else if name = "lastmodified" ∨ name = "last_modified" then some .lastModified
  else if name = "size" then some .size
  else if name = "digest" ∨ name = "hash" then some .digest
  else none

def parse (raw : String) : Except Error Attribute :=
  match ofNormal? (normal raw) with
  | some a => .ok a
  | none => .error (.config (.unknownAttribute (normal raw)))

def value? (a : Attribute) (m : Metadata) : Option Json :=
  match a with
  | uri => some (.str m.uriText)
  | name => some (.str m.name)
  | path => some (.str m.path)
  | lastModified => some (.int m.modified.millis)
  | size => some (.int m.size)
  | digest => m.digest.map .str

end Attribute

/-! ## 2. Policies -/

/-- **Key policy.**  The selected attributes, in order and without repetition. -/
structure KeyPolicy where
  attributes : List Attribute
  deriving DecidableEq, Repr

namespace KeyPolicy

def byUri : KeyPolicy := ⟨[.uri]⟩

instance : Inhabited KeyPolicy := ⟨byUri⟩

def new (chosen : List Attribute) : Except Error KeyPolicy :=
  match Attribute.all.filter chosen.contains with
  | [] => .error (.config .noAttribute)
  | attributes => .ok ⟨attributes⟩

def partsOf (strategy : String) : List (List Char) :=
  (Text.pieces (· == '+') strategy.toList).filter fun part => !(Text.trim part).isEmpty

def parse (strategy : String) : Except Error KeyPolicy := do
  new (← (partsOf strategy).mapM fun part => Attribute.parse (String.ofList part))

def keyObject? (p : KeyPolicy) (m : Metadata) : Option Json :=
  (p.attributes.mapM fun a => (Attribute.value? a m).map fun v => (a.text, v)).map Json.object

def keyOf (p : KeyPolicy) (m : Metadata) : Except Error PartitionKey :=
  match p.keyObject? m with
  | some j => .ok ⟨j.compact⟩
  | none => .error (.noKey m.uriText "content digest is not available")

end KeyPolicy

end Intake
