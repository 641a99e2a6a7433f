import Intake.Config
import Intake.Metadata
import Intake.Text.Quoted

/-!
# Filter — which files are listed

A filter decides by what is known of a file.  A file is listed if every filter accepts it.
-/

namespace Intake

structure NamePattern where
  source : String
  pattern : Pattern

def NamePattern.parse (source : String) : Except ConfigFault NamePattern :=
  match Pattern.parse source with
  | .ok pattern => .ok ⟨source, pattern⟩
  | .error .grammar => .error (.badNamePattern source)
  | .error .tooLarge => .error (.hugeNamePattern source)

def NamePattern.parseOptional : Option String → Except ConfigFault (Option NamePattern)
  | none => .ok none
  | some source => (parse source).map some

/-- **Filter.**  By name, by size, or against names that start with a dot. -/
inductive Filter where
  | names (required refused : Option NamePattern)
  | minSize (bytes : Nat)
  | visible

namespace Filter

def byName (required refused : Option String) : Except ConfigFault Filter := do
  return .names (← NamePattern.parseOptional required) (← NamePattern.parseOptional refused)

def accepts (f : Filter) (m : Metadata) : Bool :=
  match f with
  | names required refused =>
    required.all (·.pattern.matchesName m.name) && !refused.any (·.pattern.matchesName m.name)
  | minSize bytes => bytes ≤ m.size
  | visible => !m.name.startsWith "."

def patternText : Option NamePattern → String
  | none => "None"
  | some p => "Some(Regex(" ++ Text.quoted p.source ++ "))"

def text : Filter → String
  | names required refused =>
    "RegexNameFilter \x7b include: " ++ patternText required ++ ", exclude: " ++
      patternText refused ++ " \x7d"
  | minSize bytes => "MinSizeFilter \x7b min_size_bytes: " ++ toString bytes ++ " \x7d"
  | visible => "HiddenFileFilter"

end Filter

end Intake
