import Intake.Json
import Intake.Pattern.Reader
import Intake.Text.Utf8
import Intake.Toml.Reader
import Intake.Error

/-!
# Config — how a monitor is set up

Times, the key strategy, what to list and how to clean up.  Every setting has a default.  A
configuration is read from a document or from a data value, and `validate` says whether a monitor
can be built from it.
-/

namespace Intake

/-! ## 1. Settings -/

structure ListingConfig where
  root : String := "."
  recursive : Bool := true
  includePattern : Option String := none
  excludePattern : Option String := none
  minSizeBytes : Nat := 0
  ignoreHidden : Bool := true
  deriving DecidableEq, Repr, Inhabited

inductive CleanupConfig where
  | log
  | delete
  | move (successDir failureDir : String)
  deriving DecidableEq, Repr, Inhabited

/-- **Monitor settings.**  Times are in milliseconds; without a reconfiguration time no new files
    are handed out while any are being worked on. -/
structure Config where
  scanIntervalMs : Nat := 10000
  taskAssignmentWaitMs : Nat := 15000
  startupReadToEndTimeoutMs : Nat := 30000
  readToEndTimeoutMs : Nat := 5000
  reconfigurationAfterTimeoutMs : Option Nat := none
  partitionKeyStrategy : String := "uri"
  listing : ListingConfig := {}
  cleanup : CleanupConfig := .log
  deriving DecidableEq, Repr, Inhabited

/-! ## 2. Stored form -/

def optionalText : Option String → Json
  | some s => .str s
  | none => .null

namespace ListingConfig

def toJson (c : ListingConfig) : Json :=
  .object [("root", .str c.root), ("recursive", .bool c.recursive),
    ("include_pattern", optionalText c.includePattern),
    ("exclude_pattern", optionalText c.excludePattern),
    ("min_size_bytes", .int c.minSizeBytes), ("ignore_hidden", .bool c.ignoreHidden)]

def ofJson? (j : Json) : Option ListingConfig := do
  match ← j.fields? ["root", "recursive", "include_pattern", "exclude_pattern", "min_size_bytes",
      "ignore_hidden"] with
  | [root, recursive, includePattern, excludePattern, minSize, ignoreHidden] =>
    return {
      root := ← Json.orDefault "." Json.asStr? root
      recursive := ← Json.orDefault true Json.asBool? recursive
      includePattern := ← Json.optional Json.asStr? includePattern
      excludePattern := ← Json.optional Json.asStr? excludePattern
      minSizeBytes := ← Json.orDefault 0 Json.asWord? minSize
      ignoreHidden := ← Json.orDefault true Json.asBool? ignoreHidden }
  | _ => none

end ListingConfig

namespace CleanupConfig

def toJson : CleanupConfig → Json
  | log => .object [("policy", .str "log")]
  | delete => .object [("policy", .str "delete")]
  | move success failure =>
    .object [("policy", .str "move"), ("success_dir", .str success), ("failure_dir", .str failure)]

/-- Reads cleanup settings: an object with the policy's name, or an array that starts with it. -/
def ofJson? (j : Json) : Option CleanupConfig := do
  let (policy, rest) ← match j with
    | .obj _ => do some (← j.get? "policy", j)
    | .arr (policy :: rest) => some (policy, .arr rest)
    | _ => none
  match ← policy.asStr? with
  | "log" => match rest with | .arr (_ :: _) => none | _ => some .log
  | "delete" => match rest with | .arr (_ :: _) => none | _ => some .delete
  | "move" =>
    match ← rest.fields? ["success_dir", "failure_dir"] with
    | [some success, some failure] => return .move (← success.asStr?) (← failure.asStr?)
    | _ => none
  | _ => none

end CleanupConfig

namespace Config

def toJson (c : Config) : Json :=
  .object [("scan_interval_ms", .int c.scanIntervalMs),
    ("task_assignment_wait_ms", .int c.taskAssignmentWaitMs),
    ("startup_read_to_end_timeout_ms", .int c.startupReadToEndTimeoutMs),
    ("read_to_end_timeout_ms", .int c.readToEndTimeoutMs),
    ("reconfiguration_after_timeout_ms",
      match c.reconfigurationAfterTimeoutMs with | some ms => .int ms | none => .null),
    ("partition_key_strategy", .str c.partitionKeyStrategy),
    ("listing", c.listing.toJson), ("cleanup", c.cleanup.toJson)]

def ofJson? (j : Json) : Option Config := do
  match ← j.fields? ["scan_interval_ms", "task_assignment_wait_ms",
      "startup_read_to_end_timeout_ms", "read_to_end_timeout_ms",
      "reconfiguration_after_timeout_ms", "partition_key_strategy", "listing", "cleanup"] with
  | [scan, wait, startup, read, reconfiguration, strategy, listing, cleanup] =>
    return {
      scanIntervalMs := ← Json.orDefault 10000 Json.asWord? scan
      taskAssignmentWaitMs := ← Json.orDefault 15000 Json.asWord? wait
      startupReadToEndTimeoutMs := ← Json.orDefault 30000 Json.asWord? startup
      readToEndTimeoutMs := ← Json.orDefault 5000 Json.asWord? read
      reconfigurationAfterTimeoutMs := ← Json.optional Json.asWord? reconfiguration
      partitionKeyStrategy := ← Json.orDefault "uri" Json.asStr? strategy
      listing := ← Json.orDefault {} ListingConfig.ofJson? listing
      cleanup := ← Json.orDefault .log CleanupConfig.ofJson? cleanup }
  | _ => none

end Config

/-! ## 3. Validation -/

def patternFault (field : String) : Option String → Except ConfigFault Unit
  | none => .ok ()
  | some text =>
    match Pattern.parse text with
    | .ok _ => .ok ()
    | .error .grammar => .error (.badPattern field)
    | .error .tooLarge => .error (.hugePattern field)

def ListingConfig.validate (c : ListingConfig) : Except ConfigFault Unit := do
  if c.root.isEmpty then throw .blankRoot
  patternFault "listing.include_pattern" c.includePattern
  patternFault "listing.exclude_pattern" c.excludePattern

namespace Config

def positiveTimes (c : Config) : List (String × Nat) :=
  [("scan_interval_ms", c.scanIntervalMs), ("task_assignment_wait_ms", c.taskAssignmentWaitMs),
    ("startup_read_to_end_timeout_ms", c.startupReadToEndTimeoutMs),
    ("read_to_end_timeout_ms", c.readToEndTimeoutMs)]

def validate (c : Config) : Except ConfigFault Unit := do
  match c.positiveTimes.find? (·.2 == 0) with
  | some (field, _) => throw (.notPositive field)
  | none => pure ()
  if (Text.trim c.partitionKeyStrategy.toList).isEmpty then throw .blankStrategy
  c.listing.validate

/-! ## 4. Documents -/

def parse (text : String) : Except Error Config :=
  match (Toml.parse? text).bind ofJson? with
  | none => .error .configParse
  | some c =>
    match c.validate with
    | .ok () => .ok c
    | .error fault => .error (.config fault)

/-- Reads the bytes of a file; `none` if there is no file. -/
def load (file : Option Bytes) : Except Error Config :=
  match file with
  | none => .error (.io ⟨.notFound, "No such file or directory (os error 2)"⟩)
  | some bytes =>
    match Text.decode? bytes with
    | none => .error (.io ⟨.invalidData, "stream did not contain valid UTF-8"⟩)
    | some text => parse text

end Config

end Intake
