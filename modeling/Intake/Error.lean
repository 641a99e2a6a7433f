import Intake.Span
import Intake.Uri

/-!
# Error — what can go wrong

Causes are constructors; their wording is in one `message` for each type.  An `Error` is what an
operation of the monitor reports, a `StoreError` what the state store reports, a `ModelError` what
building a domain value reports, and an `IoError` what a file system reports.
-/

namespace Intake

/-! ## 1. Domain values -/

inductive ModelError where
  | emptyKey
  | noFileName (uri : Uri)
  | relativePath (path : Path)
  | invalidMetadata (reason : String)
  deriving Repr

def ModelError.message : ModelError → String
  | emptyKey => "partition key cannot be empty"
  | noFileName uri => "invalid file metadata: no file name in uri '" ++ uri.text ++ "'"
  | relativePath path => "invalid file metadata: path is not absolute: " ++ path.text
  | invalidMetadata reason => "invalid file metadata: " ++ reason

/-! ## 2. The state store -/

inductive StoreError where
  | timeout (after : Span)
  | notStarted
  | closed
  deriving DecidableEq, Repr

def StoreError.message : StoreError → String
  | timeout after =>
    "timed out after " ++ after.text ++ " while reading to the end of the state log"
  | notStarted => "state store is not started"
  | closed => "state store is closed"

def StoreError.isTimeout : StoreError → Bool
  | timeout _ => true
  | _ => false

/-! ## 3. File systems -/

inductive IoKind where
  | notFound
  | permissionDenied
  | alreadyExists
  | notADirectory
  | isADirectory
  | directoryNotEmpty
  | invalidInput
  | invalidData
  | invalidFilename
  | resourceBusy
  | other
  deriving DecidableEq, Repr

def IoKind.name : IoKind → String
  | notFound => "NotFound"
  | permissionDenied => "PermissionDenied"
  | alreadyExists => "AlreadyExists"
  | notADirectory => "NotADirectory"
  | isADirectory => "IsADirectory"
  | directoryNotEmpty => "DirectoryNotEmpty"
  | invalidInput => "InvalidInput"
  | invalidData => "InvalidData"
  | invalidFilename => "InvalidFilename"
  | resourceBusy => "ResourceBusy"
  | other => "Other"

structure IoError where
  kind : IoKind
  text : String
  deriving DecidableEq, Repr

/-! ## 4. Configurations -/

inductive ConfigFault where
  | notPositive (field : String)
  | blankStrategy
  | blankRoot
  | badPattern (field : String)
  | hugePattern (field : String)
  | badNamePattern (pattern : String)
  | hugeNamePattern (pattern : String)
  | unknownAttribute (name : String)
  | noAttribute
  | other (text : String)
  deriving DecidableEq, Repr

/-- The wording of a fault; what a pattern's syntax lacks is not spelled out. -/
def ConfigFault.message : ConfigFault → String
  | notPositive field => field ++ " must be greater than zero"
  | blankStrategy => "partition_key_strategy cannot be empty"
  | blankRoot => "listing.root cannot be empty"
  | badPattern field => field ++ ": "
  | hugePattern field => field ++ ": Compiled regex exceeds size limit of 10485760 bytes."
  | badNamePattern pattern => "invalid file name pattern '" ++ pattern ++ "': "
  | hugeNamePattern pattern => "invalid file name pattern '" ++ pattern ++
      "': Compiled regex exceeds size limit of 10485760 bytes."
  | unknownAttribute name => "unknown partition key attribute '" ++ name ++ "'"
  | noAttribute => "partition key strategy needs at least one attribute"
  | other text => text

/-! ## 5. The monitor -/

inductive Error where
  | io (cause : IoError)
  | model (cause : ModelError)
  | store (cause : StoreError)
  | missingRoot (root : Path)
  | listing (text : String)
  | notLocal (uri : Uri)
  | cleanup (text : String)
  | noKey (uri reason : String)
  | config (fault : ConfigFault)
  | configParse
  deriving Repr

def Error.message : Error → String
  | io cause => "IO error: " ++ cause.text
  | model cause => "Model error: " ++ cause.message
  | store cause => "State store error: " ++ cause.message
  | missingRoot root => "Listing failed: root does not exist: " ++ root.text
  | listing text => "Listing failed: " ++ text
  | notLocal uri => "Cleanup failed: not a local file: " ++ uri.text
  | cleanup text => "Cleanup failed: " ++ text
  | noKey uri reason => "Cannot derive partition key for '" ++ uri ++ "': " ++ reason
  | config fault => "Invalid configuration: " ++ fault.message
  | configParse => "Configuration parse error"

end Intake
