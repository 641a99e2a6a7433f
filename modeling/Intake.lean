import Intake.Text.Blank
import Intake.Text.Quoted
import Intake.Text.Fold
import Intake.Text.Script
import Intake.Text.Utf8
import Intake.Json.Reader
import Intake.Json.Writer
import Intake.Path
import Intake.Uri.Percent
import Intake.Uri.Reader
import Intake.Instant.Reader
import Intake.Span
import Intake.Record
import Intake.Record.Form
import Intake.KeyPolicy
import Intake.Pattern.Reader
import Intake.Config
import Intake.Event
import Intake.Files
import Intake.Files.Volume
import Intake.Listing
import Intake.Cleanup
import Intake.Candidates
import Intake.Groups
import Intake.Attempts
import Intake.Store
import Intake.Monitor.Call
import Intake.Monitor.Gate
import Intake.Rehearsal.Run
import Intake.Proofs.Exclusive
import Intake.Proofs.Completion
import Intake.Proofs.Startup
import Intake.Proofs.Elsewhere
import Intake.Proofs.Rehearsed
import Intake.Proofs.Relocation
import Intake.Proofs.Waiting
import Intake.Proofs.HandOver
import Intake.Proofs.Custody
import Intake.Proofs.Feed
import Intake.Proofs.ReadToEnd
import Intake.Proofs.Scan
import Intake.Proofs.Apart
import Intake.Proofs.Canonical
import Intake.Proofs.Identity
import Intake.Proofs.Versions
import Intake.Proofs.Lifecycle
import Intake.Proofs.Delay
import Intake.Proofs.Stored
import Intake.Proofs.Batch
import Intake.Proofs.Admission
import Intake.Proofs.Passes
import Intake.Proofs.Footprint
import Intake.Proofs.LocalPaths
import Intake.Proofs.Trees
import Intake.Proofs.Walk
import Intake.Proofs.Listed
import Intake.Proofs.Failures
import Intake.Proofs.Orphans
import Intake.Proofs.Balance
import Intake.Proofs.Strategies
import Intake.Proofs.Validation
import Intake.Proofs.Shutdown
