import CrateYard.Build.Schedule
import CrateYard.Debounce.Basic
import CrateYard.Main
import CrateYard.Workspace.Closure
import CrateYard.Proofs.Build.Timed
import CrateYard.Proofs.Build.Refusal
import CrateYard.Proofs.Output.Interleaving
import CrateYard.Proofs.Workspace.Reach
import CrateYard.Proofs.Workspace.Unreported
import CrateYard.Proofs.Build.Protocol
import CrateYard.Proofs.Build.Answer
import CrateYard.Proofs.Refresh.Rounds
import CrateYard.Proofs.Refresh.Agree
import CrateYard.Proofs.Project.Owner
import CrateYard.Proofs.Output.Lines
import CrateYard.Proofs.Build.Tally
import CrateYard.Proofs.Refresh.Bounded
import CrateYard.Proofs.Debounce.Moves
import CrateYard.Proofs.Debounce.Pace
import CrateYard.Proofs.Workspace.Nearest
import CrateYard.Proofs.Workspace.Roster
import CrateYard.Proofs.Project.Deleted
import CrateYard.Proofs.Build.Ties
import CrateYard.Proofs.Output.Erase
import CrateYard.Proofs.Output.Grammar
import CrateYard.Proofs.Workspace.Resolved
import CrateYard.Proofs.Discovery
import CrateYard.Proofs.Output.Stripped
import CrateYard.Proofs.Debounce.Delay
import CrateYard.Proofs.Debounce.Lockfile
import CrateYard.Proofs.Build.Command
import CrateYard.Proofs.Workspace.Renames
import CrateYard.Proofs.Build.Readers
import CrateYard.Proofs.Package.Encoding
import CrateYard.Proofs.Refresh.Attached
import CrateYard.Proofs.Package.Location
import CrateYard.Proofs.Output.Decoded
import CrateYard.Proofs.Build.Shown
import CrateYard.Proofs.Metadata
import CrateYard.Proofs.Project.Description
import CrateYard.Proofs.Package.Flavours
import CrateYard.Proofs.Project.Severity
