import RunControl.Cli.Rehearsal
import RunControl.FileTree
import RunControl.Main
import RunControl.Proofs.Cli.Printed
import RunControl.Proofs.Faults
import RunControl.Proofs.State.Accounting
import RunControl.Proofs.State.Answered
import RunControl.Proofs.State.AnyOrder
import RunControl.Proofs.State.Assigned
import RunControl.Proofs.State.Deletion
import RunControl.Proofs.State.OpenCycle
import RunControl.Proofs.State.Registry
import RunControl.Proofs.State.Start
import RunControl.Proofs.Store.Cadence
import RunControl.Proofs.Store.Commands
import RunControl.Proofs.Store.LateAnswers
import RunControl.Proofs.Store.Quiescence
import RunControl.Proofs.Store.Replays
import RunControl.Proofs.Store.Settled
import RunControl.Proofs.Timestamp.Elapsed
import RunControl.Proofs.Wire
import RunControl.Store.Rehearsal
import RunControl.Proofs.Text.Ordered
import RunControl.Proofs.Settings.Overrides
import RunControl.Proofs.Timestamp.Civil
import RunControl.Proofs.Settings.Spelling
import RunControl.Proofs.Settings.Kept
import RunControl.Proofs.Settings.Reading
import RunControl.Proofs.State.Failures
import RunControl.Proofs.Store.Owing
import RunControl.Proofs.Cli.OwnRequest
import RunControl.Proofs.Cycles.Operations
import RunControl.Proofs.Url.Segments
import RunControl.Proofs.Url.Endpoints
import RunControl.Proofs.State.SoleCycle
import RunControl.Proofs.Cli.Following
import RunControl.Proofs.Cli.SingleWrite
import RunControl.Proofs.Cli.DeviceWrites
import RunControl.Proofs.Url.References
