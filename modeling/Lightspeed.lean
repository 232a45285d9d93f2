import Lightspeed.Harness.Cancellations
import Lightspeed.Harness.Projection
import Lightspeed.Harness.Bounds
import Lightspeed.Harness.Standing
import Lightspeed.Harness.Retries
import Lightspeed.Bots.Ownership
import Lightspeed.Bots.Reconcile
import Lightspeed.Bots.Budget
import Lightspeed.Bots.Recorded
import Lightspeed.Bots.PollEvents
import Lightspeed.Files.Moves
import Lightspeed.Session.Duties
import Lightspeed.Daemon.Deadlock
import Lightspeed.Channels.Ids
import Lightspeed.Subagents.Strangers
import Lightspeed.Harness.EntryGuard
import Lightspeed.Harness.LimitedCalls
import Lightspeed.Harness.RecoveryRuns
import Lightspeed.Harness.Prefixes
import Lightspeed.Harness.GatedCalls
import Lightspeed.Bots.Dispatch
import Lightspeed.Bots.Terminals
import Lightspeed.Storage.Checkpoints
import Lightspeed.Session.Receipts
import Lightspeed.Daemon.OutputWalk
import Lightspeed.Files.Snapshots
import Lightspeed.Files.PatchReport
import Lightspeed.Storage.SafeForks
import Lightspeed.Storage.Branches
import Lightspeed.Bots.Renewal
import Lightspeed.Bots.Teardown
