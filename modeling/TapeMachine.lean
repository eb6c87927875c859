import TapeMachine.Main
import TapeMachine.Proofs.Bounds
import TapeMachine.Proofs.History
import TapeMachine.Proofs.Refinement
import TapeMachine.Proofs.Truncation
import TapeMachine.Proofs.Cancellation
import TapeMachine.Proofs.Resumption
import TapeMachine.Proofs.Trouble
import TapeMachine.Proofs.Rehearsal
import TapeMachine.Proofs.Wrapping
import TapeMachine.Proofs.Widening
import TapeMachine.Proofs.Location
import TapeMachine.Proofs.Loading
import TapeMachine.Proofs.Rotation
import TapeMachine.Proofs.Comments
import TapeMachine.Proofs.Sequence
import TapeMachine.Proofs.Trace
import TapeMachine.Proofs.Unmatched
import TapeMachine.Proofs.Running
import TapeMachine.Proofs.Abandonment
import TapeMachine.Proofs.Recovery
import TapeMachine.Proofs.Clipping
import TapeMachine.Proofs.Acceptance
import TapeMachine.Proofs.DeadLoop
import TapeMachine.Proofs.Approval
import TapeMachine.Proofs.Precedence
import TapeMachine.Proofs.Deletion
import TapeMachine.Proofs.Replay
import TapeMachine.Proofs.Excerpt
import TapeMachine.Proofs.Extraction
import TapeMachine.Proofs.Chronicle
import TapeMachine.Proofs.Reception
