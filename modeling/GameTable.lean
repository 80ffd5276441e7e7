import GameTable.Log.Journal
import GameTable.Main
import GameTable.Random.Listed
import GameTable.Proofs.Event.Sequence
import GameTable.Proofs.Log.Lawful
import GameTable.Proofs.Session.Submission
import GameTable.Proofs.Session.Commit
import GameTable.Proofs.Session.Run
import GameTable.Proofs.Session.Verify
import GameTable.Proofs.Session.Approval
import GameTable.Proofs.Session.Publication
import GameTable.Proofs.State.Budget
import GameTable.Proofs.State.Width
import GameTable.Proofs.Event.Record
import GameTable.Proofs.Log.File
import GameTable.Proofs.Log.Truncation
import GameTable.Proofs.Text.Words
import GameTable.Proofs.Text.LowerCase
import GameTable.Proofs.Command.Clause
import GameTable.Proofs.Command.RoundTrip
import GameTable.Proofs.Session.Reexecution
import GameTable.Proofs.Command.Rereading
import GameTable.Proofs.Session.Allowed
import GameTable.Proofs.Json.Depth
import GameTable.Proofs.Event.Depth
import GameTable.Proofs.Log.Unreadable
import GameTable.Proofs.Session.Reopening
import GameTable.Proofs.Stateful
import GameTable.Proofs.Command.Gate
import GameTable.Proofs.Command.Restriction
import GameTable.Proofs.Session.Freeze
import GameTable.Proofs.Formula.Rolls
import GameTable.Proofs.Command.Trace
import GameTable.Proofs.Session.Transcription
import GameTable.Proofs.Formula.Evaluation
import GameTable.Proofs.Formula.Evaluator
import GameTable.Proofs.Formula.Reads
import GameTable.Proofs.Command.Execution
import GameTable.Proofs.Command.Linting
import GameTable.Proofs.Command.Parameters
import GameTable.Proofs.Command.Prerequisites
import GameTable.Proofs.Command.Phases
import GameTable.Proofs.State.Turns
import GameTable.Proofs.State.Conditions
import GameTable.Proofs.State.Gating
import GameTable.Proofs.Formula.Acceptance
import GameTable.Proofs.Dice.Total
import GameTable.Proofs.State.Counts
import GameTable.Proofs.Formula.Memory
import GameTable.Proofs.Session.Serving
import GameTable.Proofs.Dice.Faces
import GameTable.Proofs.Dice.Keep
import GameTable.Proofs.Formula.Tower
import GameTable.Proofs.Formula.Reports
import GameTable.Proofs.Formula.StepLimit
import GameTable.Proofs.Formula.Scoping
import GameTable.Proofs.Formula.Siblings
import GameTable.Proofs.Formula.Calculation
import GameTable.Proofs.Formula.Comprehensions
import GameTable.Proofs.Value.Comparison
import GameTable.Proofs.Event.Paths
import GameTable.Proofs.State.Rotation
import GameTable.Proofs.State.Joining
import GameTable.Proofs.Formula.Membership
import GameTable.Proofs.Event.Redelivery
import GameTable.Proofs.Event.Refusal
import GameTable.Proofs.Command.Meaning
import GameTable.Proofs.Value.Document
import GameTable.Proofs.State.Projection
import GameTable.Proofs.State.Digest
import GameTable.Proofs.Log.Counting
import GameTable.Proofs.Formula.Blame
import GameTable.Proofs.Formula.Checking
import GameTable.Proofs.Event.Storing
