import Pushdown.Console.Dialogue
import Pushdown.Main
import Pushdown.Proofs.Console.Reports
import Pushdown.Proofs.Console.Spelling
import Pushdown.Proofs.Link.Closing
import Pushdown.Proofs.Link.Correlation
import Pushdown.Proofs.Link.TimeLimit
import Pushdown.Proofs.Link.WholeLines
import Pushdown.Proofs.Listeners.FanOut
import Pushdown.Proofs.Model.Changes
import Pushdown.Proofs.Model.ThreadQueries
import Pushdown.Proofs.RunStates.Lifecycle
import Pushdown.Proofs.RunStates.Owners
import Pushdown.Proofs.Session.Executes
import Pushdown.Proofs.Session.Withdrawal
import Pushdown.Proofs.Wire.Forwarding
import Pushdown.Proofs.Wire.Gate
import Pushdown.Proofs.Wire.Reasons
import Pushdown.Proofs.Wire.Stacks
