import Pascalet.Main
import Pascalet.Proofs.Backpatching.Program
import Pascalet.Proofs.Binary64.RoundTrip
import Pascalet.Proofs.Calls.Brackets
import Pascalet.Proofs.Calls.ByValue
import Pascalet.Proofs.Calls.Discipline
import Pascalet.Proofs.Code.Cells
import Pascalet.Proofs.Code.Format
import Pascalet.Proofs.Code.Requests
import Pascalet.Proofs.CommandLine.Ending
import Pascalet.Proofs.Execution.Termination
import Pascalet.Proofs.Formula.Evaluation
import Pascalet.Proofs.Machine.Failure
import Pascalet.Proofs.Machine.LaterInput
import Pascalet.Proofs.Machine.Reading
import Pascalet.Proofs.Recognition.Viable
import Pascalet.Proofs.Scoping.Program
import Pascalet.Proofs.Token.Partition
