import ConfigExpr.Proofs.Evaluator.Steps
import ConfigExpr.Proofs.Parameters.Tables

/-!
Eager evaluation. A node is admissible if its name, its form or its key lets it be evaluated. An
evaluation succeeds only if every node is admissible, in discarded arguments too, and if all are,
only a function that runs can fail.
-/
namespace ConfigExpr.Evaluator
open Outcome

variable {e : Evaluator} {params : Parameters}

end ConfigExpr.Evaluator
