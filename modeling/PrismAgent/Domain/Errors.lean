import PrismAgent.Domain.Json

/-!
# Exceptions

The exceptions that the modelled functions raise, and one constructor for those
that come from outside (the API, the queue, the planner, a tool).
-/

namespace PrismAgent

inductive Exc
  | planNotFound (planId : String)
  | actionNotFound (actionId : String)
  | runAlreadyTerminal (runId status : String)
  | keyError (message : String)
  | valueError (message : String)
  | typeError (message : String)
  | external (typeName message : String)
  deriving DecidableEq, Repr

/-- `str(exc)`. -/
def Exc.toStr : Exc → String
  | .planNotFound planId => planId
  | .actionNotFound actionId => actionId
  | .runAlreadyTerminal runId status => "Agent run " ++ runId ++ " is already " ++ status ++ "."
  | .keyError message => Json.reprString message
  | .valueError message => message
  | .typeError message => message
  | .external _ message => message

end PrismAgent
