import GrowthEstimate.Analysis
import GrowthEstimate.Schema.Fault

/-!
# Failures

A call fails because its text is rejected, because a name is unknown, or because a value that it
was given does not have the form it has to have.
-/

namespace GrowthEstimate

inductive Failure
  | rejected (reason : Rejection)
  | unknown (name : UnknownName)
  | invalid (faults : List Schema.Fault)

namespace Failure

def message : Failure → Text
  | rejected reason => reason.message
  | unknown name => name.message
  | invalid faults => Schema.messageOf faults

end Failure

def Schema.Checked.orFail {α : Type} : Schema.Checked α → Except Failure α
  | .accepted value => .ok value
  | .refused faults => .error (.invalid faults)

def orUnknown {α : Type} (x : Except UnknownName α) : Except Failure α := x.mapError .unknown

end GrowthEstimate
