import GrowthEstimate.Json.Reading
import GrowthEstimate.Text.Encoding

/-!
# Bodies of calls

A body is a run of bytes, and it has to be the text of one JSON value.  How long the whole numbers
and how deep the containers may be that are read of it depends on where the service runs.
-/

namespace GrowthEstimate.Service

/-- The bytes that come with a call, in order; none when it has no body. -/
abbrev Body := List UInt8

inductive BodyFault
  /-- It is not what the route asks for. -/
  | unfit
  /-- Its bytes are no string, or it is beyond what is read. -/
  | unreadable
  deriving DecidableEq

def valueOf (limits : Json.Limits) (s : CodePoints) : Except BodyFault Json :=
  match Json.parsePoints limits s with
  | .ok j => .ok j
  | .error .malformed => .error .unfit
  | .error .tooLong | .error .tooDeep => .error .unreadable

/-- The value that a body holds. -/
def Body.read (limits : Json.Limits) (body : Body) : Except BodyFault Json :=
  match Encoding.decode? body with
  | some s => valueOf limits s
  | none => .error .unreadable

end GrowthEstimate.Service
