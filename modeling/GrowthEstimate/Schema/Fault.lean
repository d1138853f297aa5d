import GrowthEstimate.Decimal

/-!
# Faults of untyped input

Requests, reports and settings arrive as untyped values and are checked field by field.  Every
field that does not fit leaves one fault, and the faults of a record are listed in the order of
its fields.

* `map_eq_accepted_iff`, `seq_eq_accepted_iff`: what was accepted of an accepted record.
-/

namespace GrowthEstimate.Schema

inductive Problem
  | missing
  | notText
  | notInteger
  | unreadableInteger
  | tooLongInteger
  | fractionalInteger
  | notFinite
  | notNumber
  | unreadableNumber
  | aboveMaximum
  | belowMinimum
  | notAboveBound
  | notTruthValue
  | unreadableTruthValue
  | notList
  | notRecord
  | unknownClass
  | unknownChoice
  deriving DecidableEq

def Problem.code : Problem → Text
  | missing => "missing".toList
  | notText => "string_type".toList
  | notInteger => "int_type".toList
  | unreadableInteger => "int_parsing".toList
  | tooLongInteger => "int_parsing_size".toList
  | fractionalInteger => "int_from_float".toList
  | notFinite => "finite_number".toList
  | notNumber => "float_type".toList
  | unreadableNumber => "float_parsing".toList
  | aboveMaximum => "less_than_equal".toList
  | belowMinimum => "greater_than_equal".toList
  | notAboveBound => "greater_than".toList
  | notTruthValue => "bool_type".toList
  | unreadableTruthValue => "bool_parsing".toList
  | notList => "list_type".toList
  | notRecord => "model_type".toList
  | unknownClass => "enum".toList
  | unknownChoice => "literal_error".toList

/-- A problem and the keys and indices that lead to the value that has it. -/
structure Fault where
  path : List Text
  problem : Problem
  deriving DecidableEq

def Fault.message (f : Fault) : Text :=
  ".".toList.intercalate f.path ++ ": ".toList ++ f.problem.code

def messageOf (faults : List Fault) : Text := "; ".toList.intercalate (faults.map Fault.message)

/-- A value that passed its checks, or all its faults. -/
inductive Checked (α : Type)
  | accepted (value : α)
  | refused (faults : List Fault)

namespace Checked

variable {α β : Type}

def fault (problem : Problem) : Checked α := .refused [⟨[], problem⟩]

/-- A check whose faults lie under a key or index. -/
def under (step : Text) : Checked α → Checked α
  | .accepted value => .accepted value
  | .refused faults => .refused (faults.map fun f => { f with path := step :: f.path })

def bind (x : Checked α) (f : α → Checked β) : Checked β :=
  match x with
  | .accepted value => f value
  | .refused faults => .refused faults

/-- Both checks are made, and the faults of the first come first. -/
def seq (f : Checked (α → β)) (x : Checked α) : Checked β :=
  match f, x with
  | .accepted f, .accepted value => .accepted (f value)
  | .accepted _, .refused faults => .refused faults
  | .refused faults, .accepted _ => .refused faults
  | .refused first, .refused second => .refused (first ++ second)

instance : Applicative Checked where
  pure := .accepted
  seq f x := seq f (x ())

def toExcept : Checked α → Except (List Fault) α
  | .accepted value => .ok value
  | .refused faults => .error faults

theorem under_eq_accepted_iff {x : Checked α} {step : Text} {a : α} :
    x.under step = .accepted a ↔ x = .accepted a := by
  cases x <;> simp [under]

theorem map_eq_accepted_iff {f : α → β} {x : Checked α} {b : β} :
    f <$> x = .accepted b ↔ ∃ a, x = .accepted a ∧ f a = b := by
  cases x <;> simp [Functor.map, seq]

theorem seq_eq_accepted_iff {f : Checked (α → β)} {x : Checked α} {b : β} :
    f <*> x = .accepted b ↔ ∃ g a, f = .accepted g ∧ x = .accepted a ∧ g a = b := by
  cases f <;> cases x <;> simp [Seq.seq, seq]

end Checked

end GrowthEstimate.Schema
