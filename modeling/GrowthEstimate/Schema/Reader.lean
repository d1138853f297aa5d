import GrowthEstimate.Decimal.Magnitude
import GrowthEstimate.Growth
import GrowthEstimate.Json
import GrowthEstimate.Schema.Fault
import GrowthEstimate.Schema.Numeral

/-!
# Readers of untyped values

A reader takes a value and gives what it stands for or says what is wrong with it.  Readers of
records are put together from those of their fields.

* `required_eq_accepted_iff`, `optional_eq_accepted_iff`: exactly which fields are accepted.
-/

namespace GrowthEstimate.Schema

abbrev Reader (α : Type) := Json → Checked α

variable {α : Type}

/-- The value of an option, or a problem in its place. -/
def orProblem (problem : Problem) : Option α → Checked α
  | some value => .accepted value
  | none => .fault problem

/-! ## Single values -/

def text : Reader Text
  | .text s => .accepted s
  | _ => .fault .notText

def string : Reader CodePoints := fun j => orProblem .notText j.string?

def textOrNull : Reader (Option Text)
  | .null => .accepted none
  | j => some <$> text j

/-- The whole numbers that a machine word of 64 bits holds are below this number. -/
def wordEnd : Int := 0x8000000000000000

/-- The whole number that a double is, when it is one that a machine word holds. -/
def intOfFloat? (x : Float) : Option Int :=
  let v := Decimal.Magnitude.ofFloat x
  let n : Int := v.num / v.den
  if x.isFinite ∧ v.num % v.den = 0 ∧ n < wordEnd then
    some (if Decimal.isNegative x then -n else n)
  else none

/-- A whole number; a truth value counts as 0 or 1. -/
def int : Reader Int
  | .int n => .accepted n
  | .bool b => .accepted (if b then 1 else 0)
  | .float x =>
    if x.isFinite then orProblem .fractionalInteger (intOfFloat? x) else .fault .notFinite
  | .text s => intOfText s
  | _ => .fault .notInteger

def floatOfInt (n : Int) : Float := Decimal.toFloat ⟨n < 0, n.natAbs, 0⟩

def float : Reader Float
  | .float x => .accepted x
  | .int n =>
    let x := floatOfInt n
    if x.isFinite then .accepted x else .fault .notNumber
  | .bool b => .accepted (if b then 1 else 0)
  | .text s => orProblem .unreadableNumber (floatOfText? s)
  | _ => .fault .notNumber

def share : Reader Float := fun j =>
  (float j).bind fun x =>
    if (1 : Float) < x then .fault .aboveMaximum
    else if x < 0 then .fault .belowMinimum
    else .accepted x

def bool : Reader Bool
  | .bool b => .accepted b
  | .int n => orProblem .unreadableTruthValue (ofInt? n)
  | .float x => (orProblem .notTruthValue (intOfFloat? x)).bind fun n =>
      orProblem .unreadableTruthValue (ofInt? n)
  | .text s => orProblem .unreadableTruthValue (boolOfText? s)
  | _ => .fault .notTruthValue
where
  ofInt? (n : Int) : Option Bool :=
    if n = 0 then some false else if n = 1 then some true else none

def growth : Reader Growth
  | .text s => orProblem .unknownClass (Growth.ofSymbol? s)
  | _ => .fault .unknownClass

/-! ## Containers -/

/-- The items of a list from the given index on. -/
def itemsFrom (read : Reader α) : Nat → List Json → Checked (List α)
  | _, [] => .accepted []
  | i, j :: rest =>
    List.cons <$> (read j).under (Decimal.ofNat i) <*> itemsFrom read (i + 1) rest

def list (read : Reader α) : Reader (List α)
  | .array items => itemsFrom read 0 items
  | _ => .fault .notList

def record (read : Reader α) : Reader α
  | .object members => read (.object members)
  | _ => .fault .notRecord

/-- A field that has to be there. -/
def required (key : String) (read : Reader α) (j : Json) : Checked α :=
  match j.get? key with
  | some value => (read value).under key.toList
  | none => (Checked.fault .missing).under key.toList

/-- A field that may be left out. -/
def optional (key : String) (default : α) (read : Reader α) (j : Json) : Checked α :=
  match j.get? key with
  | some value => (read value).under key.toList
  | none => .accepted default

theorem string_eq_accepted_iff {j : Json} {s : CodePoints} :
    string j = .accepted s ↔ j.string? = some s := by
  rw [string]
  cases j.string? <;> simp [orProblem, Checked.fault]

theorem required_eq_accepted_iff {key : String} {read : Reader α} {j : Json} {a : α} :
    required key read j = .accepted a ↔
      ∃ value, j.get? key = some value ∧ read value = .accepted a := by
  rw [required]
  cases j.get? key with
  | none => simp [Checked.fault, Checked.under]
  | some value => simp [Checked.under_eq_accepted_iff]

theorem optional_eq_accepted_iff {key : String} {default : α} {read : Reader α} {j : Json}
    {a : α} :
    optional key default read j = .accepted a ↔
      j.get? key = none ∧ a = default
        ∨ ∃ value, j.get? key = some value ∧ read value = .accepted a := by
  rw [optional]
  cases j.get? key with
  | none => simp [eq_comm]
  | some value => simp [Checked.under_eq_accepted_iff]

end GrowthEstimate.Schema
