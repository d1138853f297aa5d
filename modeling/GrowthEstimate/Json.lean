import GrowthEstimate.Text.CodePoints

/-!
# JSON values

Whole numbers and fractions are different values, since `1` and `1.0` are written differently and
only the first may stand where a whole number is asked for.  A string is a text unless it holds a
half without the other one.  An object keeps its members in the order in which they stand; of two
members with one key the later one counts.

* `string?_ofPoints`: a string is the same whether it is a text or not.
-/

namespace GrowthEstimate

inductive Json
  | null
  | bool (b : Bool)
  | int (n : Int)
  | float (x : Float)
  | text (s : Text)
  /-- A string that is no text. -/
  | points (s : CodePoints)
  | array (items : List Json)
  | object (members : List (Text × Json))

namespace Json

/-- The value of the last member with the key. -/
def member? (key : Text) (members : List (Text × Json)) : Option Json :=
  members.reverse.lookup key

/-- The value under a key; none for anything but an object. -/
def get? (j : Json) (key : String) : Option Json :=
  match j with
  | object members => member? key.toList members
  | _ => none

def ofMembers (members : List (String × Json)) : Json :=
  .object (members.map fun (key, value) => (key.toList, value))

def ofTexts (texts : List Text) : Json := .array (texts.map .text)

def ofText? (s : Option Text) : Json := (s.map .text).getD .null

def ofPoints (s : CodePoints) : Json := (s.text?.map .text).getD (.points s)

/-- The code points of a string; none for any other value. -/
def string? : Json → Option CodePoints
  | text s => some (.ofText s)
  | points s => some s
  | _ => none

theorem ofPoints_ofText (s : Text) : ofPoints (.ofText s) = .text s := by
  simp [ofPoints]

theorem string?_ofPoints (s : CodePoints) : (ofPoints s).string? = some s := by
  rw [ofPoints]
  cases h : s.text? with
  | none => rfl
  | some t => exact congrArg some (CodePoints.ofText_of_text? h)

end Json

end GrowthEstimate
