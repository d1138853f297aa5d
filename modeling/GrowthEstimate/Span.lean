import GrowthEstimate.Text.Lines

/-!
# Function spans

A span says where in a source text the body of one function stands.  Lines are numbered from 1,
and both ends belong to the body; a span whose first line is past its last has no body.  A
function written on one line carries its body itself.

* `body?_inline`: a body that the span carries is the body, whatever the lines are;
* `body?_eq_some_iff`: otherwise the body is the lines of the range that exist, when one does.
-/

namespace GrowthEstimate

/-- The place of one function's body. -/
structure Span where
  name : Text
  first : Int
  last : Int
  inlineBody : Option Text
  deriving DecidableEq

namespace Span

def onLines (name : Text) (first last : Nat) : Span := ⟨name, first, last, none⟩

/-- The name of a block that is no function. -/
def placeholder : Text := "main".toList

/-- The lines of the range that exist. -/
def bodyLines (span : Span) (lines : List Text) : List Text :=
  let skipped := (span.first - 1).toNat
  (lines.drop skipped).take (span.last.toNat - skipped)

/-- The text of the body, when the range holds at least one of the lines. -/
def body? (span : Span) (lines : List Text) : Option Text :=
  match span.inlineBody with
  | some body => some body
  | none =>
    let body := span.bodyLines lines
    if body.isEmpty then none else some (Text.joinLines body)

theorem body?_inline {span : Span} {body : Text} (h : span.inlineBody = some body)
    (lines : List Text) : span.body? lines = some body := by
  simp [body?, h]

theorem body?_eq_some_iff {span : Span} (h : span.inlineBody = none) {lines : List Text}
    {body : Text} :
    span.body? lines = some body ↔
      span.bodyLines lines ≠ [] ∧ Text.joinLines (span.bodyLines lines) = body := by
  simp [body?, h]

end Span

end GrowthEstimate
