import GrowthEstimate.Span

/-!
# The body of a span

A span that carries no body of its own has one when its range meets the lines, and then the body
is exactly the lines of the range.

* `bodyLines_eq`: the body is what is left of the lines behind the range and in front of it;
* `body?_isSome_iff`: exactly which spans have a body;
* `bodyLines_onLines`, `bodyLines_onLines_one`: a block right behind a line, or at the start of the
  text, has the next few lines for its body;
* `bodyLines_append_left`, `bodyLines_shift`: lines behind the range change nothing, and lines in
  front of all others move it.
-/

namespace GrowthEstimate.Span

theorem bodyLines_eq (span : Span) (lines : List Text) :
    span.bodyLines lines = (lines.take span.last.toNat).drop (span.first - 1).toNat := by
  rw [bodyLines, List.drop_take]

theorem bodyLines_ne_nil_iff {span : Span} {lines : List Text} :
    span.bodyLines lines ≠ [] ↔ max (span.first - 1) 0 < min span.last lines.length := by
  rw [← List.length_pos_iff, bodyLines_eq, List.length_drop, List.length_take]
  omega

theorem body?_isSome_iff {span : Span} {lines : List Text} :
    (span.body? lines).isSome ↔
      span.inlineBody.isSome ∨ max (span.first - 1) 0 < min span.last lines.length := by
  rw [← bodyLines_ne_nil_iff, body?]
  cases hi : span.inlineBody with
  | some body => simp
  | none =>
    cases hb : span.bodyLines lines with
    | nil => simp
    | cons line rest => simp

theorem body?_eq_none {span : Span} (h : span.inlineBody = none) {lines : List Text}
    (hempty : span.bodyLines lines = []) : span.body? lines = none := by
  simp [body?, h, hempty]

theorem body?_of_bodyLines {span : Span} (h : span.inlineBody = none) {lines body : List Text}
    (hbody : span.bodyLines lines = body) (hne : body ≠ []) :
    span.body? lines = some (Text.joinLines body) := by
  rw [body?_eq_some_iff h, hbody]
  exact ⟨hne, rfl⟩

/-- The body, once there is one: what the span carries, or the lines of its range. -/
theorem body?_eq_some {span : Span} {lines : List Text}
    (h : span.inlineBody.isSome ∨ max (span.first - 1) 0 < min span.last lines.length) :
    span.body? lines =
      some (span.inlineBody.getD
        (Text.joinLines ((lines.take span.last.toNat).drop (span.first - 1).toNat))) := by
  cases hi : span.inlineBody with
  | some body => exact body?_inline hi lines
  | none =>
    have hrange : max (span.first - 1) 0 < min span.last lines.length := by
      rcases h with h | h
      · rw [hi] at h
        cases h
      · exact h
    rw [body?_eq_some_iff hi, ← bodyLines_eq]
    exact ⟨bodyLines_ne_nil_iff.2 hrange, rfl⟩

/-- The body of a block that stands right behind a line. -/
theorem bodyLines_onLines (name : Text) (before : List Text) (line : Text) (rest : List Text)
    (count : Nat) :
    (onLines name (before.length + 2) (before.length + 1 + count)).bodyLines
      (before ++ line :: rest) = rest.take count := by
  have hskip : (((before.length + 2 : Nat) : Int) - 1).toNat = before.length + 1 := by omega
  have hlast : ((before.length + 1 + count : Nat) : Int).toNat = before.length + 1 + count := by
    omega
  have hcount : before.length + 1 + count - (before.length + 1) = count := by omega
  simp only [bodyLines, onLines, hskip, hlast, hcount]
  rw [← List.drop_drop, List.drop_left, List.drop_succ_cons, List.drop_zero]

/-- The body of a block at the start of a text. -/
theorem bodyLines_onLines_one (name : Text) (count : Nat) (lines : List Text) :
    (onLines name 1 count).bodyLines lines = lines.take count := by
  simp [bodyLines, onLines]

/-! ## Lines around the range -/

theorem bodyLines_append_left {span : Span} {lines : List Text} (h : span.last ≤ lines.length)
    (behind : List Text) : span.bodyLines (lines ++ behind) = span.bodyLines lines := by
  have hlast : span.last.toNat ≤ lines.length := by omega
  rw [bodyLines_eq, bodyLines_eq, List.take_append_of_le_length hlast]

theorem body?_append_left {span : Span} {lines : List Text} (h : span.last ≤ lines.length)
    (behind : List Text) : span.body? (lines ++ behind) = span.body? lines := by
  rw [body?, body?, bodyLines_append_left h]

/-- The lines behind the last one of the range may be cut off. -/
theorem body?_take {span : Span} {count : Nat} (h : span.last ≤ count) (lines : List Text) :
    span.body? (lines.take count) = span.body? lines := by
  have hlast : min span.last.toNat count = span.last.toNat := by omega
  rw [body?, body?, bodyLines_eq, bodyLines_eq, List.take_take, hlast]

/-- The span of the same function when `count` lines are put in front of the text. -/
def shift (count : Nat) (span : Span) : Span :=
  { span with first := span.first + count, last := span.last + count }

theorem bodyLines_shift {span : Span} (hfirst : 1 ≤ span.first) (hlast : 0 ≤ span.last)
    (before lines : List Text) :
    (span.shift before.length).bodyLines (before ++ lines) = span.bodyLines lines := by
  have htake : (span.last + before.length).toNat = before.length + span.last.toNat := by omega
  have hdrop : (span.first + before.length - 1).toNat =
      before.length + (span.first - 1).toNat := by omega
  simp only [bodyLines_eq, shift, htake, hdrop, List.take_length_add_append, List.drop_append]
  simp

theorem body?_shift {span : Span} (hfirst : 1 ≤ span.first) (hlast : 0 ≤ span.last)
    (before lines : List Text) :
    (span.shift before.length).body? (before ++ lines) = span.body? lines := by
  rw [body?, body?, bodyLines_shift hfirst hlast]
  rfl

end GrowthEstimate.Span
