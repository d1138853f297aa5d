import GrowthEstimate.Proofs.CallPlaces
import GrowthEstimate.Proofs.HeaderCalls
import GrowthEstimate.Proofs.Layout

/-!
# The lines that are seen of a body

A body is put together from the lines of its span and cut into lines again to be looked at.  This
gives the lines of the span, but for an empty last one, and a function on one line has one line.

* `mem_of_mem_unwrapBody`: a body is made of what it is unwrapped from;
* `splitLines_inlineBody`: a body that a span carries is a single line;
* `lines_of_body`: the lines of every body, and what loops and tail calls are read off.
-/

namespace GrowthEstimate

open Text Header Body

/-! ## Bodies on one line -/

theorem mem_of_mem_unwrapBody {s : Text} {c : Char} (h : c ∈ unwrapBody s) : c ∈ s := by
  obtain ⟨pad, pad', -, -, hs⟩ := wraps_unwrapBody s
  rw [hs]
  simp [h]

theorem splitLines_inlineBody {source : Text} {family : Family} {span : Span} {body : Text}
    (h : span ∈ (extractLines (splitLines source) family).spans)
    (hbody : span.inlineBody = some body) : splitLines body = [body] := by
  have hfunction := mem_functionSpans_of_inlineBody h (by rw [hbody]; rfl)
  obtain ⟨-, number, line, name, hline, -, rfl⟩ := exists_oneLineSpan hfunction hbody
  obtain ⟨-, hunwrapped, hne⟩ := oneLineSpan_inlineBody hbody
  refine splitLines_singleLine hne fun c hc => ?_
  rw [hunwrapped] at hc
  have hc' : c ∈ trim line := (afterParameters_suffix _).subset (mem_of_mem_unwrapBody hc)
  exact not_isLineEnd_of_mem_splitLines (List.mem_of_getElem? hline) c (mem_trim hc')

/-! ## Bodies on lines -/

/-- Lines without line ends are read back when they are joined, but for an empty last one, and the
lines of a text are such lines.  So what is seen of the body of a span is the lines of its range:
loops are read off the first 1000 of them, a tail call off the last ten without an empty one behind
them.  A body that a span carries is a single line. -/
theorem lines_of_body (source tag : Text) :
    let lines := splitLines source
    (∀ joined : List Text, (∀ line ∈ joined, ∀ c ∈ line, isLineEnd c = false) →
        splitLines (joinLines joined) =
          if joined.getLast? = some [] then joined.dropLast else joined)
      ∧ (∀ line ∈ lines, ∀ c ∈ line, isLineEnd c = false)
      ∧ ∀ span ∈ (extract source tag).spans,
        (∀ body, span.inlineBody = some body → splitLines body = [body])
          ∧ (span.inlineBody = none →
            let range := (lines.take span.last.toNat).drop (span.first - 1).toNat
            let body := joinLines range
            let seen := if range.getLast? = some [] then range.dropLast else range
            1 ≤ span.first ∧ 0 ≤ span.last
              ∧ span.body? lines = (if range = [] then none else some body)
              ∧ splitLines body = seen
              ∧ (∀ family, loopDepth family body =
                  min (Nesting.outside.afterLines family (range.take 1000)).deepest 10)
              ∧ (∀ name, isSought name = true →
                  (isTailRecursive name body = true ↔
                    ∃ front line behind, seen = front ++ line :: behind ∧ behind.length < 10
                      ∧ isTailCall name (trim line) = true
                      ∧ ∀ later ∈ behind, countOccurrences (callOf name) (trim later) = 0))) := by
  intro lines
  refine ⟨fun joined => splitLines_joinLines, fun line => not_isLineEnd_of_mem_splitLines, ?_⟩
  intro span hspan
  refine ⟨fun body => splitLines_inlineBody hspan, ?_⟩
  intro hinline range body seen
  have hbounds := bounds_of_mem_extractLines hspan
  have hrange : span.bodyLines lines = range := Span.bodyLines_eq span lines
  have hplain : ∀ line ∈ range, ∀ c ∈ line, isLineEnd c = false := fun line hline =>
    not_isLineEnd_of_mem_bodyLines (hrange ▸ hline)
  have hseen : splitLines body = seen := splitLines_joinLines hplain
  refine ⟨hbounds.1, by omega, ?_, hseen, ?_, ?_⟩
  · by_cases hnone : range = []
    · rw [if_pos hnone]
      exact Span.body?_eq_none hinline (hrange.trans hnone)
    · rw [if_neg hnone]
      exact Span.body?_of_bodyLines hinline hrange hnone
  · exact fun family => loopDepth_eq family (hasLines_joinLines hplain)
  · intro name hname
    rw [isTailRecursive_iff hname, hseen]
    rfl

/-- A function with two empty lines behind its tail call, of which one is seen. -/
theorem lines_of_body_trailing :
    let source := "def f(n):\n  return f(n - 1)\n\n\n".toList
    let span := Span.onLines "f".toList 2 4
    let call := "  return f(n - 1)".toList
    span ∈ (extract source "py".toList).spans
      ∧ span.bodyLines (splitLines source) = [call, [], []]
      ∧ splitLines (joinLines [call, [], []]) = [call, []]
      ∧ isTailRecursive "f".toList (joinLines [call, [], []]) = true := by
  intro source span call
  have hspan : span ∈ (extract source "py".toList).spans := by decide +kernel
  obtain ⟨-, -, hspans⟩ := lines_of_body source "py".toList
  obtain ⟨-, -, -, hseen, -, htail⟩ := (hspans span hspan).2 rfl
  refine ⟨hspan, by decide +kernel, hseen, (htail "f".toList (by decide)).2 ?_⟩
  exact ⟨[], call, [[]], by decide +kernel, by decide, by decide +kernel, by decide⟩

end GrowthEstimate
