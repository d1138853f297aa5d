import GrowthEstimate.Proofs.Blanks
import GrowthEstimate.Proofs.LoopInsertion

/-!
# Loops in blocks of braces

In a body that is written in blocks, each block opens with a brace at the end of a line and closes
with a brace on a line of its own.  Every closing brace ends one of the loops that are counted as
open, also when the block was no loop, so no more loops are counted than blocks that are loops are
open.  They are the same number as long as every block is a loop.

* `after_inner`, `after_opening`, `after_closing`: what one line of a body in blocks does;
* `afterLines_blocks_le`: a run over whole blocks counts no more loops than stand inside each other;
* `afterLines_of_onlyLoops`: it counts exactly these when every block is a loop;
* `loopDepth_blocks`: the depth of a body in blocks.
-/

namespace GrowthEstimate.Body

open Text

/-! ## Bodies in blocks -/

/-- Whether a line of a language with braces starts a loop and is no comment. -/
def startsLoop (line : Text) : Bool := !isSkipped (trim line) && isLoopStart .brace (trim line)

/-- A line between the lines of braces: a statement, a blank line or a comment. -/
structure InnerLine where
  text : Text
  startsLoop_eq : startsLoop text = false
  unbraced : isSkipped (trim text) = true ∨ ('{' ∉ text ∧ '}' ∉ text)

structure Opening (loop : Bool) where
  text : Text
  startsLoop_eq : startsLoop text = loop
  opens : '{' ∈ text
  closesNone : '}' ∉ text

structure Closing where
  text : Text
  trim_eq : trim text = ['}']

/-- Blocks and the lines between them, in their order. -/
inductive Blocks
  | none
  | line (inner : InnerLine) (rest : Blocks)
  | block (loop : Bool) (opening : Opening loop) (inside : Blocks) (closing : Closing)
      (rest : Blocks)

namespace Blocks

def lines : Blocks → List Text
  | none => []
  | line inner rest => inner.text :: rest.lines
  | block _ opening inside closing rest =>
    opening.text :: (inside.lines ++ closing.text :: rest.lines)

/-- The greatest number of loops inside each other. -/
def nesting : Blocks → Nat
  | none => 0
  | line _ rest => rest.nesting
  | block loop _ inside _ rest => max (inside.nesting + loop.toNat) rest.nesting

def onlyLoops : Blocks → Bool
  | none => true
  | line _ rest => rest.onlyLoops
  | block loop _ inside _ rest => loop && inside.onlyLoops && rest.onlyLoops

end Blocks

def onlyCloses (line : Text) : Bool := line.all fun c => c == '}' || isBlank c

/-! ## One line -/

/-- The nesting behind the line that opens a block. -/
def Nesting.enter (loop : Bool) (n : Nesting) : Nesting :=
  ⟨n.depth + loop.toNat, max n.deepest (n.depth + loop.toNat)⟩

/-- The nesting behind the line that closes a block. -/
def Nesting.leave (n : Nesting) : Nesting := ⟨n.depth - 1, n.deepest⟩

section

variable {n : Nesting}

theorem Nesting.afterLines_cons (family : Family) (n : Nesting) (line : Text) (rest : List Text) :
    n.afterLines family (line :: rest) = (n.after family line).afterLines family rest := rfl

theorem Nesting.after_of_not_startsLoop {line : Text} (h : startsLoop line = false)
    (hn : n.depth ≤ n.deepest) :
    n.after .brace line =
      if isSkipped (trim line) then n else ⟨n.depth - line.count '}', n.deepest⟩ := by
  rw [after]
  cases hskip : isSkipped (trim line) with
  | true => rfl
  | false =>
    have hloop : isLoopStart .brace (trim line) = false := by simpa [startsLoop, hskip] using h
    simp [hloop, openBehind, Nat.max_eq_left hn]

theorem Nesting.after_inner (inner : InnerLine) (hn : n.depth ≤ n.deepest) :
    n.after .brace inner.text = n := by
  rw [after_of_not_startsLoop inner.startsLoop_eq hn]
  rcases inner.unbraced with hskip | ⟨-, hnone⟩
  · rw [if_pos hskip]
  · rw [List.count_eq_zero.2 hnone, Nat.sub_zero, ite_self]

theorem Nesting.after_opening {loop : Bool} (opening : Opening loop) (hn : n.depth ≤ n.deepest) :
    n.after .brace opening.text = n.enter loop := by
  have hnone : opening.text.count '}' = 0 := List.count_eq_zero.2 opening.closesNone
  have hstarts := opening.startsLoop_eq
  cases loop with
  | false =>
    rw [after_of_not_startsLoop hstarts hn, hnone, Nat.sub_zero, ite_self]
    simp [enter, Nat.max_eq_left hn]
  | true =>
    simp only [startsLoop, Bool.and_eq_true, Bool.not_eq_true'] at hstarts
    simp [after, enter, hstarts.1, hstarts.2, openBehind, hnone]

theorem Nesting.after_closing (closing : Closing) (hn : n.depth ≤ n.deepest) :
    n.after .brace closing.text = n.leave := by
  have hcount : closing.text.count '}' = 1 := by
    rw [← count_trim (by decide) closing.text, closing.trim_eq]
    rfl
  have hstarts : startsLoop closing.text = false := by
    rw [startsLoop, closing.trim_eq]
    decide
  have hskip : isSkipped (trim closing.text) = false := by
    rw [closing.trim_eq]
    decide
  rw [after_of_not_startsLoop hstarts hn, hskip, hcount]
  rfl

/-- The words of loops are written with other characters than closing braces and blanks. -/
theorem startsLoop_of_onlyCloses {line : Text} (h : onlyCloses line = true) :
    startsLoop line = false := by
  have words : ((bracedLoopWords ++ inlineLoopWords).all fun word =>
      word.any fun c => !(c == '}' || isBlank c)) = true := by decide
  have hnone : ∀ word ∈ bracedLoopWords ++ inlineLoopWords, ¬ word <:+: trim line := by
    intro word hword hpart
    obtain ⟨c, hc, hother⟩ := List.any_eq_true.1 (List.all_eq_true.1 words word hword)
    rw [List.all_eq_true.1 h c (mem_trim (hpart.subset hc))] at hother
    cases hother
  have hloop : ¬ isLoopStart .brace (trim line) = true := by
    simp only [isLoopStart, anyOccursIn, Bool.or_eq_true, List.any_eq_true]
    rintro (⟨word, hword, hstarts⟩ | ⟨word, hword, hoccurs⟩)
    · exact hnone word (List.mem_append_left _ hword)
        (List.isPrefixOf_iff_prefix.1 hstarts).isInfix
    · exact hnone word (List.mem_append_right _ hword) (occursIn_iff_part.1 hoccurs)
  simp [startsLoop, hloop]

theorem Nesting.deepest_after_onlyCloses {line : Text} (h : onlyCloses line = true)
    (hn : n.depth ≤ n.deepest) : (n.after .brace line).deepest = n.deepest := by
  rw [after_of_not_startsLoop (startsLoop_of_onlyCloses h) hn]
  split <;> rfl

/-! ## Whole blocks -/

theorem Nesting.depth_le_deepest_enter (loop : Bool) (n : Nesting) :
    (n.enter loop).depth ≤ (n.enter loop).deepest :=
  Nat.le_max_right _ _

theorem Nesting.depth_le_deepest_leave (hn : n.depth ≤ n.deepest) :
    n.leave.depth ≤ n.leave.deepest :=
  Nat.le_trans (Nat.sub_le _ _) hn

theorem Nesting.afterLines_block {loop : Bool} (opening : Opening loop) (inside : Blocks)
    (closing : Closing) (rest : Blocks) (hn : n.depth ≤ n.deepest) :
    n.afterLines .brace (Blocks.block loop opening inside closing rest).lines =
      ((n.enter loop).afterLines .brace inside.lines).leave.afterLines .brace rest.lines := by
  have hwithin := depth_le_deepest_afterLines .brace (depth_le_deepest_enter loop n) inside.lines
  rw [Blocks.lines, afterLines_cons, after_opening opening hn, afterLines_append, afterLines_cons,
    after_closing closing hwithin]

/-- A run over whole blocks leaves no more loops open than it found, and counts no more loops than
stand inside each other. -/
theorem Nesting.afterLines_blocks_le (blocks : Blocks) (hn : n.depth ≤ n.deepest) :
    (n.afterLines .brace blocks.lines).depth ≤ n.depth
      ∧ (n.afterLines .brace blocks.lines).deepest ≤ max n.deepest (n.depth + blocks.nesting) := by
  induction blocks generalizing n with
  | none => exact ⟨Nat.le_refl _, Nat.le_max_left _ _⟩
  | line inner rest ih =>
    rw [Blocks.lines, afterLines_cons, after_inner inner hn]
    exact ih hn
  | block loop opening inside closing rest ihInside ihRest =>
    rw [afterLines_block opening inside closing rest hn]
    have hinside := ihInside (depth_le_deepest_enter loop n)
    have hwithin := depth_le_deepest_afterLines .brace (depth_le_deepest_enter loop n) inside.lines
    generalize (n.enter loop).afterLines .brace inside.lines = within at *
    -- the brace takes away no less than the opening line has added, so `rest` starts no deeper
    have hrest := ihRest (depth_le_deepest_leave hwithin)
    have hloop : loop.toNat ≤ 1 := Bool.toNat_le loop
    simp only [enter, leave, Blocks.nesting] at *
    omega

/-- When every block is a loop, each closing brace ends the loop that its own block has started. -/
theorem Nesting.afterLines_of_onlyLoops {blocks : Blocks} (h : blocks.onlyLoops = true)
    (hn : n.depth ≤ n.deepest) :
    n.afterLines .brace blocks.lines = ⟨n.depth, max n.deepest (n.depth + blocks.nesting)⟩ := by
  induction blocks generalizing n with
  | none =>
    rw [Blocks.nesting, Nat.add_zero, Nat.max_eq_left hn]
    rfl
  | line inner rest ih =>
    rw [Blocks.lines, afterLines_cons, after_inner inner hn]
    exact ih h hn
  | block loop opening inside closing rest ihInside ihRest =>
    simp only [Blocks.onlyLoops, Bool.and_eq_true] at h
    obtain ⟨⟨rfl, hinside⟩, hrest⟩ := h
    have hwithin := depth_le_deepest_afterLines .brace (depth_le_deepest_enter true n) inside.lines
    rw [afterLines_block opening inside closing rest hn,
      ihRest hrest (depth_le_deepest_leave hwithin),
      ihInside hinside (depth_le_deepest_enter true n)]
    simp only [enter, leave, Blocks.nesting, Bool.toNat_true, Nesting.mk.injEq]
    omega

theorem Nesting.deepest_afterLines_onlyCloses {behind : List Text}
    (h : ∀ line ∈ behind, onlyCloses line = true) (hn : n.depth ≤ n.deepest) :
    (n.afterLines .brace behind).deepest = n.deepest := by
  induction behind generalizing n with
  | nil => rfl
  | cons line rest ih =>
    rw [List.forall_mem_cons] at h
    rw [afterLines_cons, ih h.2 (depth_le_deepest_after .brace hn line),
      deepest_after_onlyCloses h.1 hn]

end

/-- All languages with braces have the same loops. -/
theorem loopDepth_eq_of_braces {family : Family} (h : family ≠ .indentation) (body : Text) :
    loopDepth family body = loopDepth .brace body := by
  cases family with
  | indentation => exact absurd rfl h
  | brace | script | generic => rfl

/-- In a body that is written in blocks on at most 1000 lines, with any number of closing braces
behind them, the loop depth is at most the greatest number of loops inside each other, up to 10, and
exactly that number when every block is a loop. -/
theorem loopDepth_blocks (family : Family) (hfamily : family ≠ .indentation) (blocks : Blocks)
    (hcount : blocks.lines.length ≤ 1000) (behind : List Text)
    (hbehind : ∀ line ∈ behind, onlyCloses line = true) (body : Text)
    (hbody : body.HasLines (blocks.lines ++ behind)) :
    loopDepth family body ≤ min 10 blocks.nesting
      ∧ (blocks.onlyLoops = true → loopDepth family body = min 10 blocks.nesting) := by
  have hstart : Nesting.outside.depth ≤ Nesting.outside.deepest := Nat.le_refl 0
  have hshort : blocks.lines.length ≤ loopScanLines := hcount
  have hscan : (blocks.lines ++ behind).take loopScanLines =
      blocks.lines ++ behind.take (loopScanLines - blocks.lines.length) := by
    rw [List.take_append, List.take_of_length_le hshort]
  have hdepth : loopDepth family body =
      min (Nesting.outside.afterLines .brace blocks.lines).deepest 10 := by
    rw [loopDepth_eq_of_braces hfamily, loopDepth_eq .brace hbody, hscan,
      Nesting.afterLines_append, Nesting.deepest_afterLines_onlyCloses
        (fun line hline => hbehind line (List.mem_of_mem_take hline))
        (depth_le_deepest_afterLines .brace hstart blocks.lines)]
    rfl
  have hle := (Nesting.afterLines_blocks_le blocks hstart).2
  rw [hdepth]
  simp only [Nesting.outside] at *
  refine ⟨by omega, ?_⟩
  intro honly
  rw [Nesting.afterLines_of_onlyLoops honly hstart]
  simp only
  omega

/-- The brace that closes a block without a loop ends a loop as well. -/
example :
    let body := "for (a) \x7b\n  if (b) \x7b\n  \x7d\n  for (c) \x7b\n  \x7d\n\x7d".toList
    loopDepth .brace body = 1 := by
  decide +kernel

/-- Two loops inside each other, a third one behind them, a comment on loops, and the brace that ends
the function. -/
theorem loopDepth_blocks_loops :
    ∃ blocks : Blocks, blocks.lines =
        ["  for (x of a) \x7b", "    // for (y of x) \x7b", "    while (x) \x7b",
          "      x = f(x);", "    \x7d", "  \x7d", "  for (y of b) \x7b",
          "  \x7d"].map String.toList
      ∧ Family.script ≠ .indentation ∧ blocks.lines.length ≤ 1000
      ∧ (∀ line ∈ ["\x7d".toList], onlyCloses line = true)
      ∧ (joinLines (blocks.lines ++ ["\x7d".toList])).HasLines (blocks.lines ++ ["\x7d".toList])
      ∧ blocks.onlyLoops = true ∧ blocks.nesting = 2
      ∧ loopDepth .script (joinLines (blocks.lines ++ ["\x7d".toList])) = 2 := by
  let innermost : Blocks := .block true
    ⟨"    while (x) \x7b".toList, by decide +kernel, by decide, by decide⟩
    (.line ⟨"      x = f(x);".toList, by decide +kernel, by decide +kernel⟩ .none)
    ⟨"    \x7d".toList, by decide⟩ .none
  let behind : Blocks := .block true
    ⟨"  for (y of b) \x7b".toList, by decide +kernel, by decide, by decide⟩ .none
    ⟨"  \x7d".toList, by decide⟩ .none
  let blocks : Blocks := .block true
    ⟨"  for (x of a) \x7b".toList, by decide +kernel, by decide, by decide⟩
    (.line ⟨"    // for (y of x) \x7b".toList, by decide +kernel, by decide +kernel⟩ innermost)
    ⟨"  \x7d".toList, by decide⟩ behind
  have hfamily : Family.script ≠ .indentation := by decide
  have hcount : blocks.lines.length ≤ 1000 := by decide
  have hbehind : ∀ line ∈ ["\x7d".toList], onlyCloses line = true := by decide
  have hbody : (joinLines (blocks.lines ++ ["\x7d".toList])).HasLines
      (blocks.lines ++ ["\x7d".toList]) := Or.inl (by decide +kernel)
  have honly : blocks.onlyLoops = true := rfl
  have hnesting : blocks.nesting = 2 := rfl
  obtain ⟨-, hdepth⟩ := loopDepth_blocks .script hfamily blocks hcount _ hbehind _ hbody
  refine ⟨blocks, rfl, hfamily, hcount, hbehind, hbody, honly, hnesting, ?_⟩
  rw [hdepth honly, hnesting]
  rfl

end GrowthEstimate.Body
