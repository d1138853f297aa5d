import Mathlib.Data.List.Infix
import GrowthEstimate.Header.Parameters
import GrowthEstimate.Text.Search

/-!
# Balanced parameter lists

Parentheses inside a parameter list come in pairs.  The scan for what follows the list counts them,
so it ends at the parenthesis that closes the list and nowhere else.

* `afterClosing_append`: the scan goes through a text that closes no more than is open;
* `afterClosing_cases`: what it finds stands behind the parenthesis that closes the last open one;
* `afterParameters_group`: behind a balanced list the rest of the line follows;
* `afterParameters_cases`: what follows the parameters, for every first parenthesis and arrow.
-/

namespace GrowthEstimate.Header

open Text

/-- Parentheses that come in pairs. -/
structure IsBalanced (s : Text) : Prop where
  /-- No piece at the start closes more than it opens. -/
  count_le : ∀ front, front <+: s → front.count ')' ≤ front.count '('
  count_eq : s.count ')' = s.count '('

instance (s : Text) : Decidable (IsBalanced s) :=
  decidable_of_iff
    ((∀ front ∈ s.inits, front.count ')' ≤ front.count '(') ∧ s.count ')' = s.count '(')
    ⟨fun h => ⟨fun front hs => h.1 front ((List.mem_inits front s).2 hs), h.2⟩,
      fun h => ⟨fun front hs => h.count_le front ((List.mem_inits front s).1 hs), h.count_eq⟩⟩

@[simp] theorem afterClosing_open (depth : Nat) (s : Text) :
    afterClosing depth ('(' :: s) = afterClosing (depth + 1) s := rfl

@[simp] theorem afterClosing_close (depth : Nat) (s : Text) :
    afterClosing (depth + 2) (')' :: s) = afterClosing (depth + 1) s := by
  simp [afterClosing]

theorem afterClosing_cons {c : Char} (hopen : c ≠ '(') (hclose : c ≠ ')') (depth : Nat)
    (s : Text) : afterClosing depth (c :: s) = afterClosing depth s := by
  simp [afterClosing, hopen, hclose]

theorem afterClosing_append {s : Text} {depth : Nat}
    (h : ∀ front, front <+: s → front.count ')' ≤ depth + front.count '(') (rest : Text) :
    afterClosing (depth + 1) (s ++ rest) =
      afterClosing (depth + 1 + s.count '(' - s.count ')') rest := by
  induction s generalizing depth with
  | nil => rfl
  | cons c s ih =>
    have hfront : ∀ front, front <+: s →
        (c :: front).count ')' ≤ depth + (c :: front).count '(' :=
      fun front hs => h _ (List.cons_prefix_cons.2 ⟨rfl, hs⟩)
    by_cases hopen : c = '('
    · subst hopen
      have hne : '(' ≠ ')' := by decide
      simp only [List.count_cons_self, List.count_cons_of_ne hne] at hfront ⊢
      rw [List.cons_append, afterClosing_open, ih fun front hs => by have := hfront front hs; omega]
      congr 1
      omega
    by_cases hclose : c = ')'
    · subst hclose
      have hne : ')' ≠ '(' := by decide
      simp only [List.count_cons_self, List.count_cons_of_ne hne] at hfront ⊢
      -- the parenthesis is one of those that are open in front of the text
      obtain ⟨depth, rfl⟩ : ∃ d, depth = d + 1 := by
        have hone := hfront [] List.nil_prefix
        exact ⟨depth - 1, by simp at hone; omega⟩
      rw [List.cons_append, afterClosing_close,
        ih fun front hs => by have := hfront front hs; omega]
      congr 1
      omega
    · simp only [List.count_cons_of_ne hopen, List.count_cons_of_ne hclose] at hfront ⊢
      rw [List.cons_append, afterClosing_cons hopen hclose, ih hfront]

theorem afterClosing_balanced {params : Text} (h : IsBalanced params) (depth : Nat) (rest : Text) :
    afterClosing (depth + 1) (params ++ rest) = afterClosing (depth + 1) rest := by
  have hle : ∀ front, front <+: params → front.count ')' ≤ depth + front.count '(' :=
    fun front hfront => Nat.le_trans (h.count_le front hfront) (Nat.le_add_left _ _)
  rw [afterClosing_append hle, h.count_eq, Nat.add_sub_cancel]

/-- A character in front of a text counts on either side of the bound on its pieces. -/
theorem count_le_of_prefix_cons {c : Char} {s : Text} {inner outer : Nat}
    (h : ∀ front, front <+: s → front.count ')' ≤ inner + front.count '(')
    (hstep : [c].count ')' + inner = outer + [c].count '(') :
    ∀ front, front <+: c :: s → front.count ')' ≤ outer + front.count '(' := by
  intro front hfront
  rcases List.prefix_cons_iff.1 hfront with rfl | ⟨front, rfl, hinside⟩
  · simp
  · have hinner := h front hinside
    rw [← List.singleton_append, List.count_append, List.count_append]
    omega

/-- What the scan finds stands behind the parenthesis that closes the last of the open ones. -/
theorem afterClosing_cases (depth : Nat) (s : Text) :
    afterClosing (depth + 1) s = [] ∨
      ∃ params, s = params ++ ')' :: afterClosing (depth + 1) s
        ∧ (∀ front, front <+: params → front.count ')' ≤ depth + front.count '(')
        ∧ params.count ')' = depth + params.count '(' := by
  induction s generalizing depth with
  | nil => exact Or.inl rfl
  | cons c s ih =>
    by_cases hopen : c = '('
    · subst hopen
      rw [afterClosing_open]
      rcases ih (depth + 1) with hnil | ⟨params, hs, hfront, hcount⟩
      · exact Or.inl hnil
      · refine Or.inr ⟨'(' :: params, congrArg ('(' :: ·) hs, ?_, ?_⟩
        · exact count_le_of_prefix_cons hfront (by simp)
        · simp
          omega
    by_cases hclose : c = ')'
    · subst hclose
      cases depth with
      | zero => exact Or.inr ⟨[], rfl, by simp, by simp⟩
      | succ depth =>
        rw [afterClosing_close]
        rcases ih depth with hnil | ⟨params, hs, hfront, hcount⟩
        · exact Or.inl hnil
        · refine Or.inr ⟨')' :: params, congrArg (')' :: ·) hs, ?_, ?_⟩
          · exact count_le_of_prefix_cons hfront (by simp; omega)
          · simp
            omega
    · rw [afterClosing_cons hopen hclose]
      rcases ih depth with hnil | ⟨params, hs, hfront, hcount⟩
      · exact Or.inl hnil
      · refine Or.inr ⟨c :: params, congrArg (c :: ·) hs, ?_, ?_⟩
        · exact count_le_of_prefix_cons hfront (by simp [hopen, hclose])
        · simpa [hopen, hclose] using hcount

/-- A parenthesis that nothing closes has nothing behind it. -/
theorem afterClosing_of_unclosed {s : Text}
    (h : ∀ params rest, IsBalanced params → s ≠ params ++ ')' :: rest) : afterClosing 1 s = [] := by
  rcases afterClosing_cases 0 s with hnil | ⟨params, hs, hfront, hcount⟩
  · exact hnil
  · have hparams : IsBalanced params :=
      ⟨fun front hf => by simpa using hfront front hf, by simpa using hcount⟩
    exact absurd hs (h params _ hparams)

/-- The scan for the list passes over a text that holds neither a parenthesis nor an arrow, when no
arrow ends in what follows. -/
theorem afterParameters_skip {before rest : Text} (hopen : '(' ∉ before)
    (harrow : occursIn "=>".toList before = false) (hrest : rest.head? ≠ some '>') :
    afterParameters (before ++ rest) = afterParameters rest := by
  induction before with
  | nil => rfl
  | cons c before ih =>
    rw [List.mem_cons, not_or] at hopen
    rw [occursIn, Bool.or_eq_false_iff] at harrow
    have hnot : (c == '=' && (before ++ rest).head? == some '>') = false := by
      rw [Bool.eq_false_iff]
      intro hstarts
      rw [Bool.and_eq_true, beq_iff_eq, beq_iff_eq] at hstarts
      obtain ⟨rfl, hhead⟩ := hstarts
      cases before with
      | nil => exact hrest hhead
      | cons d before =>
        obtain rfl : d = '>' := by simpa using hhead
        have hprefix := harrow.1
        simp at hprefix
    rw [List.cons_append, afterParameters, if_neg (by simpa using Ne.symm hopen.1), hnot]
    exact ih hopen.2 harrow.2

/-- The first parenthesis opens the list when no arrow comes before it. -/
theorem afterParameters_append {before : Text} (hopen : '(' ∉ before)
    (harrow : occursIn "=>".toList before = false) (rest : Text) :
    afterParameters (before ++ '(' :: rest) = afterClosing 1 rest := by
  rw [afterParameters_skip hopen harrow (by simp)]
  rfl

/-- Behind the parameters of a function stands the rest of its line. -/
theorem afterParameters_group {before params : Text} (hopen : '(' ∉ before)
    (harrow : occursIn "=>".toList before = false) (hparams : IsBalanced params) (rest : Text) :
    afterParameters (before ++ '(' :: (params ++ ')' :: rest)) = rest := by
  rw [afterParameters_append hopen harrow, afterClosing_balanced hparams]
  rfl

/-- What follows the parameters is known from where the first parenthesis or arrow stands.  Behind a
balanced list, or behind an arrow, it is all that is left; behind a parenthesis that nothing closes,
and on a line that has neither, it is nothing.  It is an end piece of every line. -/
theorem afterParameters_cases (before : Text) (hopen : '(' ∉ before)
    (harrow : occursIn "=>".toList before = false) :
    (∀ params rest, IsBalanced params →
        afterParameters (before ++ '(' :: (params ++ ')' :: rest)) = rest)
      ∧ (∀ rest, (∀ params behind, IsBalanced params → rest ≠ params ++ ')' :: behind) →
        afterParameters (before ++ '(' :: rest) = [])
      ∧ (∀ rest, afterParameters (before ++ '=' :: '>' :: rest) = rest)
      ∧ afterParameters before = []
      ∧ ∀ line, afterParameters line <:+ line := by
  refine ⟨?_, ?_, ?_, ?_, afterParameters_suffix⟩
  · intro params rest hparams
    exact afterParameters_group hopen harrow hparams rest
  · intro rest hunclosed
    rw [afterParameters_append hopen harrow, afterClosing_of_unclosed hunclosed]
  · intro rest
    rw [afterParameters_skip hopen harrow (by simp)]
    rfl
  · have hnothing : afterParameters (before ++ []) = [] :=
      afterParameters_skip hopen harrow (by simp)
    rwa [List.append_nil] at hnothing

/-- A list with parentheses in it, and behind it more of them and an arrow; a list that is left
open; and an arrow in front of every parenthesis. -/
theorem afterParameters_cases_nested :
    afterParameters "= f(a(b), (c)) => (d) => e)".toList = " => (d) => e)".toList
      ∧ afterParameters "= f((a) => b".toList = []
      ∧ afterParameters "= f=> (a)) => b".toList = " (a)) => b".toList
      ∧ afterParameters "= f".toList = []
      ∧ " => (d) => e)".toList <:+ "= f(a(b), (c)) => (d) => e)".toList := by
  obtain ⟨hgroup, hunclosed, harrow, hnothing, hsuffix⟩ :=
    afterParameters_cases "= f".toList (by decide) (by decide)
  have hlist := hgroup "a(b), (c)".toList " => (d) => e)".toList (by decide)
  refine ⟨hlist, hunclosed "(a) => b".toList ?_, harrow " (a)) => b".toList, hnothing, ?_⟩
  · intro params behind hparams hsplit
    have hbalanced : IsBalanced "(a) => b".toList := by decide
    have hle := hbalanced.count_le (params ++ [')']) ⟨behind, by simp [hsplit]⟩
    have heq := hparams.count_eq
    simp at hle
    omega
  · rw [← hlist]
    exact hsuffix _

end GrowthEstimate.Header
