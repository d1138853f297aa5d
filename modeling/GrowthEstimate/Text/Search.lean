import GrowthEstimate.Text

/-!
# Searching a text

Plain substring tests and the count of non-overlapping occurrences.

* `after?_eq_some_iff`: the text is the token followed by what is given back;
* `occursIn_iff_part`: the test is exactly "is a contiguous part of";
* `occursIn_append`: a text that occurs in a part occurs in the whole;
* `countFrom_acc`: the running count only adds to what is found from there on.
-/

namespace GrowthEstimate.Text

def startsWith (token s : Text) : Bool := token.isPrefixOf s

def endsWith (token s : Text) : Bool := token.isSuffixOf s

/-- What follows `token` at the start of a text. -/
def after? : (token s : Text) → Option Text
  | [], s => some s
  | _ :: _, [] => none
  | t :: token, c :: s => if t == c then after? token s else none

def occursIn (token : Text) : Text → Bool
  | [] => token.isEmpty
  | c :: s => token.isPrefixOf (c :: s) || occursIn token s

def anyOccursIn (tokens : List Text) (s : Text) : Bool :=
  tokens.any fun token => occursIn token s

/-- Occurrences of `token` from here on, added to `found`; the next `skip` characters belong to
an occurrence that is counted already. -/
def countFrom (token : Text) : (skip found : Nat) → Text → Nat
  | _, found, [] => found
  | skip + 1, found, _ :: s => countFrom token skip found s
  | 0, found, c :: s =>
    if token.isPrefixOf (c :: s) then countFrom token (token.length - 1) (found + 1) s
    else countFrom token 0 found s

/-- How often the non-empty `token` occurs in `s`, taken from the left without overlap. -/
def countOccurrences (token s : Text) : Nat := countFrom token 0 0 s

theorem after?_eq_some_iff {token s rest : Text} :
    after? token s = some rest ↔ s = token ++ rest := by
  induction token generalizing s with
  | nil => simp [after?, eq_comm]
  | cons t token ih =>
    cases s with
    | nil => simp [after?]
    | cons c s =>
      by_cases h : t = c
      · simp [after?, h, ih]
      · simp [after?, h, Ne.symm h]

theorem occursIn_iff_part {token s : Text} : occursIn token s = true ↔ token <:+: s := by
  induction s with
  | nil => simp [occursIn]
  | cons c s ih =>
    rw [occursIn, Bool.or_eq_true, List.isPrefixOf_iff_prefix, ih, List.infix_cons_iff]

theorem occursIn_append {token body : Text} (before after : Text) (h : occursIn token body = true) :
    occursIn token (before ++ body ++ after) = true :=
  occursIn_iff_part.2 ((occursIn_iff_part.1 h).trans ⟨before, after, rfl⟩)

theorem countFrom_acc (token s : Text) (skip found : Nat) :
    countFrom token skip found s = found + countFrom token skip 0 s := by
  induction s generalizing skip found with
  | nil => simp [countFrom]
  | cons c s ih =>
    cases skip with
    | succ skip => rw [countFrom, countFrom, ih skip found]
    | zero =>
      rw [countFrom, countFrom]
      split
      · rw [ih _ (found + 1), ih _ (0 + 1)]; omega
      · rw [ih 0 found]

end GrowthEstimate.Text
