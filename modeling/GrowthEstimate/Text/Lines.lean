import GrowthEstimate.Text

/-!
# Lines of a text

A line ends at any of the line-end characters, and a carriage return with a line feed behind it
is one line end.  A line end at the very end of a text opens no further line, and the empty text
has no lines.

* `splitLines_cons`: the lines of `c :: s` from the lines of `s`, in the three cases that exist;
* `splitLines_singleLine`: a non-empty text without line ends is its own only line.
-/

namespace GrowthEstimate.Text

/-- Line feed, vertical tab, form feed, carriage return, the file, group and record separators,
next line, and the line and paragraph separators. -/
def isLineEnd (c : Char) : Bool :=
  let n := c.toNat
  (0x0A ≤ n && n ≤ 0x0D) || (0x1C ≤ n && n ≤ 0x1E) || n == 0x85 || n == 0x2028 || n == 0x2029

/-- `c` put in front of the first line; it is a line of its own when there is none. -/
def prependToFirst (c : Char) : List Text → List Text
  | [] => [[c]]
  | line :: rest => (c :: line) :: rest

/-- What a scan from the end of a text knows about the part behind it: whether that part starts
with a line feed, and its lines. -/
structure LineScan where
  atFeed : Bool
  lines : List Text

/-- One character further to the front.  A carriage return in front of a line feed adds nothing,
because the line feed has ended the line already. -/
def LineScan.step (c : Char) (behind : LineScan) : LineScan where
  atFeed := c == '\n'
  lines :=
    if c == '\r' && behind.atFeed then behind.lines
    else if isLineEnd c then [] :: behind.lines
    else prependToFirst c behind.lines

def splitLines (s : Text) : List Text :=
  (s.foldr LineScan.step ⟨false, []⟩).lines

def joinLines (lines : List Text) : Text := ['\n'].intercalate lines

@[simp] theorem splitLines_nil : splitLines [] = [] := rfl

private theorem atFeed_foldr (s : Text) :
    (s.foldr LineScan.step ⟨false, []⟩).atFeed = (s.head? == some '\n') := by
  cases s with
  | nil => rfl
  | cons c s => simp [LineScan.step]

theorem splitLines_cons (c : Char) (s : Text) :
    splitLines (c :: s) =
      if c == '\r' && s.head? == some '\n' then splitLines s
      else if isLineEnd c then [] :: splitLines s
      else prependToFirst c (splitLines s) := by
  rw [splitLines, List.foldr_cons, LineScan.step, atFeed_foldr]
  rfl

theorem splitLines_cons_of_plain {c : Char} (h : isLineEnd c = false) (s : Text) :
    splitLines (c :: s) = prependToFirst c (splitLines s) := by
  have hreturn : (c == '\r') = false := by
    cases hr : c == '\r' with
    | false => rfl
    | true =>
      rw [eq_of_beq hr] at h
      exact absurd h (by decide)
  rw [splitLines_cons, hreturn, h]
  rfl

theorem prependToFirst_ne_nil (c : Char) (lines : List Text) : prependToFirst c lines ≠ [] := by
  cases lines <;> simp [prependToFirst]

theorem splitLines_singleLine {s : Text} (hne : s ≠ []) (h : ∀ c ∈ s, isLineEnd c = false) :
    splitLines s = [s] := by
  induction s with
  | nil => exact absurd rfl hne
  | cons c s ih =>
    rw [splitLines_cons_of_plain (h c (by simp))]
    cases s with
    | nil => rfl
    | cons d s =>
      rw [ih (by simp) fun e he => h e (by simp [he])]
      rfl

end GrowthEstimate.Text
