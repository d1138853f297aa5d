/-!
# Text

Source text, names and messages are lists of code points, so every length, limit and indent
counts code points.  A class of characters is a predicate, or the ranges of their code points.  This
module holds the type, the class of blank characters and the trims.

* `mem_trimStart`, `mem_trimEnd`, `mem_trim`: a trim only removes characters;
* `trimStart_append_of_blank`: blanks in front of a text do not change what is left.
-/

namespace GrowthEstimate

/-- The code points of a text, in order. -/
abbrev Text := List Char

namespace Text

/-- The blank characters: tabs, line ends, the four information separators, and the spaces of
every width.  The zero-width characters are no blanks. -/
def isBlank (c : Char) : Bool :=
  let n := c.toNat
  (0x09 ≤ n && n ≤ 0x0D) || (0x1C ≤ n && n ≤ 0x20) || n == 0x85 || n == 0xA0 || n == 0x1680 ||
    (0x2000 ≤ n && n ≤ 0x200A) || n == 0x2028 || n == 0x2029 || n == 0x202F || n == 0x205F ||
    n == 0x3000

/-- First and last code point of each run of a class of characters. -/
abbrev Ranges := List (Nat × Nat)

def Ranges.contain (ranges : Ranges) (c : Char) : Bool :=
  let n := c.toNat
  ranges.any fun (first, last) => first ≤ n && n ≤ last

def dropEndWhile (p : Char → Bool) (s : Text) : Text :=
  (s.reverse.dropWhile p).reverse

def trimStart (s : Text) : Text := s.dropWhile isBlank

def trimEnd (s : Text) : Text := dropEndWhile isBlank s

def trim (s : Text) : Text := trimEnd (trimStart s)

/-- The part of `s` in front of its first `c`, or all of `s`. -/
def upTo (c : Char) (s : Text) : Text := s.takeWhile (· != c)

/-- The maximal blank-free pieces of `s`, in order. -/
def words (s : Text) : List Text := (s.splitOnP isBlank).filter (!·.isEmpty)

theorem mem_dropEndWhile {p : Char → Bool} {s : Text} {c : Char} (h : c ∈ dropEndWhile p s) :
    c ∈ s := by
  rw [dropEndWhile, List.mem_reverse] at h
  exact List.mem_reverse.1 ((List.dropWhile_sublist p).mem h)

theorem mem_trimStart {s : Text} {c : Char} (h : c ∈ trimStart s) : c ∈ s :=
  (List.dropWhile_sublist isBlank).mem h

theorem mem_trimEnd {s : Text} {c : Char} (h : c ∈ trimEnd s) : c ∈ s :=
  mem_dropEndWhile h

theorem mem_trim {s : Text} {c : Char} (h : c ∈ trim s) : c ∈ s :=
  mem_trimStart (mem_trimEnd h)

theorem trimStart_append_of_blank {pad : Text} (h : ∀ c ∈ pad, isBlank c = true) (s : Text) :
    trimStart (pad ++ s) = trimStart s := by
  induction pad with
  | nil => rfl
  | cons c pad ih =>
    have hc : isBlank c = true := h c (by simp)
    have hs : ∀ d ∈ pad, isBlank d = true := fun d hd => h d (by simp [hd])
    simpa [trimStart, List.dropWhile_cons, hc] using ih hs

end Text

end GrowthEstimate
