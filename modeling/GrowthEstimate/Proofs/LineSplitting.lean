import GrowthEstimate.Text.Lines

/-!
# Splitting texts into lines

* `splitLines_ne_nil`: only the empty text has no lines;
* `splitLines_append`: a text that ends with a line end has its lines to itself, and the lines of
  a text behind it follow them;
* `splitLines_append_feed`: a line feed behind a text changes none of its lines;
* `not_isLineEnd_of_mem_splitLines`: the lines of a text hold no line end;
* `splitLines_joinedWith`: such lines can be joined by any line end and split again, but for an
  empty last one; `splitLines_joinLines` is the case of line feeds;
* `hasLines_joinLines`: joined lines are the lines of a text.
-/

namespace GrowthEstimate.Text

theorem splitLines_ne_nil {s : Text} (h : s ≠ []) : splitLines s ≠ [] := by
  induction s with
  | nil => exact absurd rfl h
  | cons c s ih =>
    rw [splitLines_cons]
    split
    · next hpair =>
      have hs : s ≠ [] := by
        rintro rfl
        simp at hpair
      exact ih hs
    · split
      · exact List.cons_ne_nil _ _
      · exact prependToFirst_ne_nil c _

theorem prependToFirst_append (c : Char) {lines : List Text} (h : lines ≠ [])
    (behind : List Text) :
    prependToFirst c (lines ++ behind) = prependToFirst c lines ++ behind := by
  cases lines with
  | nil => exact absurd rfl h
  | cons line rest => rfl

/-- The first text ends with a line end, which a line feed behind it does not complete. -/
theorem splitLines_append {s t : Text} (hend : s.getLast?.any isLineEnd = true)
    (hpair : ¬ (s.getLast? = some '\r' ∧ t.head? = some '\n')) :
    splitLines (s ++ t) = splitLines s ++ splitLines t := by
  induction s with
  | nil => cases hend
  | cons c s ih =>
    cases s with
    | nil =>
      have hc : isLineEnd c = true := hend
      have hfeed : (c == '\r' && t.head? == some '\n') = false := by
        cases hb : (c == '\r' && t.head? == some '\n') with
        | false => rfl
        | true =>
          simp only [Bool.and_eq_true, beq_iff_eq] at hb
          exact absurd ⟨congrArg some hb.1, hb.2⟩ hpair
      rw [List.singleton_append, splitLines_cons, splitLines_cons, hfeed, hc]
      simp
    | cons d s =>
      have hrest : splitLines (d :: s ++ t) = splitLines (d :: s) ++ splitLines t :=
        ih (by simpa using hend) (by simpa using hpair)
      have hhead : (d :: s ++ t).head? = (d :: s).head? := rfl
      rw [List.cons_append, splitLines_cons, splitLines_cons c, hrest, hhead]
      by_cases hfeed : (c == '\r' && (d :: s).head? == some '\n') = true
      · rw [if_pos hfeed, if_pos hfeed]
      · rw [if_neg hfeed, if_neg hfeed]
        by_cases hc : isLineEnd c = true
        · rw [if_pos hc, if_pos hc]
          rfl
        · rw [if_neg hc, if_neg hc]
          exact prependToFirst_append c (splitLines_ne_nil (List.cons_ne_nil d s)) _

/-- A line feed behind a text ends its last line, and changes none of its lines. -/
theorem splitLines_append_feed (s t : Text) : splitLines s <+: splitLines (s ++ '\n' :: t) := by
  induction s with
  | nil => exact List.nil_prefix
  | cons c s ih =>
    cases s with
    | nil =>
      have hfeed : splitLines ('\n' :: t) = [] :: splitLines t := rfl
      rw [List.singleton_append, splitLines_cons, splitLines_cons c ('\n' :: t), hfeed]
      by_cases hreturn : c = '\r'
      · simp [hreturn, isLineEnd]
      · by_cases hend : isLineEnd c = true <;> simp [hreturn, hend, prependToFirst]
    | cons d s =>
      obtain ⟨behind, hbehind⟩ := ih
      have hhead : (d :: s ++ '\n' :: t).head? = (d :: s).head? := rfl
      rw [List.cons_append, splitLines_cons, splitLines_cons c (d :: s ++ '\n' :: t), hhead,
        ← hbehind]
      split
      · exact List.prefix_append _ behind
      · split
        · exact List.prefix_append ([] :: _) behind
        · rw [prependToFirst_append c (splitLines_ne_nil (List.cons_ne_nil d s))]
          exact List.prefix_append _ behind

/-! ## Lines joined and split -/

theorem not_isLineEnd_of_mem_splitLines {s line : Text} (h : line ∈ splitLines s) :
    ∀ c ∈ line, isLineEnd c = false := by
  induction s generalizing line with
  | nil => cases h
  | cons c s ih =>
    rw [splitLines_cons] at h
    split at h
    · exact ih h
    · split at h
      · rcases List.mem_cons.1 h with rfl | h
        · simp
        · exact ih h
      · next hc =>
        have hplain : isLineEnd c = false := by simpa using hc
        cases hlines : splitLines s with
        | nil =>
          rw [hlines, prependToFirst, List.mem_singleton] at h
          simp [h, hplain]
        | cons first rest =>
          rw [hlines] at ih h
          rcases List.mem_cons.1 h with rfl | h
          · have hfirst := ih (List.mem_cons_self ..)
            simpa [hplain] using hfirst
          · exact ih (List.mem_cons_of_mem _ h)

/-- The line ends as they are written: the characters, and the pair that is one line end. -/
def lineEnds : List Text :=
  ["\n", "\r\n", "\r", "\x0b", "\x0c", "\x1c", "\x1d", "\x1e", "\u0085", "\u2028", "\u2029"].map
    String.toList

/-- The lines with a line end between each two, and behind the last one if they are `ended`. -/
def joinedWith (sep : Text) (ended : Bool) (lines : List Text) : Text :=
  sep.intercalate lines ++ if ended then sep else []

theorem joinedWith_cons_cons (sep : Text) (ended : Bool) (line next : Text) (rest : List Text) :
    joinedWith sep ended (line :: next :: rest) =
      line ++ sep ++ joinedWith sep ended (next :: rest) := by
  simp [joinedWith, List.intercalate, List.intersperse]

theorem joinLines_cons_cons (line next : Text) (rest : List Text) :
    joinLines (line :: next :: rest) = line ++ ['\n'] ++ joinLines (next :: rest) := by
  simp [joinLines, List.intercalate, List.intersperse]

section

variable {sep : Text} (hsep : sep ∈ lineEnds)

include hsep

theorem splitLines_lineEnd {line : Text} (h : ∀ c ∈ line, isLineEnd c = false) :
    splitLines (line ++ sep) = [line] := by
  have alone : ∀ sep ∈ lineEnds, splitLines sep = [[]] := by decide
  induction line with
  | nil => exact alone sep hsep
  | cons c line ih =>
    rw [List.cons_append, splitLines_cons_of_plain (h c (by simp)),
      ih fun d hd => h d (by simp [hd])]
    rfl

/-- No line starts with the second half of a pair, and neither does a line end behind a lone
carriage return. -/
theorem splitLines_append_joinedWith {line next : Text} (rest : List Text) (ended : Bool)
    (h : ∀ c ∈ line, isLineEnd c = false) (hnext : ∀ c ∈ next, isLineEnd c = false) :
    splitLines (line ++ sep ++ joinedWith sep ended (next :: rest)) =
      line :: splitLines (joinedWith sep ended (next :: rest)) := by
  have ends : ∀ sep ∈ lineEnds, sep.getLast?.any isLineEnd = true ∧ sep ≠ []
      ∧ (sep.getLast? = some '\r' → sep = ['\r']) := by decide
  obtain ⟨hend, hne, hreturn⟩ := ends sep hsep
  have hlast : (line ++ sep).getLast? = sep.getLast? := by
    rw [List.getLast?_append, List.getLast?_eq_some_getLast hne, Option.some_or]
  rw [splitLines_append (by rwa [hlast]), splitLines_lineEnd hsep h]
  · rfl
  · rintro ⟨hlone, hfeed⟩
    obtain rfl := hreturn (hlast.symm.trans hlone)
    cases next with
    | cons c next =>
      have hc : c = '\n' := by
        cases rest <;> simpa [joinedWith, List.intercalate] using hfeed
      have hplain := hnext c (by simp)
      rw [hc] at hplain
      cases hplain
    | nil => cases rest <;> cases ended <;> simp [joinedWith, List.intercalate] at hfeed

/-- An empty last line with no line end behind it opens no line of the text, so it is lost. -/
theorem splitLines_joinedWith {lines : List Text}
    (h : ∀ line ∈ lines, ∀ c ∈ line, isLineEnd c = false) (ended : Bool) :
    splitLines (joinedWith sep ended lines) =
      if ended then if lines = [] then [[]] else lines
      else if lines.getLast? = some [] then lines.dropLast else lines := by
  induction lines with
  | nil =>
    cases ended with
    | false => rfl
    | true =>
      have hnone : splitLines ([] ++ sep) = [[]] := splitLines_lineEnd hsep (by simp)
      simpa [joinedWith] using hnone
  | cons line rest ih =>
    have hline := h line (by simp)
    cases rest with
    | nil =>
      cases ended with
      | true => simpa [joinedWith] using splitLines_lineEnd hsep hline
      | false =>
        by_cases hempty : line = []
        · simp [joinedWith, hempty]
        · simp [joinedWith, hempty, splitLines_singleLine hempty hline]
    | cons next rest =>
      rw [joinedWith_cons_cons,
        splitLines_append_joinedWith hsep rest ended hline (h next (by simp)),
        ih fun l hl => h l (by simp [hl])]
      simp only [List.getLast?_cons_cons, List.dropLast_cons_cons, List.cons_ne_nil, if_false]
      split
      · rfl
      · split <;> rfl

end

theorem splitLines_joinLines {lines : List Text}
    (h : ∀ line ∈ lines, ∀ c ∈ line, isLineEnd c = false) :
    splitLines (joinLines lines) =
      if lines.getLast? = some [] then lines.dropLast else lines := by
  have hfeed : ['\n'] ∈ lineEnds := by decide
  have hjoined : joinLines lines = joinedWith ['\n'] false lines := by
    simp [joinLines, joinedWith]
  rw [hjoined, splitLines_joinedWith hfeed h]
  rfl

/-- Whether a text is written on the given lines.  The last of them may be empty, and is then no
line of the text but what follows its last line end. -/
def HasLines (s : Text) (lines : List Text) : Prop :=
  splitLines s = lines ∨ splitLines s ++ [[]] = lines

theorem hasLines_joinLines {lines : List Text}
    (h : ∀ line ∈ lines, ∀ c ∈ line, isLineEnd c = false) : HasLines (joinLines lines) lines := by
  rw [HasLines, splitLines_joinLines h]
  by_cases hlast : lines.getLast? = some []
  · obtain ⟨front, rfl⟩ := List.getLast?_eq_some_iff.1 hlast
    simp
  · rw [if_neg hlast]
    exact Or.inl rfl

end GrowthEstimate.Text
