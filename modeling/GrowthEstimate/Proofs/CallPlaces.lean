import GrowthEstimate.Proofs.FunctionNames
import GrowthEstimate.Proofs.LeadingKeywords
import GrowthEstimate.Proofs.Placeholder

/-!
# Where a function calls itself

The calls of a name are the parentheses that stand right behind it.  No two of them share a
character, so the count from the left, which goes on behind each call that it finds, misses none,
and lines are counted one by one.  A tail call is the last call of a body, alone on a line that
returns.

* `countOccurrences_callOf`: the count is the number of the places;
* `find?_reverse_eq_some_iff`, `exists_window_iff`: the last line of its kind among the last few;
* `isTailRecursive_iff`: which bodies end in a tail call;
* `selfCalls_of_lines`: the count over a text and over its lines, and what the signals and the notes
  on recursion say of it.
-/

namespace GrowthEstimate

open Text Header Body

/-! ## Places -/

/-- The places of the parentheses of a text that stand right behind the name. -/
def callPlaces (name s : Text) : List Nat :=
  (List.range s.length).filter fun i => s[i]? == some '(' && endsWith name (s.take i)

section

variable {name : Text}

theorem callPlaces_of_not_mem {s : Text} (h : '(' ∉ s) : callPlaces name s = [] := by
  refine List.filter_eq_nil_iff.2 fun i _ hplace => ?_
  rw [Bool.and_eq_true, beq_iff_eq] at hplace
  exact h (List.mem_of_getElem? hplace.1)

/-- The name holds no parenthesis, so it does not reach back over one. -/
theorem endsWith_append_open (hname : '(' ∉ name) (u t : Text) :
    endsWith name (u ++ '(' :: t) = endsWith name t := by
  rw [Bool.eq_iff_iff, endsWith, endsWith, List.isSuffixOf_iff_suffix, List.isSuffixOf_iff_suffix]
  constructor
  · intro hends
    rcases List.suffix_or_suffix_of_suffix hends (List.suffix_append u ('(' :: t)) with
      hwithin | hover
    · rcases List.suffix_cons_iff.1 hwithin with rfl | hbehind
      · exact absurd List.mem_cons_self hname
      · exact hbehind
    · exact absurd (hover.subset List.mem_cons_self) hname
  · intro hends
    exact hends.trans ((List.suffix_cons '(' t).trans (List.suffix_append u _))

theorem callPlaces_split (hname : '(' ∉ name) (u t : Text) :
    callPlaces name (u ++ '(' :: t) =
      callPlaces name (u ++ ['(']) ++ (callPlaces name t).map (u.length + 1 + ·) := by
  have hlength : (u ++ '(' :: t).length = (u ++ ['(']).length + t.length := by simp; omega
  have hcut : u ++ '(' :: t = u ++ ['('] ++ t := List.append_cons u '(' t
  rw [callPlaces, hlength, List.range_add, List.filter_append, List.filter_map]
  congr 1
  · refine List.filter_congr fun i hi => ?_
    have hwithin : i < (u ++ ['(']).length := List.mem_range.1 hi
    rw [hcut, List.getElem?_append_left hwithin, List.take_append_of_le_length hwithin.le]
  · have hshift : ∀ i, (u ++ ['(']).length + i = u.length + 1 + i := by simp
    simp only [hshift]
    congr 1
    refine List.filter_congr fun i _ => ?_
    have htake : (u ++ '(' :: t).take (u.length + 1 + i) = u ++ '(' :: t.take i := by
      rw [Nat.add_assoc, List.take_length_add_append, Nat.add_comm 1 i, List.take_succ_cons]
    have hget : (u ++ '(' :: t)[u.length + 1 + i]? = t[i]? := by
      rw [hcut, List.getElem?_append_right (by simp)]
      simp
    rw [Function.comp_apply, htake, hget, endsWith_append_open hname]

theorem callPlaces_open {u : Text} (hu : '(' ∉ u) :
    callPlaces name (u ++ ['(']) = if endsWith name u then [u.length] else [] := by
  have hnone : (List.range u.length).filter (fun i =>
      (u ++ ['('])[i]? == some '(' && endsWith name ((u ++ ['(']).take i)) = [] := by
    refine List.filter_eq_nil_iff.2 fun i hi hplace => ?_
    rw [Bool.and_eq_true, beq_iff_eq, List.getElem?_append_left (List.mem_range.1 hi)] at hplace
    exact hu (List.mem_of_getElem? hplace.1)
  rw [callPlaces, List.length_append, List.length_singleton, List.range_succ, List.filter_append,
    hnone]
  simp [List.filter_singleton]

/-! ## The count -/

theorem countFrom_of_length_le {token s : Text} {skip : Nat} (h : s.length ≤ skip) (found : Nat) :
    countFrom token skip found s = found := by
  induction s generalizing skip with
  | nil => rfl
  | cons c s ih =>
    obtain ⟨skip, rfl⟩ : ∃ k, skip = k + 1 := ⟨skip - 1, by simp at h; omega⟩
    exact ih (Nat.le_of_succ_le_succ h)

/-- A call that starts in front of a parenthesis ends with it. -/
theorem staysWithin_open (hname : '(' ∉ name) (u t : Text) :
    StaysWithin (callOf name) (u ++ ['(']) t := by
  intro w hw hne hstarts
  obtain ⟨w, rfl⟩ : ∃ w', w = w' ++ ['('] := by
    rcases List.suffix_concat_iff.1 hw with rfl | ⟨w', rfl, -⟩
    · exact absurd rfl hne
    · exact ⟨w', rfl⟩
  by_contra hnot
  obtain ⟨c, rest, hcall, -⟩ := exists_across hstarts hnot
  have hfront : w ++ ['('] <+: name := by
    refine List.prefix_of_prefix_length_le ⟨c :: rest, hcall.symm⟩
      (List.prefix_append name ['(']) ?_
    have hlength := congrArg List.length hcall
    simp [callOf] at hlength ⊢
    omega
  exact hname (hfront.subset (by simp))

/-- A call takes in a whole text only when the text in front of the parenthesis is the name. -/
theorem callOf_prefix_iff {u : Text} (hu : '(' ∉ u) :
    callOf name <+: u ++ ['('] ↔ name = u := by
  constructor
  · intro hstarts
    have hle := hstarts.length_le
    simp only [callOf, List.length_append, List.length_singleton] at hle
    rcases Nat.lt_or_ge name.length u.length with hshort | hwhole
    · have hfront : callOf name <+: u :=
        List.prefix_of_prefix_length_le hstarts (List.prefix_append u _) (by simp [callOf]; omega)
      exact absurd (hfront.subset (by simp [callOf])) hu
    · have heq : callOf name = u ++ ['('] := hstarts.eq_of_length (by simp [callOf]; omega)
      exact (List.append_inj' heq rfl).1
  · rintro rfl
    exact List.prefix_refl _

theorem countOccurrences_open {u : Text} (hu : '(' ∉ u) :
    countOccurrences (callOf name) (u ++ ['(']) = if endsWith name u then 1 else 0 := by
  induction u with
  | nil =>
    have hstarts : callOf name <+: [] ++ ['('] ↔ name = [] := callOf_prefix_iff hu
    simp only [countOccurrences, List.nil_append, countFrom, endsWith, List.isPrefixOf_iff_prefix,
      List.isSuffixOf_iff_suffix, List.suffix_nil] at hstarts ⊢
    simp only [hstarts]
  | cons c u ih =>
    have hrest : '(' ∉ u := fun h => hu (List.mem_cons_of_mem c h)
    have hstarts : callOf name <+: c :: u ++ ['('] ↔ name = c :: u := callOf_prefix_iff hu
    have hends : endsWith name (c :: u) = true ↔ name = c :: u ∨ endsWith name u = true := by
      simp only [endsWith, List.isSuffixOf_iff_suffix, List.suffix_cons_iff]
    rw [countOccurrences, List.cons_append, countFrom]
    by_cases hname : name = c :: u
    · have hcall : (callOf name).isPrefixOf (c :: (u ++ ['('])) = true :=
        List.isPrefixOf_iff_prefix.2 (hstarts.2 hname)
      have hskip : (u ++ ['(']).length ≤ (callOf name).length - 1 := by simp [callOf, hname]
      rw [if_pos hcall, countFrom_of_length_le hskip, if_pos (hends.2 (Or.inl hname))]
    · have hnot : ¬ (callOf name).isPrefixOf (c :: (u ++ ['('])) = true := fun h =>
        hname (hstarts.1 (List.isPrefixOf_iff_prefix.1 h))
      rw [if_neg hnot, ← countOccurrences, ih hrest]
      simp only [hends, hname, false_or]

/-- No two calls share a character, so the count that goes on behind each one finds them all. -/
theorem countOccurrences_callOf (hname : '(' ∉ name) (s : Text) :
    countOccurrences (callOf name) s = (callPlaces name s).length := by
  induction hn : s.length using Nat.strong_induction_on generalizing s with
  | h n ih =>
    by_cases hs : '(' ∈ s
    · obtain ⟨u, t, rfl, hu⟩ := List.eq_append_cons_of_mem hs
      have ht : countOccurrences (callOf name) t = (callPlaces name t).length :=
        ih t.length (by simp at hn; omega) t rfl
      rw [callPlaces_split hname, List.append_cons,
        countOccurrences_append (staysWithin_open hname u t), countOccurrences_open hu, ht,
        callPlaces_open hu, List.length_append, List.length_map]
      split <;> rfl
    · have hopen : '(' ∈ callOf name := by simp [callOf]
      rw [callPlaces_of_not_mem hs, countOccurrences_eq_zero (List.ne_nil_of_mem hopen) hopen hs]
      rfl

end

/-! ## The last call -/

/-- The last of the items of a kind, found from the end. -/
theorem find?_reverse_eq_some_iff {α : Type} {p : α → Bool} {l : List α} {a : α} :
    l.reverse.find? p = some a ↔
      p a = true ∧ ∃ front behind, l = front ++ a :: behind ∧ ∀ b ∈ behind, p b = false := by
  rw [List.find?_eq_some_iff_append]
  refine and_congr_right fun _ => ⟨?_, ?_⟩
  · rintro ⟨before, rest, hl, hbefore⟩
    refine ⟨rest.reverse, before.reverse, ?_, by simpa using hbefore⟩
    simpa using congrArg List.reverse hl
  · rintro ⟨front, behind, rfl, hbehind⟩
    exact ⟨behind.reverse, front.reverse, by simp, by simpa using hbehind⟩

/-- An item stands among the last few when fewer stand behind it. -/
theorem exists_window_iff {α : Type} {l : List α} {a : α} {count : Nat} {P : List α → Prop} :
    (∃ front behind, l.drop (l.length - count) = front ++ a :: behind ∧ P behind) ↔
      ∃ front behind, l = front ++ a :: behind ∧ behind.length < count ∧ P behind := by
  constructor
  · rintro ⟨front, behind, hwindow, hP⟩
    have hlength := congrArg List.length hwindow
    simp only [List.length_drop, List.length_append, List.length_cons] at hlength
    refine ⟨l.take (l.length - count) ++ front, behind, ?_, by omega, hP⟩
    rw [List.append_assoc, ← hwindow, List.take_append_drop]
  · rintro ⟨front, behind, rfl, hfew, hP⟩
    refine ⟨front.drop ((front ++ a :: behind).length - count), behind, ?_, hP⟩
    exact List.drop_append_of_le_length (by simp; omega)

section

variable {name : Text}

/-- A body ends in a tail call when one of its last lines is one, with no call behind it. -/
theorem isTailRecursive_iff (hsought : isSought name = true) (body : Text) :
    isTailRecursive name body = true ↔
      ∃ front line behind, splitLines body = front ++ line :: behind ∧ behind.length < tailLines
        ∧ isTailCall name (trim line) = true
        ∧ ∀ later ∈ behind, countOccurrences (callOf name) (trim later) = 0 := by
  simp only [isTailRecursive, hsought, Bool.true_and, ← List.map_reverse, List.find?_map,
    Option.any_map, Option.any_eq_true, find?_reverse_eq_some_iff, exists_window_iff]
  constructor
  · rintro ⟨line, ⟨-, front, behind, hlines, hfew, hnone⟩, htail⟩
    exact ⟨front, line, behind, hlines, hfew, htail, fun later hlater => by
      simpa using hnone later hlater⟩
  · rintro ⟨front, line, behind, hlines, hfew, htail, hnone⟩
    have hcall : countOccurrences (callOf name) (trim line) = 1 := by
      simp only [isTailCall, Bool.and_eq_true, beq_iff_eq] at htail
      exact htail.2
    refine ⟨line, ⟨by simp [hcall], front, behind, hlines, hfew, fun later hlater => ?_⟩, htail⟩
    simp [hnone later hlater]

/-- Every line that the splitting of joined lines gives is one of them. -/
theorem mem_of_mem_splitLines_joinLines {lines : List Text}
    (hlines : ∀ line ∈ lines, ∀ c ∈ line, isLineEnd c = false) {line : Text}
    (h : line ∈ splitLines (joinLines lines)) : line ∈ lines := by
  rw [splitLines_joinLines hlines] at h
  split at h
  · exact (List.dropLast_sublist lines).mem h
  · exact h

/-! ## What is said of the calls -/

/-- The notes that claim more than one call are given only when there is more than one. -/
theorem Signals.two_le_selfCalls {s : Signals} {note : Note}
    (hnote : note = .fibonacciLike ∨ note = .severalCalls) (hmem : note ∈ s.notes) :
    2 ≤ s.selfCalls := by
  have hloops : note ∉ s.loopNotes := by
    unfold loopNotes
    repeat' split
    all_goals rcases hnote with rfl | rfl <;> simp
  have hrecursion : note ∈ s.recursionNotes := by
    rcases hnote with rfl | rfl <;> simpa [notes, hloops] using hmem
  by_contra hfew
  unfold recursionNotes at hrecursion
  rcases hnote with rfl | rfl <;> grind

end

/-- A bound on every item changes no bounded sum. -/
theorem min_sum_map_min {α : Type} (f : α → Nat) (cap : Nat) (l : List α) :
    min cap (l.map fun a => min (f a) cap).sum = min cap (l.map f).sum := by
  induction l with
  | nil => rfl
  | cons a l ih =>
    simp only [List.map_cons, List.sum_cons]
    omega

/-- In joined lines the calls of a name are the parentheses right behind it, in the whole and line
by line, up to 100.  The body ends in a tail call when one of its last ten lines returns and has
exactly one call, and no later line has any.  A tail call is a call, the Fibonacci pattern has two,
and no note on recursion claims calls that are not there. -/
theorem selfCalls_of_lines (lines : List Text)
    (hlines : ∀ line ∈ lines, ∀ c ∈ line, isLineEnd c = false) (name : Text) (hne : name ≠ [])
    (hlength : name.length ≤ 50) (hname : ∀ c ∈ name, c ≠ '(' ∧ isLineEnd c = false)
    (hhead : ∀ c ∈ name.head?, isBlank c = false) :
    let body := joinLines lines
    countSelfCalls name body = min 100 (callPlaces name body).length
      ∧ countSelfCalls name body =
        min 100 (lines.map fun line => (callPlaces name line).length).sum
      ∧ countSelfCalls name body = min 100 (lines.map (countSelfCalls name)).sum
      ∧ (isTailRecursive name body = true ↔
        ∃ front line behind, splitLines body = front ++ line :: behind ∧ behind.length < 10
          ∧ startsWith "return ".toList (trim line) = true ∧ (callPlaces name line).length = 1
          ∧ ∀ later ∈ behind, callPlaces name later = [])
      ∧ (isTailRecursive name body = true → 1 ≤ countSelfCalls name body)
      ∧ (isFibonacciLike name body = true → 2 ≤ countSelfCalls name body)
      ∧ ∀ table family, ∀ note ∈ (Estimate.ofBody table family name body).notes,
        (note.isRecursion = true → 1 ≤ (callPlaces name body).length)
          ∧ (note = .fibonacciLike ∨ note = .severalCalls → 2 ≤ (callPlaces name body).length) := by
  intro body
  have hopen : '(' ∉ name := fun h => (hname _ h).1 rfl
  have hfeed : '\n' ∉ name := fun h => by
    have hend := (hname _ h).2
    cases hend
  have hphrase : isPhrase (callOf name) = true := by
    obtain ⟨c, rest, rfl⟩ := List.exists_cons_of_ne_nil hne
    exact isPhrase_callOf (by simp [hhead c rfl]) hfeed
  have hsought : isSought name = true := by simp [isSought, hne, soughtNameLength, hlength]
  have hplaces : ∀ s, countOccurrences (callOf name) s = (callPlaces name s).length :=
    countOccurrences_callOf hopen
  have hcount : ∀ s, countSelfCalls name s = min (callPlaces name s).length 100 := by
    intro s
    rw [countSelfCalls, if_pos hsought, hplaces]
    rfl
  have hsum : (callPlaces name body).length =
      (lines.map fun line => (callPlaces name line).length).sum := by
    rw [← hplaces, countOccurrences_joinLines hphrase,
      List.map_congr_left fun line _ => hplaces line]
  have htail : isTailRecursive name body = true ↔
      ∃ front line behind, splitLines body = front ++ line :: behind ∧ behind.length < 10
        ∧ startsWith "return ".toList (trim line) = true ∧ (callPlaces name line).length = 1
        ∧ ∀ later ∈ behind, callPlaces name later = [] := by
    simp only [isTailRecursive_iff hsought, isTailCall, countOccurrences_trim hphrase, hplaces,
      Bool.and_eq_true, beq_iff_eq, List.length_eq_zero_iff, and_assoc, tailLines]
  refine ⟨?_, ?_, ?_, htail, ?_, ?_, ?_⟩
  · rw [hcount, Nat.min_comm]
  · rw [hcount, Nat.min_comm, hsum]
  · rw [hcount, Nat.min_comm, hsum, List.map_congr_left fun line _ => hcount line, min_sum_map_min]
  · intro hends
    obtain ⟨front, line, behind, hbody, -, -, hone, -⟩ := htail.1 hends
    have hsplit : line ∈ splitLines body := by simp [hbody]
    have hline : line ∈ lines := mem_of_mem_splitLines_joinLines hlines hsplit
    have hpos : 0 < countOccurrences (callOf name) body := by
      rw [← occursIn_iff_count_pos (ne_nil_of_isPhrase hphrase), occursIn_joinLines_iff hphrase]
      refine ⟨line, hline, ?_⟩
      rw [occursIn_iff_count_pos (ne_nil_of_isPhrase hphrase), hplaces]
      omega
    rw [hplaces] at hpos
    rw [hcount]
    omega
  · intro hfibonacci
    simp only [isFibonacciLike, Bool.and_eq_true, decide_eq_true_eq] at hfibonacci
    exact hfibonacci.1.1
  · intro table family note hnote
    rw [Estimate.ofBody, Estimate.ofSignals_notes] at hnote
    have hcalls : (Signals.ofBody table family name body).selfCalls = _ := hcount body
    refine ⟨fun hkind => ?_, fun hkind => ?_⟩
    · have hpos := Signals.exists_recursion_iff.1 ⟨note, hnote, hkind⟩
      omega
    · have htwo := Signals.two_le_selfCalls hkind hnote
      omega

/-- A name that overlaps itself, found in a longer name, in a tail call with blanks around its line
and in none of the lines behind it. -/
theorem selfCalls_of_lines_overlapping :
    let name := "aa".toList
    let lines := ["\taaaa(n);".toList, "  return aa(n - 1); ".toList, "# aa".toList, []]
    (∀ line ∈ lines, ∀ c ∈ line, isLineEnd c = false) ∧ name ≠ [] ∧ name.length ≤ 50
      ∧ (∀ c ∈ name, c ≠ '(' ∧ isLineEnd c = false) ∧ (∀ c ∈ name.head?, isBlank c = false)
      ∧ countSelfCalls name (joinLines lines) = 2 ∧ isTailRecursive name (joinLines lines) = true
      ∧ 1 ≤ countSelfCalls name (joinLines lines) := by
  intro name lines
  have hlines : ∀ line ∈ lines, ∀ c ∈ line, isLineEnd c = false := fun line hline c hc => by
    have hall : (lines.all fun line => line.all (!isLineEnd ·)) = true := by decide
    simpa using List.all_eq_true.1 (List.all_eq_true.1 hall line hline) c hc
  have hname : ∀ c ∈ name, c ≠ '(' ∧ isLineEnd c = false :=
    List.all_iff_forall_prop.1 (by decide)
  have hhead : ∀ c ∈ name.head?, isBlank c = false := by
    rintro c ⟨⟩
    rfl
  obtain ⟨-, hsum, -, htail, hcalls, -⟩ :=
    selfCalls_of_lines lines hlines name (by decide) (by decide) hname hhead
  have hends : isTailRecursive name (joinLines lines) = true :=
    htail.2 ⟨["\taaaa(n);".toList], "  return aa(n - 1); ".toList, ["# aa".toList], by decide,
      by decide, by decide, by decide, by decide⟩
  exact ⟨hlines, by decide, by decide, hname, hhead, hsum.trans (by decide), hends, hcalls hends⟩

end GrowthEstimate
