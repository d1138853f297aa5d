import Mathlib.Data.List.Basic
import GrowthEstimate.Text.Encoding

/-!
# Bytes that are strings

The bytes that a string is written as, in units of each width.  The reader of an encoding takes a
run of bytes exactly when some string is written so.

* `narrow?_octets`, `narrow?_eq_some_iff`: in units of 8 bits a string is read back, and nothing
  else is read;
* `exists_of_wideUnits?`, `exists_of_widest?`: what is read in wider units is a run of them;
* `read?_eq_none_iff`, `decode?_eq_none_iff`: the bytes that no string is written as;
* `decode?_octets`: the string that is read of bytes without a mark.
-/

namespace GrowthEstimate

theorem CodePoint.toNat_ofNat {n : Nat} (h : n < 0x110000) : (CodePoint.ofNat n).toNat = n := by
  rw [ofNat]
  split
  · rfl
  · next hhalf =>
    have hvalid : n.isValidChar := by
      rw [Nat.isValidChar]
      omega
    rw [toNat, Char.ofNat, dif_pos hvalid]
    rfl

namespace Encoding

/-! ## Strings as bytes -/

/-- The bytes of a code point in units of 8 bits. -/
def octets (p : CodePoint) : List Nat :=
  let n := p.toNat
  if n < 0x80 then [n]
  else if n < 0x800 then [0xC0 + n / 0x40, 0x80 + n % 0x40]
  else if n < 0x10000 then [0xE0 + n / 0x1000, 0x80 + n / 0x40 % 0x40, 0x80 + n % 0x40]
  else [0xF0 + n / 0x40000, 0x80 + n / 0x1000 % 0x40, 0x80 + n / 0x40 % 0x40, 0x80 + n % 0x40]

/-! ## Units of 8 bits -/

theorem narrow?_single {b : Nat} (h : b < 0x80) (rest : List Nat) (read : CodePoints) :
    narrow? none (b :: rest) read = narrow? none rest (.ofNat b :: read) := by
  have hend : b < codePointEnd := by
    rw [codePointEnd]
    omega
  rw [narrow?]
  simp [Opened.ofLead?, Opened.point?, h, hend]

theorem narrow?_lead {b : Nat} {o : Opened} (h : Opened.ofLead? b = some o) (hopen : o.pending ≠ 0)
    (rest : List Nat) (read : CodePoints) :
    narrow? none (b :: rest) read = narrow? (some o) rest read := by
  rw [narrow?]
  simp [h, hopen]

/-- The first of two bytes. -/
theorem narrow?_two {x : Nat} (h : x < 0x20) (rest : List Nat) (read : CodePoints) :
    narrow? none ((0xC0 + x) :: rest) read = narrow? (some ⟨1, x, 0x80⟩) rest read := by
  refine narrow?_lead ?_ (by simp) rest read
  simp [Opened.ofLead?, show ¬ 0xC0 + x < 0x80 by omega, show 0xC0 + x < 0xE0 by omega]

/-- The first of three bytes. -/
theorem narrow?_three {x : Nat} (h : x < 0x10) (rest : List Nat) (read : CodePoints) :
    narrow? none ((0xE0 + x) :: rest) read = narrow? (some ⟨2, x, 0x800⟩) rest read := by
  refine narrow?_lead ?_ (by simp) rest read
  simp [Opened.ofLead?, show ¬ 0xE0 + x < 0x80 by omega, show ¬ 0xE0 + x < 0xC0 by omega,
    show 0xE0 + x < 0xF0 by omega]

/-- The first of four bytes. -/
theorem narrow?_four {x : Nat} (h : x < 0x08) (rest : List Nat) (read : CodePoints) :
    narrow? none ((0xF0 + x) :: rest) read = narrow? (some ⟨3, x, 0x10000⟩) rest read := by
  refine narrow?_lead ?_ (by simp) rest read
  simp [Opened.ofLead?, show ¬ 0xF0 + x < 0x80 by omega, show ¬ 0xF0 + x < 0xC0 by omega,
    show ¬ 0xF0 + x < 0xE0 by omega, show 0xF0 + x < 0xF8 by omega]

/-- A byte that begins no code point. -/
theorem narrow?_of_no_lead {b : Nat} (h : 0x80 ≤ b ∧ b < 0xC0 ∨ 0xF8 ≤ b) (rest : List Nat)
    (read : CodePoints) : narrow? none (b :: rest) read = none := by
  have hnone : Opened.ofLead? b = none := by
    rw [Opened.ofLead?]
    split_ifs <;> first | rfl | omega
  rw [narrow?]
  simp only [Option.elim_none, hnone]

theorem narrow?_next (k value least : Nat) {x : Nat} (h : x < 0x40) (rest : List Nat)
    (read : CodePoints) :
    narrow? (some ⟨k + 2, value, least⟩) ((0x80 + x) :: rest) read =
      narrow? (some ⟨k + 1, 0x40 * value + x, least⟩) rest read := by
  rw [narrow?]
  simp [Opened.next?, show 0x80 + x < 0xC0 by omega]

theorem narrow?_last (value least : Nat) {x : Nat} (h : x < 0x40) (rest : List Nat)
    (read : CodePoints) :
    narrow? (some ⟨1, value, least⟩) ((0x80 + x) :: rest) read =
      if least ≤ 0x40 * value + x ∧ 0x40 * value + x < 0x110000 then
        narrow? none rest (.ofNat (0x40 * value + x) :: read)
      else none := by
  rw [narrow?]
  simp only [Option.elim_some, Opened.next?, show 0x80 ≤ 0x80 + x ∧ 0x80 + x < 0xC0 by omega,
    and_self, if_true, Nat.sub_self, Opened.point?, codePointEnd, Nat.add_sub_cancel_left]
  by_cases hvalue : least ≤ 0x40 * value + x ∧ 0x40 * value + x < 0x110000
  · simp [hvalue]
  · simp [hvalue]

/-- A code point is read from its bytes, whatever stands behind them. -/
theorem narrow?_octets (p : CodePoint) (rest : List Nat) (read : CodePoints) :
    narrow? none (octets p ++ rest) read = narrow? none rest (p :: read) := by
  have hp := p.toNat_lt
  have hread := p.ofNat_toNat
  rw [octets]
  generalize p.toNat = n at hp hread ⊢
  subst hread
  split
  · next h => exact narrow?_single h rest read
  split
  · have hvalue : 0x40 * (n / 0x40) + n % 0x40 = n := by omega
    rw [List.cons_append, narrow?_two (by omega), List.cons_append, narrow?_last _ _ (by omega),
      hvalue, if_pos (by omega), List.nil_append]
  split
  · have hvalue : 0x40 * (0x40 * (n / 0x1000) + n / 0x40 % 0x40) + n % 0x40 = n := by omega
    rw [List.cons_append, narrow?_three (by omega), List.cons_append,
      narrow?_next 0 _ _ (by omega), List.cons_append, narrow?_last _ _ (by omega), hvalue,
      if_pos (by omega), List.nil_append]
  · have hvalue : 0x40 * (0x40 * (0x40 * (n / 0x40000) + n / 0x1000 % 0x40) + n / 0x40 % 0x40)
        + n % 0x40 = n := by omega
    rw [List.cons_append, narrow?_four (by omega), List.cons_append, narrow?_next 1 _ _ (by omega),
      List.cons_append, narrow?_next 0 _ _ (by omega), List.cons_append,
      narrow?_last _ _ (by omega), hvalue, if_pos (by omega), List.nil_append]

theorem narrow?_of_no_tail {b : Nat} (h : ¬ (0x80 ≤ b ∧ b < 0xC0)) (o : Opened) (rest : List Nat)
    (read : CodePoints) : narrow? (some o) (b :: rest) read = none := by
  rw [narrow?]
  simp only [Option.elim_some, Opened.next?, if_neg h]

/-- An open code point goes on with a byte that adds six bits to it. -/
theorem exists_tail {o : Opened} {bytes : List Nat} {read t : CodePoints}
    (h : narrow? (some o) bytes read = some t) :
    ∃ x rest, x < 0x40 ∧ bytes = (0x80 + x) :: rest := by
  cases bytes with
  | nil => cases h
  | cons b rest =>
    have hb : 0x80 ≤ b ∧ b < 0xC0 := by
      by_contra hb
      rw [narrow?_of_no_tail hb] at h
      cases h
    exact ⟨b - 0x80, rest, by omega, by rw [Nat.add_sub_cancel' hb.1]⟩

theorem exists_of_last {value least : Nat} {bytes : List Nat} {read t : CodePoints}
    (h : narrow? (some ⟨1, value, least⟩) bytes read = some t) :
    ∃ x rest, x < 0x40 ∧ bytes = (0x80 + x) :: rest ∧ least ≤ 0x40 * value + x
      ∧ 0x40 * value + x < 0x110000
      ∧ narrow? none rest (.ofNat (0x40 * value + x) :: read) = some t := by
  obtain ⟨x, rest, hx, rfl⟩ := exists_tail h
  rw [narrow?_last _ _ hx] at h
  split at h
  · next hvalue => exact ⟨x, rest, hx, rfl, hvalue.1, hvalue.2, h⟩
  · cases h

theorem exists_of_next {k value least : Nat} {bytes : List Nat} {read t : CodePoints}
    (h : narrow? (some ⟨k + 2, value, least⟩) bytes read = some t) :
    ∃ x rest, x < 0x40 ∧ bytes = (0x80 + x) :: rest
      ∧ narrow? (some ⟨k + 1, 0x40 * value + x, least⟩) rest read = some t := by
  obtain ⟨x, rest, hx, rfl⟩ := exists_tail h
  rw [narrow?_next _ _ _ hx] at h
  exact ⟨x, rest, hx, rfl, h⟩

/-- What is read in front of the rest is a code point, by its bytes. -/
theorem exists_of_narrow? {b : Nat} {bytes : List Nat} {read t : CodePoints}
    (h : narrow? none (b :: bytes) read = some t) :
    ∃ p rest, b :: bytes = octets p ++ rest ∧ narrow? none rest (p :: read) = some t := by
  have hoctets {n : Nat} (hn : n < 0x110000) : (CodePoint.ofNat n).toNat = n :=
    CodePoint.toNat_ofNat hn
  rcases Nat.lt_or_ge b 0x80 with hb | hb
  · rw [narrow?_single hb] at h
    refine ⟨.ofNat b, bytes, ?_, h⟩
    rw [octets, hoctets (by omega), if_pos hb, List.singleton_append]
  rcases Nat.lt_or_ge b 0xC0 with hb' | hb'
  · rw [narrow?_of_no_lead (.inl ⟨hb, hb'⟩)] at h
    cases h
  rcases Nat.lt_or_ge b 0xE0 with htwo | htwo
  · obtain ⟨lead, rfl⟩ := Nat.exists_eq_add_of_le hb'
    rw [narrow?_two (by omega)] at h
    obtain ⟨x, rest, hx, rfl, hleast, hend, hrest⟩ := exists_of_last h
    refine ⟨_, rest, ?_, hrest⟩
    rw [octets, hoctets hend, if_neg (by omega), if_pos (by omega), List.cons_append,
      List.cons_append, List.nil_append]
    congr 2 <;> omega
  rcases Nat.lt_or_ge b 0xF0 with hthree | hthree
  · obtain ⟨lead, rfl⟩ := Nat.exists_eq_add_of_le htwo
    rw [narrow?_three (by omega)] at h
    obtain ⟨x, _, hx, rfl, hfirst⟩ := exists_of_next h
    obtain ⟨y, rest, hy, rfl, hleast, hend, hrest⟩ := exists_of_last hfirst
    refine ⟨_, rest, ?_, hrest⟩
    rw [octets, hoctets hend, if_neg (by omega), if_neg (by omega), if_pos (by omega),
      List.cons_append, List.cons_append, List.cons_append, List.nil_append]
    congr 3 <;> omega
  rcases Nat.lt_or_ge b 0xF8 with hfour | hfour
  · obtain ⟨lead, rfl⟩ := Nat.exists_eq_add_of_le hthree
    rw [narrow?_four (by omega)] at h
    obtain ⟨x, _, hx, rfl, hfirst⟩ := exists_of_next h
    obtain ⟨y, _, hy, rfl, hsecond⟩ := exists_of_next hfirst
    obtain ⟨z, rest, hz, rfl, hleast, hend, hrest⟩ := exists_of_last hsecond
    refine ⟨_, rest, ?_, hrest⟩
    rw [octets, hoctets hend, if_neg (by omega), if_neg (by omega), if_neg (by omega),
      List.cons_append, List.cons_append, List.cons_append, List.cons_append, List.nil_append]
    congr 4 <;> omega
  · rw [narrow?_of_no_lead (.inr hfour)] at h
    cases h

theorem octets_ne_nil (p : CodePoint) : octets p ≠ [] := by
  rw [octets]
  split_ifs <;> simp

/-- The reader of units of 8 bits takes what some string is written as, and gives that string. -/
theorem narrow?_eq_some_iff {bytes : List Nat} {read t : CodePoints} :
    narrow? none bytes read = some t ↔ ∃ s, t = read.reverse ++ s ∧ bytes = s.flatMap octets := by
  constructor
  · -- Each code point takes at least one byte, so the rest behind it is shorter.
    intro h
    induction hlength : bytes.length using Nat.strongRecOn generalizing bytes read with
    | _ length ih =>
      cases bytes with
      | nil => exact ⟨[], by rw [narrow?] at h; simpa using h.symm, rfl⟩
      | cons b bytes =>
        obtain ⟨p, rest, hbytes, hrest⟩ := exists_of_narrow? h
        have hp := List.length_pos_iff.2 (octets_ne_nil p)
        have hshort : rest.length < length := by
          rw [← hlength, hbytes, List.length_append]
          omega
        obtain ⟨s, rfl, rfl⟩ := ih _ hshort hrest rfl
        exact ⟨p :: s, by simp, hbytes⟩
  · rintro ⟨s, rfl, rfl⟩
    induction s generalizing read with
    | nil => rw [List.flatMap_nil, narrow?, List.append_nil]
    | cons p s ih =>
      rw [List.flatMap_cons, narrow?_octets, ih, List.reverse_cons, List.append_assoc]
      rfl

/-! ## Wider units -/

/-- The two parts of a unit, in the order in which they are written. -/
def parts (order : ByteOrder) (base n : Nat) : Nat × Nat :=
  match order with
  | .highFirst => (n / base, n % base)
  | .lowFirst => (n % base, n / base)

theorem parts_unit (order : ByteOrder) {base first second : Nat} (hfirst : first < base)
    (hsecond : second < base) : parts order base (unit order base first second) = (first, second) := by
  cases order with
  | highFirst =>
    simp [parts, unit, Nat.mul_add_div (by omega : base > 0), Nat.div_eq_of_lt hsecond,
      Nat.mod_eq_of_lt hsecond]
  | lowFirst =>
    simp [parts, unit, Nat.mul_add_div (by omega : base > 0), Nat.div_eq_of_lt hfirst,
      Nat.mod_eq_of_lt hfirst]

theorem unit_parts (order : ByteOrder) (base n : Nat) :
    unit order base (parts order base n).1 (parts order base n).2 = n := by
  cases order with
  | highFirst => exact Nat.div_add_mod n base
  | lowFirst => exact Nat.div_add_mod n base

def pair (order : ByteOrder) (n : Nat) : List Nat :=
  let (first, second) := parts order 0x100 n
  [first, second]

def quad (order : ByteOrder) (n : Nat) : List Nat :=
  let (first, second) := parts order 0x10000 n
  pair order first ++ pair order second

theorem pair_unit (order : ByteOrder) {a b : Nat} (ha : a < 0x100) (hb : b < 0x100) :
    pair order (unit order 0x100 a b) = [a, b] := by
  rw [pair, parts_unit order ha hb]

theorem unit_lt (order : ByteOrder) {a b : Nat} (ha : a < 0x100) (hb : b < 0x100) :
    unit order 0x100 a b < 0x10000 := by
  cases order with
  | highFirst => simp only [unit]; omega
  | lowFirst => simp only [unit]; omega

theorem quad_unit (order : ByteOrder) {a b c d : Nat} (ha : a < 0x100) (hb : b < 0x100)
    (hc : c < 0x100) (hd : d < 0x100) :
    quad order (unit order 0x10000 (unit order 0x100 a b) (unit order 0x100 c d)) =
      [a, b, c, d] := by
  rw [quad, parts_unit order (unit_lt order ha hb) (unit_lt order hc hd)]
  simp [pair_unit order ha hb, pair_unit order hc hd]

theorem wideUnits?_pair (order : ByteOrder) (n : Nat) (rest read : List Nat) :
    wideUnits? order (pair order n ++ rest) read = wideUnits? order rest (n :: read) := by
  rw [pair, List.cons_append, List.cons_append, wideUnits?, unit_parts, List.nil_append]

theorem wideUnits?_pairs (order : ByteOrder) (ns read : List Nat) :
    wideUnits? order (ns.flatMap (pair order)) read = some (ns.reverse ++ read) := by
  induction ns generalizing read with
  | nil => rfl
  | cons n ns ih =>
    rw [List.flatMap_cons, wideUnits?_pair, ih, List.reverse_cons, List.append_assoc]
    rfl

/-- What is read in units of 16 bits is a run of such units. -/
theorem exists_of_wideUnits? {order : ByteOrder} {bytes read t : List Nat}
    (hbytes : ∀ b ∈ bytes, b < 0x100) (h : wideUnits? order bytes read = some t) :
    ∃ ns : List Nat, (∀ n ∈ ns, n < 0x10000) ∧ bytes = ns.flatMap (pair order) := by
  fun_induction wideUnits? order bytes read with
  | case1 read => exact ⟨[], by simp, rfl⟩
  | case2 => cases h
  | case3 a b rest read ih =>
    obtain ⟨ns, hns, hrest⟩ := ih (fun x hx => hbytes x (by simp [hx])) h
    have ha := hbytes a (by simp)
    have hb := hbytes b (by simp)
    refine ⟨unit order 0x100 a b :: ns, ?_, ?_⟩
    · exact List.forall_mem_cons.2 ⟨unit_lt order ha hb, hns⟩
    · rw [List.flatMap_cons, pair_unit order ha hb, hrest]
      rfl

theorem widest?_quad {order : ByteOrder} (p : CodePoint) (rest : List Nat) (read : CodePoints) :
    widest? order (quad order p.toNat ++ rest) read = widest? order rest (p :: read) := by
  have hquad : quad order p.toNat ++ rest =
      (parts order 0x100 (parts order 0x10000 p.toNat).1).1
        :: (parts order 0x100 (parts order 0x10000 p.toNat).1).2
        :: (parts order 0x100 (parts order 0x10000 p.toNat).2).1
        :: (parts order 0x100 (parts order 0x10000 p.toNat).2).2 :: rest := rfl
  rw [hquad, widest?, unit_parts, unit_parts, unit_parts]
  simp only [codePointEnd, p.toNat_lt, if_true, p.ofNat_toNat]

theorem widest?_quads (order : ByteOrder) (s read : CodePoints) :
    widest? order (s.flatMap fun p => quad order p.toNat) read = some (read.reverse ++ s) := by
  induction s generalizing read with
  | nil => rw [List.flatMap_nil, widest?, List.append_nil]
  | cons p s ih =>
    rw [List.flatMap_cons, widest?_quad, ih, List.reverse_cons, List.append_assoc]
    rfl

theorem exists_of_widest? {order : ByteOrder} {bytes : List Nat} {read t : CodePoints}
    (hbytes : ∀ b ∈ bytes, b < 0x100) (h : widest? order bytes read = some t) :
    ∃ s : CodePoints, bytes = s.flatMap fun p => quad order p.toNat := by
  fun_induction widest? order bytes read with
  | case1 read => exact ⟨[], rfl⟩
  | case2 a b c d rest read n hn ih =>
    obtain ⟨s, hrest⟩ := ih (fun x hx => hbytes x (by simp [hx])) h
    refine ⟨.ofNat n :: s, ?_⟩
    have hquad : quad order n = [a, b, c, d] :=
      quad_unit order (hbytes a (by simp)) (hbytes b (by simp)) (hbytes c (by simp))
        (hbytes d (by simp))
    rw [List.flatMap_cons, CodePoint.toNat_ofNat hn, hquad, hrest]
    rfl
  | case3 => cases h
  | case4 => cases h

/-! ## All encodings -/

def unitsOf : CodePoint → List Nat
  | .char c => Text.units c
  | .half unit _ => [unit]

/-- The bytes of a code point. -/
def bytesOf : Encoding → CodePoint → List Nat
  | narrow, p => octets p
  | wide order, p => (unitsOf p).flatMap (pair order)
  | widest order, p => quad order p.toNat

theorem unitsOf_ofNat {n : Nat} (h : n < 0x10000) : unitsOf (.ofNat n) = [n] := by
  have hn := CodePoint.toNat_ofNat (by omega : n < 0x110000)
  cases hp : CodePoint.ofNat n with
  | char c =>
    rw [hp] at hn
    have hc : c.toNat = n := hn
    rw [unitsOf, Text.units, hc]
    exact if_pos h
  | half unit range =>
    rw [hp] at hn
    exact congrArg (fun n => [n]) hn

/-- Bytes are not read exactly when there is no string that is written so. -/
theorem read?_eq_none_iff (encoding : Encoding) {bytes : List Nat}
    (hbytes : ∀ b ∈ bytes, b < 0x100) :
    encoding.read? bytes = none ↔ ∀ s : CodePoints, s.flatMap encoding.bytesOf ≠ bytes := by
  rw [← not_iff_not, ← ne_eq, Option.ne_none_iff_exists', not_forall]
  simp only [not_not]
  cases encoding with
  | narrow =>
    constructor
    · rintro ⟨t, h⟩
      obtain ⟨s, -, hs⟩ := narrow?_eq_some_iff.1 h
      exact ⟨s, hs.symm⟩
    · rintro ⟨s, hs⟩
      exact ⟨s, narrow?_eq_some_iff.2 ⟨s, rfl, hs.symm⟩⟩
  | wide order =>
    constructor
    · rintro ⟨t, h⟩
      obtain ⟨units, hunits, -⟩ := Option.map_eq_some_iff.1 h
      obtain ⟨ns, hns, rfl⟩ := exists_of_wideUnits? hbytes hunits
      refine ⟨ns.map .ofNat, ?_⟩
      rw [List.flatMap_map]
      refine List.flatMap_congr fun n hn => ?_
      simp [bytesOf, unitsOf_ofNat (hns n hn)]
    · rintro ⟨s, rfl⟩
      have hflat : s.flatMap (bytesOf (.wide order)) = (s.flatMap unitsOf).flatMap (pair order) :=
        (List.flatMap_assoc ..).symm
      rw [hflat, read?, wideUnits?_pairs]
      exact ⟨_, rfl⟩
  | widest order =>
    constructor
    · rintro ⟨t, h⟩
      obtain ⟨s, hs⟩ := exists_of_widest? hbytes h
      exact ⟨s, hs.symm⟩
    · rintro ⟨s, rfl⟩
      exact ⟨_, widest?_quads order s []⟩

/-- Behind their byte order mark, the bytes are those of the string. -/
def Writes (s : CodePoints) (bytes : List UInt8) : Prop :=
  s.flatMap (detect (bytes.map UInt8.toNat)).1.bytesOf = (detect (bytes.map UInt8.toNat)).2

theorem mem_of_mem_detect {bytes : List Nat} {b : Nat} (h : b ∈ (detect bytes).2) : b ∈ bytes := by
  have hsuffix : (detect bytes).2 <:+ bytes := by
    unfold detect
    split
    · exact ⟨[0xFF, 0xFE, 0, 0], rfl⟩
    · exact ⟨[0, 0, 0xFE, 0xFF], rfl⟩
    · exact ⟨[0xFF, 0xFE], rfl⟩
    · exact ⟨[0xFE, 0xFF], rfl⟩
    · exact ⟨[0xEF, 0xBB, 0xBF], rfl⟩
    · exact List.suffix_rfl
  exact hsuffix.mem h

/-- Bytes are no string exactly when no string is written so. -/
theorem decode?_eq_none_iff {bytes : List UInt8} :
    decode? bytes = none ↔ ∀ s, ¬ Writes s bytes := by
  refine read?_eq_none_iff _ fun b hb => ?_
  obtain ⟨byte, -, rfl⟩ := List.mem_map.1 (mem_of_mem_detect hb)
  exact byte.toNat_lt

/-! ## Bytes without a mark -/

theorem octets_bounds {p : CodePoint} (h : p.toNat ≠ 0) {b : Nat} (hb : b ∈ octets p) :
    0 < b ∧ b < 0xFE := by
  have hp := p.toNat_lt
  rw [octets] at hb
  split_ifs at hb <;> simp at hb <;> omega

theorem ofZeros_of_pos {bytes : List Nat} (h : ∀ b ∈ bytes, 0 < b) : ofZeros bytes = .narrow := by
  have hzero : 0 ∉ bytes := fun hmem => Nat.lt_irrefl 0 (h 0 hmem)
  unfold ofZeros
  split <;> first | rfl | simp at hzero

/-- Behind a byte order mark of units of 8 bits stands what is read without it. -/
theorem narrow?_mark (rest : List Nat) :
    narrow? none (0xEF :: 0xBB :: 0xBF :: rest) [] = narrow? none rest [.ofNat 0xFEFF] :=
  narrow?_octets (.ofNat 0xFEFF) rest []

theorem detect_octets {s : CodePoints} (hzero : ∀ p ∈ s, p.toNat ≠ 0)
    (hmark : s.head? ≠ some (.ofNat 0xFEFF)) :
    detect (s.flatMap octets) = (.narrow, s.flatMap octets) := by
  have hbounds : ∀ b ∈ s.flatMap octets, 0 < b ∧ b < 0xFE := by
    intro b hb
    obtain ⟨p, hp, hb⟩ := List.mem_flatMap.1 hb
    exact octets_bounds (hzero p hp) hb
  have hread : narrow? none (s.flatMap octets) [] = some s := narrow?_eq_some_iff.2 ⟨s, rfl, rfl⟩
  generalize s.flatMap octets = bytes at hbounds hread
  unfold detect
  split
  · simp at hbounds
  · simp at hbounds
  · simp at hbounds
  · simp at hbounds
  · rw [narrow?_mark] at hread
    obtain ⟨t, ht, -⟩ := narrow?_eq_some_iff.1 hread
    rw [ht] at hmark
    exact absurd rfl hmark
  · rw [ofZeros_of_pos fun b hb => (hbounds b hb).1]

/-- A string without zeros and without a mark in front is read back from units of 8 bits. -/
theorem decode?_octets {s : CodePoints} (hzero : ∀ p ∈ s, p.toNat ≠ 0)
    (hmark : s.head? ≠ some (.ofNat 0xFEFF)) :
    decode? ((s.flatMap octets).map UInt8.ofNat) = some s := by
  have hbytes : ((s.flatMap octets).map UInt8.ofNat).map UInt8.toNat = s.flatMap octets := by
    rw [List.map_map]
    refine (List.map_congr_left fun b hb => ?_).trans (List.map_id _)
    obtain ⟨p, hp, hb⟩ := List.mem_flatMap.1 hb
    have hbound := (octets_bounds (hzero p hp) hb).2
    exact UInt8.toNat_ofNat_of_lt' (Nat.lt_trans hbound (by decide))
  rw [decode?, hbytes, detect_octets hzero hmark]
  exact narrow?_eq_some_iff.2 ⟨s, rfl, rfl⟩

end Encoding

end GrowthEstimate
