import GrowthEstimate.Proofs.Encodings
import GrowthEstimate.Service.Request

/-!
# What a body asks for

A body is a request, or does not fit, or cannot be read at all.  The last happens when no string is
written as its bytes, and when a whole number too long or a container too deep stands in front of
everything else that is wrong with it.

* `AnalyzeRequest.read_eq_accepted_iff`: exactly which values are requests;
* `Body.read_eq_unreadable_iff`: exactly which bodies cannot be read;
* `AnalyzeRequest.ofBody_eq_ok_iff`, `AnalyzeRequest.ofBody_eq_unreadable_iff`: the outcomes;
* `Body.asksFor_ofText_iff`: what is asked for by a body that is written as a text.
-/

namespace GrowthEstimate.Service

open Schema (Checked record required_eq_accepted_iff optional_eq_accepted_iff
  string_eq_accepted_iff)

/-! ## Values -/

/-- A value is a request: it has the source under one key, and under two more nothing or a string, of
which the language tag is not too long. -/
structure AnalyzeRequest.Fits (r : AnalyzeRequest) (j : Json) : Prop where
  code : (j.get? "code").bind Json.string? = some r.code
  tag : j.get? "language" = none ∧ r.tag = .ofText "auto".toList
    ∨ ∃ s, (j.get? "language").bind Json.string? = some s ∧ s.trim.length ≤ 32
      ∧ r.tag = if s.trim = [] then .ofText "auto".toList else s.trim
  fileName : j.get? "filename" = none ∧ r.fileName = .ofText "untitled".toList
    ∨ (j.get? "filename").bind Json.string? = some r.fileName

theorem readTag_eq_accepted_iff {j : Json} {tag : CodePoints} :
    readTag j = .accepted tag ↔
      ∃ s, j.string? = some s ∧ s.trim.length ≤ tagLimit
        ∧ tag = if s.trim = [] then .ofText autoTag else s.trim := by
  rw [readTag, Schema.string]
  cases j.string? with
  | some s =>
    simp only [Schema.orProblem, Checked.bind, List.isEmpty_iff, Option.some.injEq,
      exists_eq_left']
    split
    · next hblank => simp [hblank, @eq_comm _ tag]
    · split
      · simp only [Checked.fault, reduceCtorEq, false_iff]
        omega
      · next hshort => simp [Nat.le_of_not_lt hshort, @eq_comm _ tag]
  | none => simp [Schema.orProblem, Checked.bind, Checked.fault]

theorem AnalyzeRequest.read_eq_accepted_iff {j : Json} {r : AnalyzeRequest} :
    AnalyzeRequest.read j = .accepted r ↔ r.Fits j := by
  have hfields : AnalyzeRequest.read j = .accepted r ↔
      (∃ members, j = .object members) ∧ r.Fits j := by
    cases j with
    | object members =>
      simp only [AnalyzeRequest.read, record, Checked.seq_eq_accepted_iff,
        Checked.map_eq_accepted_iff, required_eq_accepted_iff, optional_eq_accepted_iff,
        string_eq_accepted_iff, readTag_eq_accepted_iff]
      constructor
      · rintro ⟨_, fileName, ⟨_, tag, ⟨code, ⟨_, hcode, hsource⟩, rfl⟩, htag, rfl⟩, hfile, rfl⟩
        refine ⟨⟨members, rfl⟩, Option.bind_eq_some_iff.2 ⟨_, hcode, hsource⟩, ?_, ?_⟩
        · rcases htag with hnone | ⟨_, hsome, s, hs, hshort⟩
          · exact .inl hnone
          · exact .inr ⟨s, Option.bind_eq_some_iff.2 ⟨_, hsome, hs⟩, hshort⟩
        · rcases hfile with hnone | ⟨_, hsome, hs⟩
          · exact .inl hnone
          · exact .inr (Option.bind_eq_some_iff.2 ⟨_, hsome, hs⟩)
      · rintro ⟨-, hcode, htag, hfile⟩
        refine ⟨_, r.fileName, ⟨_, r.tag, ⟨r.code, Option.bind_eq_some_iff.1 hcode, rfl⟩, ?_, rfl⟩,
          ?_, rfl⟩
        · rcases htag with hnone | ⟨s, hsome, hshort⟩
          · exact .inl hnone
          · obtain ⟨value, hvalue, hs⟩ := Option.bind_eq_some_iff.1 hsome
            exact .inr ⟨value, hvalue, s, hs, hshort⟩
        · rcases hfile with hnone | hsome
          · exact .inl hnone
          · exact .inr (Option.bind_eq_some_iff.1 hsome)
    | _ => simp [AnalyzeRequest.read, record, Checked.fault]
  rw [hfields, and_iff_right_iff_imp]
  intro h
  have hcode := h.code
  cases j with
  | object members => exact ⟨members, rfl⟩
  | _ => cases hcode

/-! ## Bodies -/

/-- A body that cannot be read: it is no string, or what is wrong with it first is its size. -/
inductive Body.Unreadable (limits : Json.Limits) (body : Body) : Prop
  | unwritten (bytes : ∀ s, ¬ Encoding.Writes s body)
  | beyond {s : CodePoints} (string : Encoding.decode? body = some s)
    (size : Json.parsePoints limits s = .error .tooLong
      ∨ Json.parsePoints limits s = .error .tooDeep)

theorem valueOf_eq_unreadable_iff {limits : Json.Limits} {s : CodePoints} :
    valueOf limits s = .error .unreadable ↔
      Json.parsePoints limits s = .error .tooLong ∨ Json.parsePoints limits s = .error .tooDeep := by
  rw [valueOf]
  cases Json.parsePoints limits s with
  | ok j => simp
  | error fault => cases fault <;> simp

section

variable {limits : Json.Limits} {body : Body}

theorem Body.read_eq_unreadable_iff :
    body.read limits = .error .unreadable ↔ body.Unreadable limits := by
  rw [Body.read]
  constructor
  · intro h
    cases hdecode : Encoding.decode? body with
    | none => exact .unwritten (Encoding.decode?_eq_none_iff.1 hdecode)
    | some s =>
      rw [hdecode] at h
      exact .beyond hdecode (valueOf_eq_unreadable_iff.1 h)
  · intro h
    cases h with
    | unwritten hbytes => rw [Encoding.decode?_eq_none_iff.2 hbytes]
    | beyond hstring hsize =>
      rw [hstring]
      exact valueOf_eq_unreadable_iff.2 hsize

/-- A body asks for a request when it holds a value that is one. -/
def Body.AsksFor (limits : Json.Limits) (body : Body) (r : AnalyzeRequest) : Prop :=
  ∃ j, body.read limits = .ok j ∧ r.Fits j

theorem AnalyzeRequest.ofBody_of_read {j : Json} (h : body.read limits = .ok j) :
    ofBody limits body =
      match AnalyzeRequest.read j with
      | .accepted r => .ok r
      | .refused _ => .error .unfit := by
  rw [ofBody, h]
  simp only [Except.bind]
  cases AnalyzeRequest.read j <;> rfl

theorem AnalyzeRequest.ofBody_eq_ok_iff {r : AnalyzeRequest} :
    ofBody limits body = .ok r ↔ body.AsksFor limits r := by
  rw [Body.AsksFor]
  cases hread : body.read limits with
  | error fault =>
    rw [ofBody, hread]
    simp [Except.bind]
  | ok j =>
    rw [ofBody_of_read hread]
    simp only [Except.ok.injEq, exists_eq_left', ← read_eq_accepted_iff]
    cases AnalyzeRequest.read j <;> simp

theorem AnalyzeRequest.ofBody_eq_unreadable_iff :
    ofBody limits body = .error .unreadable ↔ body.Unreadable limits := by
  rw [← Body.read_eq_unreadable_iff]
  cases hread : body.read limits with
  | error fault =>
    rw [ofBody, hread]
    simp [Except.bind]
  | ok j =>
    rw [ofBody_of_read hread]
    cases AnalyzeRequest.read j <;> simp

end

/-! ## Texts as bodies -/

/-- The bytes of a text in units of 8 bits. -/
def Body.ofText (s : Text) : Body := ((CodePoints.ofText s).flatMap Encoding.octets).map UInt8.ofNat

/-- A body that is written as a text asks for what the value of that text is. -/
theorem Body.asksFor_ofText_iff {limits : Json.Limits} {s : Text} (hzero : '\x00' ∉ s)
    (hmark : s.head? ≠ some '\uFEFF') {j : Json} (hvalue : Json.parse limits s = .ok j)
    {r : AnalyzeRequest} : (Body.ofText s).AsksFor limits r ↔ r.Fits j := by
  have hpoints : ∀ p ∈ CodePoints.ofText s, p.toNat ≠ 0 := by
    intro p hp hnumber
    obtain ⟨c, hc, rfl⟩ := List.mem_map.1 hp
    have hnul : c = '\x00' := Char.toNat_inj.1 hnumber
    exact hzero (hnul ▸ hc)
  have hhead : (CodePoints.ofText s).head? ≠ some (.ofNat 0xFEFF) := by
    cases s with
    | nil => simp [CodePoints.ofText]
    | cons c s =>
      intro h
      have hc : CodePoint.char c = .char '\uFEFF' := Option.some.inj h
      exact hmark (congrArg some (CodePoint.char.inj hc))
  have hread : (Body.ofText s).read limits = .ok j := by
    rw [Body.read, Body.ofText, Encoding.decode?_octets hpoints hhead]
    simp only [valueOf, Json.parsePoints_ofText, hvalue]
  rw [Body.AsksFor, hread]
  simp

end GrowthEstimate.Service
