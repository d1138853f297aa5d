import GrowthEstimate.Proofs.Spacing
import GrowthEstimate.Service.Settings

/-!
# Origins in normal form

The origins that may call the service are written between commas.  What is read of them has neither
commas nor blanks around it, so it can be written again and read back; and the one that stands for
all never stands beside others.

* `plain_of_mem_originPieces`: what a piece looks like;
* `originPieces_join`: pieces that look so are read back;
* `anyOrigin_mem_originsOf_iff`: when all origins may call;
* `origins_normal`: the origins of any setting.
-/

namespace GrowthEstimate.Service.Settings

open Text (trim isBlank)

theorem mem_originPieces_iff {s o : Text} :
    o ∈ originPieces s ↔ (∃ piece ∈ s.splitOn ',', trim piece = o) ∧ o ≠ [] := by
  simp [originPieces]

/-- A piece between commas, without the blanks around it. -/
theorem plain_of_mem_originPieces {s o : Text} (h : o ∈ originPieces s) :
    o ≠ [] ∧ ',' ∉ o ∧ trim o = o := by
  obtain ⟨⟨piece, hpiece, rfl⟩, hne⟩ := mem_originPieces_iff.1 h
  refine ⟨hne, fun hcomma => ?_, Text.trim_trim piece⟩
  rw [List.splitOn_eq_splitOnP] at hpiece
  have hnot := Text.not_of_mem_splitOnP hpiece ',' (Text.mem_trim hcomma)
  cases hnot

theorem originPieces_eq_map (s : Text) :
    originPieces s = ((s.splitOn ',').filter fun piece => piece.any (!isBlank ·)).map trim := by
  have hblank : ∀ piece : Text, (!(trim piece).isEmpty) = piece.any (!isBlank ·) := by
    intro piece
    rw [Bool.eq_iff_iff]
    simp [Text.trim_eq_nil_iff]
  rw [originPieces, List.filter_map]
  simp only [Function.comp_def, hblank]

/-- Pieces without commas and blanks around them are read back when they are joined by commas. -/
theorem originPieces_join {pieces : List Text}
    (h : ∀ o ∈ pieces, o ≠ [] ∧ ',' ∉ o ∧ trim o = o) :
    originPieces ([','].intercalate pieces) = pieces := by
  by_cases hnone : pieces = []
  · rw [hnone]
    rfl
  · have hsplit : ([','].intercalate pieces).splitOn ',' = pieces :=
      List.splitOn_intercalate ',' (fun o ho => (h o ho).2.1) hnone
    have htrim : pieces.map trim = pieces :=
      (List.map_congr_left fun o ho => (h o ho).2.2).trans (List.map_id pieces)
    rw [originPieces, hsplit, htrim, List.filter_eq_self]
    intro o ho
    simpa using (h o ho).1

/-! ## The origin that stands for all -/

theorem anyOrigin_mem_originPieces_iff {s : Text} :
    anyOrigin ∈ originPieces s ↔ ∃ piece ∈ s.splitOn ',', trim piece = anyOrigin := by
  rw [mem_originPieces_iff]
  exact and_iff_left (by decide)

theorem originsOf_of_mem {s : Text} (h : anyOrigin ∈ originPieces s) :
    originsOf s = [anyOrigin] := by
  rw [originsOf, if_pos (List.contains_iff_mem.2 h)]

theorem originsOf_of_not_mem {s : Text} (h : anyOrigin ∉ originPieces s) :
    originsOf s = originPieces s := by
  rw [originsOf, if_neg (mt List.contains_iff_mem.1 h)]

theorem anyOrigin_mem_originsOf_iff {s : Text} :
    anyOrigin ∈ originsOf s ↔ anyOrigin ∈ originPieces s := by
  by_cases h : anyOrigin ∈ originPieces s
  · simp [originsOf_of_mem h, h]
  · rw [originsOf_of_not_mem h]

theorem originsOf_eq_anyOrigin_iff {s : Text} :
    originsOf s = [anyOrigin] ↔ anyOrigin ∈ originPieces s := by
  refine ⟨fun h => ?_, originsOf_of_mem⟩
  rw [← anyOrigin_mem_originsOf_iff, h]
  exact List.mem_singleton_self _

theorem plain_of_mem_originsOf {s o : Text} (h : o ∈ originsOf s) :
    o ≠ [] ∧ ',' ∉ o ∧ trim o = o := by
  by_cases hany : anyOrigin ∈ originPieces s
  · rw [originsOf_of_mem hany, List.mem_singleton] at h
    rw [h]
    decide
  · rw [originsOf_of_not_mem hany] at h
    exact plain_of_mem_originPieces h

theorem originsOf_join (s : Text) :
    originsOf ([','].intercalate (originsOf s)) = originsOf s := by
  have hpieces : originPieces ([','].intercalate (originsOf s)) = originsOf s :=
    originPieces_join fun o ho => plain_of_mem_originsOf ho
  by_cases hany : anyOrigin ∈ originsOf s
  · have hread : anyOrigin ∈ originPieces ([','].intercalate (originsOf s)) := by rwa [hpieces]
    rw [originsOf_of_mem hread, originsOf_of_mem (anyOrigin_mem_originsOf_iff.1 hany)]
  · have hread : anyOrigin ∉ originPieces ([','].intercalate (originsOf s)) := by rwa [hpieces]
    rw [originsOf_of_not_mem hread, hpieces]

/-- The origins of a setting have neither commas nor blanks around them, and none is empty.  The
one that stands for all is among them when it stands alone, which it does when it is written
anywhere in the setting; so no credentials are carried when all origins may call, and otherwise the
origins are those that are written, in their order.  Joined by commas, they are read back. -/
theorem origins_normal (s : Settings) :
    (∀ o ∈ s.origins, o ≠ [] ∧ ',' ∉ o ∧ trim o = o)
      ∧ (anyOrigin ∈ s.origins ↔ s.origins = [anyOrigin])
      ∧ (s.origins = [anyOrigin] ↔
          ∃ piece ∈ s.allowedOrigins.splitOn ',', trim piece = anyOrigin)
      ∧ (s.allowsCredentials = true → anyOrigin ∉ s.origins)
      ∧ (s.allowsCredentials = false → s.origins = [anyOrigin])
      ∧ (anyOrigin ∉ s.origins → s.origins =
          ((s.allowedOrigins.splitOn ',').filter fun piece => piece.any (!isBlank ·)).map trim)
      ∧ { s with allowedOrigins := [','].intercalate s.origins }.origins = s.origins := by
  have halone : anyOrigin ∈ s.origins ↔ s.origins = [anyOrigin] :=
    anyOrigin_mem_originsOf_iff.trans originsOf_eq_anyOrigin_iff.symm
  refine ⟨fun o ho => plain_of_mem_originsOf ho, halone,
    originsOf_eq_anyOrigin_iff.trans anyOrigin_mem_originPieces_iff, ?_, ?_, ?_,
    originsOf_join s.allowedOrigins⟩
  · intro hcredentials hany
    simp [allowsCredentials, hany] at hcredentials
  · intro hcredentials
    rw [← halone]
    simpa [allowsCredentials] using hcredentials
  · intro hnot
    rw [← originPieces_eq_map]
    exact originsOf_of_not_mem (mt anyOrigin_mem_originsOf_iff.2 hnot)

/-- Blank pieces, a wide space and the origin that stands for all. -/
example : originsOf " http://a ,,\u2003,http://b".toList = ["http://a", "http://b"].map String.toList
    ∧ originsOf "http://a, *\t".toList = [anyOrigin] := by
  decide +kernel

end GrowthEstimate.Service.Settings
