import GrowthEstimate.Service.Request
import Mathlib.Data.List.TakeWhile

/-!
# The last dot of a file name

Of a path only the last component counts, and of that only what stands behind its last dot, when
anything but dots stands in front of that dot.  So hidden files and the dots of folders say nothing
about a language.

* `getLast?_splitOn`: the last piece of a text, taken from its end;
* `extension?_eq_some_iff`: which components have an extension, and which one;
* `language?_eq_some_iff`: which paths have a language, and which one;
* `language?_of_component`: what is known of the language of a path.
-/

namespace GrowthEstimate.FileName

open Text (lowercase sameIgnoringCase)

/-! ## The last piece of a text -/

theorem exists_last_split {c : Char} {s : Text} (h : c ∈ s) :
    ∃ front last, s = front ++ c :: last ∧ c ∉ last := by
  obtain ⟨last, front, hreverse, hlast⟩ := List.eq_append_cons_of_mem (List.mem_reverse.2 h)
  refine ⟨front.reverse, last.reverse, ?_, by simpa using hlast⟩
  simpa using congrArg List.reverse hreverse

theorem takeWhile_reverse_of_not_mem {c : Char} {s : Text} (h : c ∉ s) :
    s.reverse.takeWhile (· != c) = s.reverse := by
  rw [List.takeWhile_eq_self_iff]
  intro d hd
  rw [bne_iff_ne]
  rintro rfl
  exact h (List.mem_reverse.1 hd)

theorem takeWhile_reverse_split {c : Char} (front : Text) {last : Text} (h : c ∉ last) :
    (front ++ c :: last).reverse.takeWhile (· != c) = last.reverse := by
  have hreverse : (front ++ c :: last).reverse = last.reverse ++ c :: front.reverse := by simp
  rw [hreverse, List.takeWhile_append, takeWhile_reverse_of_not_mem h]
  simp

theorem getLast?_splitOn (c : Char) (s : Text) :
    (s.splitOn c).getLast? = some (s.reverse.takeWhile (· != c)).reverse := by
  by_cases hc : c ∈ s
  · obtain ⟨front, last, rfl, hlast⟩ := exists_last_split hc
    rw [takeWhile_reverse_split front hlast, List.splitOn_append_cons_self,
      List.splitOn_eq_singleton hlast, List.getLast?_concat, List.reverse_reverse]
  · rw [takeWhile_reverse_of_not_mem hc, List.splitOn_eq_singleton hc, List.getLast?_singleton,
      List.reverse_reverse]

/-! ## Extensions -/

theorem extension?_eq_some_iff {component extension : Text} :
    extension? component = some extension ↔
      ∃ stem, component = stem ++ '.' :: extension ∧ '.' ∉ extension ∧ ∃ c ∈ stem, c ≠ '.' := by
  have hdots : component.takeWhile (· == '.') ++ component.dropWhile (· == '.') = component :=
    List.takeWhile_append_dropWhile
  constructor
  · intro h
    rw [extension?] at h
    split at h
    · next hdot =>
      obtain ⟨front, last, hsplit, hlast⟩ := exists_last_split (List.contains_iff_mem.1 hdot)
      rw [hsplit, takeWhile_reverse_split front hlast, List.reverse_reverse] at h
      obtain rfl := Option.some.inj h
      refine ⟨component.takeWhile (· == '.') ++ front, ?_, hlast, ?_⟩
      · rw [List.append_assoc, ← hsplit, hdots]
      · -- what is left behind the leading dots does not start with one
        have hhead := List.head?_dropWhile_not (· == '.') component
        rw [hsplit] at hhead
        cases front with
        | nil => simp at hhead
        | cons c front => exact ⟨c, by simp, by simpa using hhead⟩
    · cases h
  · rintro ⟨stem, rfl, hextension, c, hc, hother⟩
    have hstem : stem.dropWhile (· == '.') ≠ [] := by
      rw [Ne, List.dropWhile_eq_nil_iff]
      intro hall
      exact hother (by simpa using hall c hc)
    have hdrop : (stem ++ '.' :: extension).dropWhile (· == '.') =
        stem.dropWhile (· == '.') ++ '.' :: extension := by
      simp [List.dropWhile_append, hstem]
    have hdot : (stem.dropWhile (· == '.') ++ '.' :: extension).contains '.' = true := by simp
    rw [extension?, hdrop, if_pos hdot, takeWhile_reverse_split _ hextension,
      List.reverse_reverse]

/-- No extension stands for two languages. -/
theorem lookup_extensions_eq_some_iff {extension : Text} {l : Language} :
    extensions.lookup extension = some l ↔ (extension, l) ∈ extensions := by
  have hunique : ∀ p ∈ extensions, ∀ q ∈ extensions, p.1 = q.1 → p.2 = q.2 := by decide
  have hmem : ∀ l, extensions.lookup extension = some l → (extension, l) ∈ extensions := by
    intro l h
    obtain ⟨before, behind, hsplit, -⟩ := List.lookup_eq_some_iff.1 h
    rw [hsplit]
    simp
  refine ⟨hmem l, fun h => ?_⟩
  obtain ⟨l', hl'⟩ := Option.isSome_iff_exists.1
    (List.lookup_isSome_iff.2 ⟨_, h, beq_self_eq_true extension⟩)
  rw [hl', show l' = l from hunique _ (hmem l' hl') _ h rfl]

/-! ## Languages -/

theorem language?_eq_some_iff {path : Text} {l : Language} :
    language? path = some l ↔
      ∃ stem extension, lastComponent path = stem ++ '.' :: extension ∧ '.' ∉ extension
        ∧ (∃ c ∈ stem, c ≠ '.') ∧ (lowercase extension, l) ∈ extensions := by
  simp only [language?, Option.bind_eq_some_iff, extension?_eq_some_iff,
    lookup_extensions_eq_some_iff]
  constructor
  · rintro ⟨extension, ⟨stem, hsplit, hextension, hstem⟩, hmem⟩
    exact ⟨stem, extension, hsplit, hextension, hstem, hmem⟩
  · rintro ⟨stem, extension, hsplit, hextension, hstem, hmem⟩
    exact ⟨extension, ⟨stem, hsplit, hextension, hstem⟩, hmem⟩

theorem tag_mem_supported (l : Language) : l.tag ∈ Language.supported.map Language.tag := by
  refine List.mem_map_of_mem ?_
  cases l <;> decide

open Service in
/-- The language of a path is that of its last component.  The component must have a dot with
something but dots in front of it and no further dot behind it, and what stands behind, in small
letters, must be among the extensions.  The tag of such a language is supported and names the
language, so a tag that leaves the language open comes to a supported one or to the generic one. -/
theorem language?_of_component (path : Text) :
    ∃ component, (path.splitOn '/').getLast? = some component
      ∧ (∀ path' : Text, (path'.splitOn '/').getLast? = some component →
          language? path' = language? path)
      ∧ (∀ l, language? path = some l ↔
          ∃ stem extension, component = stem ++ '.' :: extension ∧ '.' ∉ extension
            ∧ (∃ c ∈ stem, c ≠ '.') ∧ (lowercase extension, l) ∈ extensions)
      ∧ (∀ dots rest, component = dots ++ rest → (∀ c ∈ dots, c = '.') → '.' ∉ rest →
          language? path = none)
      ∧ (∀ l, language? path = some l →
          l.tag ∈ Language.supported.map Language.tag
            ∧ (Language.ofTag? l.tag).map Language.tag = some l.tag)
      ∧ (∀ tag, sameIgnoringCase tag autoTag = true →
          resolveTag tag path ∈ genericTag :: Language.supported.map Language.tag) := by
  refine ⟨lastComponent path, getLast?_splitOn '/' path, ?_, fun l => language?_eq_some_iff,
    ?_, ?_, ?_⟩
  · intro path' hpath'
    have hcomponent : lastComponent path' = lastComponent path := by
      rw [getLast?_splitOn] at hpath'
      exact Option.some.inj hpath'
    rw [language?, language?, hcomponent]
  · intro dots rest hsplit hdots hrest
    rw [language?, hsplit, extension?_of_hidden hdots hrest, Option.bind_none]
  · intro l _
    rw [Language.ofTag?_tag]
    exact ⟨tag_mem_supported l, rfl⟩
  · intro tag htag
    rw [resolveTag, if_pos htag]
    cases language? path with
    | none => exact List.mem_cons_self
    | some l => exact List.mem_cons_of_mem _ (tag_mem_supported l)

/-- A hidden file in a folder with a dot, and one with two extensions. -/
example : language? "v1.py/..rs".toList = none
    ∧ language? "v1.py/.a.rs.TSX".toList = some .typescript := by
  decide +kernel

end GrowthEstimate.FileName
