import GrowthEstimate.Language
import GrowthEstimate.Text.Search

/-!
# The language of a file name

The extension of a file name is what follows the last dot of its last component; dots that lead
the component start no extension, so a hidden file has none.

* `extension?_of_hidden`: a component that is dots and a dot-free rest has no extension.
-/

namespace GrowthEstimate.FileName

open Text (lowercase)

def lastComponent (path : Text) : Text := (path.reverse.takeWhile (· != '/')).reverse

/-- The extension without its dot, when the component has one. -/
def extension? (component : Text) : Option Text :=
  let stem := component.dropWhile (· == '.')
  if stem.contains '.' then some (stem.reverse.takeWhile (· != '.')).reverse else none

/-- The extensions, in small letters, of each supported language. -/
def extensions : List (Text × Language) :=
  [ ("py".toList, .python),
    ("js".toList, .javascript), ("jsx".toList, .javascript), ("mjs".toList, .javascript),
    ("cjs".toList, .javascript),
    ("ts".toList, .typescript), ("tsx".toList, .typescript),
    ("java".toList, .java),
    ("c".toList, .c), ("h".toList, .c),
    ("cpp".toList, .cpp), ("cc".toList, .cpp), ("cxx".toList, .cpp), ("hpp".toList, .cpp),
    ("rs".toList, .rust) ]

def language? (path : Text) : Option Language :=
  (extension? (lastComponent path)).bind fun extension => extensions.lookup (lowercase extension)

theorem extension?_of_hidden {dots rest : Text} (hd : ∀ c ∈ dots, c = '.') (hr : '.' ∉ rest) :
    extension? (dots ++ rest) = none := by
  have h : '.' ∉ (dots ++ rest).dropWhile (· == '.') := by
    induction dots with
    | nil => exact fun hm => hr ((List.dropWhile_sublist _).mem hm)
    | cons c dots ih =>
      rw [hd c (by simp)]
      simpa using ih fun d hm => hd d (by simp [hm])
  simp [extension?, h]

end GrowthEstimate.FileName
