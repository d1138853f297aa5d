import GrowthEstimate.Growth
import GrowthEstimate.Text.Lowercase

/-!
# Languages

A source text comes with a language tag.  The tag picks a family, which decides how functions and
loops are recognised, and a table of builtin calls.  A tag that names no supported language has
the generic family and no builtins, so every tag is accepted.

* `ofTag?_tag`: the tag of a language names that language;
* `builtinsOfTag_eq_nil`: an unknown tag has no builtins.
-/

namespace GrowthEstimate

open Text (trim lowercase)

inductive Family
  | indentation
  | brace
  | script
  | generic
  deriving DecidableEq

inductive Language
  | javascript
  | typescript
  | python
  | java
  | c
  | cpp
  | rust
  deriving DecidableEq

/-- A builtin call by its name, and the growth one such call brings. -/
structure Builtin where
  name : Text
  growth : Growth
  deriving DecidableEq

namespace Family

def name : Family → Text
  | indentation => "indentation".toList
  | brace => "brace".toList
  | script => "script".toList
  | generic => "generic".toList

def all : List Family := [indentation, brace, script, generic]

def ofName (s : Text) : Except UnknownName Family :=
  match all.find? fun f => f.name == s with
  | some f => .ok f
  | none => .error (.family s)

end Family

namespace Language

def supported : List Language := [javascript, typescript, python, java, c, cpp, rust]

/-- The canonical tag. -/
def tag : Language → Text
  | javascript => "javascript".toList
  | typescript => "typescript".toList
  | python => "python".toList
  | java => "java".toList
  | c => "c".toList
  | cpp => "cpp".toList
  | rust => "rust".toList

/-- The tags, in small letters, by which each language may be asked for. -/
def aliases : List (Text × Language) :=
  [ ("python".toList, python), ("py".toList, python),
    ("javascript".toList, javascript), ("js".toList, javascript),
    ("typescript".toList, typescript), ("ts".toList, typescript),
    ("java".toList, java), ("c".toList, c),
    ("cpp".toList, cpp), ("c++".toList, cpp),
    ("rust".toList, rust), ("rs".toList, rust) ]

/-- The language a tag names, whatever its case and the blanks around it. -/
def ofTag? (tag : Text) : Option Language := aliases.lookup (lowercase (trim tag))

def family : Language → Family
  | python => .indentation
  | javascript | typescript => .script
  | java | c | cpp | rust => .brace

/-- The builtin calls that are looked for, in the order in which they are reported. -/
def builtins : Language → List Builtin
  | javascript | typescript =>
    [ ⟨"sort".toList, .linearithmic⟩, ⟨"indexOf".toList, .linear⟩, ⟨"includes".toList, .linear⟩,
      ⟨"find".toList, .linear⟩, ⟨"filter".toList, .linear⟩, ⟨"map".toList, .linear⟩,
      ⟨"reduce".toList, .linear⟩ ]
  | python =>
    [ ⟨"sorted".toList, .linearithmic⟩, ⟨"sort".toList, .linearithmic⟩, ⟨"max".toList, .linear⟩,
      ⟨"min".toList, .linear⟩, ⟨"sum".toList, .linear⟩ ]
  | java =>
    [ ⟨"Arrays.sort".toList, .linearithmic⟩, ⟨"Collections.sort".toList, .linearithmic⟩ ]
  | c | cpp | rust => []

end Language

/-- The family a tag picks; generic when the tag names no supported language. -/
def familyOfTag (tag : Text) : Family := ((Language.ofTag? tag).map Language.family).getD .generic

/-- The builtin calls of a tag's language; none when the tag names no supported language. -/
def builtinsOfTag (tag : Text) : List Builtin :=
  ((Language.ofTag? tag).map Language.builtins).getD []

theorem Language.ofTag?_tag (l : Language) : Language.ofTag? l.tag = some l := by
  cases l <;> decide +kernel

theorem builtinsOfTag_eq_nil {tag : Text} (h : Language.ofTag? tag = none) :
    builtinsOfTag tag = [] := by
  simp [builtinsOfTag, h]

end GrowthEstimate
