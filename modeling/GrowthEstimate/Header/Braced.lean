import GrowthEstimate.Header.Indented

/-!
# Headers of braced functions

A line declares a braced function when it holds a parenthesis and either an opening brace or a
semicolon at its end.  The last word in front of the first parenthesis is the name.  Lines that
start with a control or statement keyword, assignments and match arms declare nothing, and a line
without a brace needs a return type in front of the name, so that a plain call is no prototype.
-/

namespace GrowthEstimate.Header

open Text

/-- Keywords that stand directly in front of a parenthesis without being a function's name. -/
def controlKeywords : List Text :=
  [ "if".toList, "while".toList, "for".toList, "switch".toList, "catch".toList,
    "function".toList, "synchronized".toList ]

/-- Keywords that start a line of control flow, or a statement that calls instead of declaring. -/
def leadingKeywords : List Text :=
  [ "if".toList, "else".toList, "while".toList, "for".toList, "do".toList, "loop".toList,
    "match".toList, "switch".toList, "try".toList, "catch".toList,
    "return".toList, "throw".toList, "new".toList, "await".toList, "yield".toList,
    "delete".toList, "case".toList ]

/-- One part of a qualified name: an identifier in which tildes may stand too. -/
def isNamePart : Text → Bool
  | [] => false
  | c :: s => (isIdentifierStart c || c == '~') && s.all fun d => isIdentifierChar d || d == '~'

/-- Whether pieces cut at single colons are name parts with one empty piece between each two,
that is, name parts joined by double colons. -/
def areQualified : List Text → Bool
  | [part] => isNamePart part
  | part :: [] :: rest => isNamePart part && areQualified rest
  | _ => false

/-- Whether a word is a name, or several joined by double colons. -/
def isQualifiedName (word : Text) : Bool := areQualified (word.splitOn ':')

/-- Whether the words in front of the first parenthesis, the last of which is `name`, declare a
function; a prototype has no body and needs a word in front of its name. -/
def declares (before : List Text) (name : Text) (hasBody : Bool) : Bool :=
  !controlKeywords.contains name
    && !(before.head?.any leadingKeywords.contains)
    && (hasBody || 2 ≤ before.length)
    && isQualifiedName name
    && isAcceptableName name

/-- The name of the braced function that a line declares. -/
def bracedName? (line : Text) : Option Text :=
  let line := trimStart (line.dropWhile (· == '}'))
  let hasBody := line.contains '{'
  let before := upTo '(' line
  if line.contains '(' && !occursIn "=>".toList line && (hasBody || endsWith ";".toList line)
      && !before.contains '=' then
    match (words before).getLast? with
    | some name => if declares (words before) name hasBody then some name else none
    | none => none
  else none

end GrowthEstimate.Header
