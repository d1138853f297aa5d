import GrowthEstimate.Header.Parameters
import GrowthEstimate.Header.Script
import GrowthEstimate.Language
import GrowthEstimate.Span

/-!
# Function spans of a source text

An indented function ends in front of the next header and in front of the next line that is
indented no deeper than its own header.  A braced function ends where its braces balance again
and in front of the next header.  A text in which no function is found, and a text with too many
lines, is one block with a placeholder name.

* `extract_spans_ne_nil`: there is always a span;
* `indentedSpans_nil`, `bracedSpans_nil`: at the end of the text the open function ends.
-/

namespace GrowthEstimate

open Text Header

/-- A text with more lines than this is not searched for functions. -/
def lineLimit : Nat := 10000

/-- How many lines of a text over the limit are looked at. -/
def truncatedLines : Nat := 1000

/-! ## Indented functions -/

/-- An indented function whose end has not been reached. -/
structure OpenIndented where
  name : Text
  first : Nat
  indent : Nat

def OpenIndented.endingAt (f : OpenIndented) (last : Nat) : Span := Span.onLines f.name f.first last

def indentOf (line : Text) : Nat := (line.takeWhile isBlank).length

def OpenIndented.isEndedBy (f : OpenIndented) (line : Text) : Bool :=
  isIndented (trim line) || indentOf line ≤ f.indent

/-- The spans that end at or behind the lines still to come, of which `read` have been read; the
function open at this point is among them. -/
def indentedSpans : (read : Nat) → Option OpenIndented → List Text → List Span
  | read, current, [] => (current.map (·.endingAt read)).toList
  | read, current, line :: rest =>
    if (trim line).isEmpty then indentedSpans (read + 1) current rest
    else
      let ended := current.filter (·.isEndedBy line)
      let kept := current.filter (!·.isEndedBy line)
      let opened := (indentedName? (trim line)).map (⟨·, read + 2, indentOf line⟩)
      (ended.map (·.endingAt read)).toList ++ indentedSpans (read + 1) (opened.or kept) rest

/-! ## Braced functions -/

/-- A braced function whose end has not been reached, with the count of its open braces. -/
structure OpenBraced where
  name : Text
  first : Nat
  balance : Int

def OpenBraced.endingAt (f : OpenBraced) (last : Nat) : Span := Span.onLines f.name f.first last

def braceBalance (line : Text) : Int := line.count '{' - line.count '}'

/-- The text behind the brace that opens a body, without the brace that closes it when only
blanks, semicolons and commas stand behind that. -/
def unbraced (body : Text) : Text :=
  match after? "\x7b".toList body with
  | none => body
  | some body =>
    let closing := dropEndWhile (" ;,".toList.contains ·) body
    if endsWith "\x7d".toList closing then closing.dropLast else body

/-- The body of a one-line function from the text behind its parameters: an arrow, the braces
and the blanks around it are no part of it. -/
def unwrapBody (s : Text) : Text :=
  let body := trim s
  trim (unbraced (((after? "=>".toList body).map trim).getD body))

/-- The span of a function whose braces are closed on the line of its header; without a body, as
in a prototype, it is the empty span behind the line. -/
def oneLineSpan (name line : Text) (number : Nat) : Span :=
  let body := unwrapBody (afterParameters line)
  if body.all (" ;".toList.contains ·) then Span.onLines name (number + 1) number
  else { Span.onLines name number number with inlineBody := some body }

/-- The spans that end at or behind the lines still to come, of which `read` have been read; the
function open at this point is among them.  `opener` gives the name that a trimmed line declares. -/
def bracedSpans (opener : Text → Option Text) :
    (read : Nat) → Option OpenBraced → List Text → List Span
  | read, current, [] => (current.map (·.endingAt read)).toList
  | read, current, line :: rest =>
    match opener (trim line), current with
    | some name, current =>
      let ended := (current.map (·.endingAt read)).toList
      if braceBalance line ≤ 0 then
        ended ++ oneLineSpan name (trim line) (read + 1) :: bracedSpans opener (read + 1) none rest
      else
        ended ++ bracedSpans opener (read + 1) (some ⟨name, read + 2, braceBalance line⟩) rest
    | none, none => bracedSpans opener (read + 1) none rest
    | none, some f =>
      let balance := f.balance + braceBalance line
      if balance ≤ 0 then f.endingAt (read + 1) :: bracedSpans opener (read + 1) none rest
      else bracedSpans opener (read + 1) (some { f with balance := balance }) rest

/-! ## Whole texts -/

/-- The function spans of a text by the rules of a family; there may be none. -/
def functionSpans (family : Family) (lines : List Text) : List Span :=
  match family with
  | .indentation => indentedSpans 0 none lines
  | .brace | .generic => bracedSpans bracedName? 0 none lines
  | .script => bracedSpans scriptName? 0 none lines

inductive Extraction.Outcome
  | functions
  | noFunction
  | tooManyLines
  deriving DecidableEq

/-- The spans of a text, and whether they are its functions or one block in their place. -/
structure Extraction where
  spans : List Span
  outcome : Extraction.Outcome

/-- Whether the spans stand for functions as far as the search knows: true also when there were
too many lines to search. -/
def Extraction.detected (e : Extraction) : Bool := e.outcome != .noFunction

def Extraction.truncated (e : Extraction) : Bool := e.outcome == .tooManyLines

def extractLines (lines : List Text) (family : Family) : Extraction :=
  if lineLimit < lines.length then
    ⟨[Span.onLines Span.placeholder 1 (min lines.length truncatedLines)], .tooManyLines⟩
  else
    match functionSpans family lines with
    | [] => ⟨[Span.onLines Span.placeholder 1 lines.length], .noFunction⟩
    | spans => ⟨spans, .functions⟩

def extract (source tag : Text) : Extraction := extractLines (splitLines source) (familyOfTag tag)

theorem extractLines_spans_ne_nil (lines : List Text) (family : Family) :
    (extractLines lines family).spans ≠ [] := by
  rw [extractLines]
  split
  · simp
  · split
    · simp
    · next h => exact h

theorem extract_spans_ne_nil (source tag : Text) : (extract source tag).spans ≠ [] :=
  extractLines_spans_ne_nil _ _

@[simp] theorem indentedSpans_nil (read : Nat) (current : Option OpenIndented) :
    indentedSpans read current [] = (current.map (·.endingAt read)).toList := rfl

@[simp] theorem bracedSpans_nil (opener : Text → Option Text) (read : Nat)
    (current : Option OpenBraced) :
    bracedSpans opener read current [] = (current.map (·.endingAt read)).toList := rfl

end GrowthEstimate
