import GrowthEstimate.Language.FileName
import GrowthEstimate.Schema.Reader
import GrowthEstimate.Service.Body

/-!
# Requests for an analysis

The body of a request is an object with the source text, and perhaps with a language tag and a
file name.  The tag `auto` leaves the language to the extension of the file name.  The three of them
are strings that may hold halves.  A half is like no character, so a character that the source does
not hold stands for those in it.  The tag and the file name are only compared with texts that are
ASCII, and there the replacement character does for any half.

* `resolveTag_of_explicit`: any other tag is taken as it is;
* `source_of_text`, `language_of_texts`: what is analysed of a request without halves.
-/

namespace GrowthEstimate.Service

open Schema (Checked Reader required optional record)
open Text (sameIgnoringCase)

structure AnalyzeRequest where
  code : CodePoints
  tag : CodePoints
  fileName : CodePoints
  deriving DecidableEq

/-- The tag that leaves the language open. -/
def autoTag : Text := "auto".toList

def genericTag : Text := "generic".toList

def untitled : Text := "untitled".toList

/-- The longest tag that is taken. -/
def tagLimit : Nat := 32

/-- A language tag, trimmed; a blank one leaves the language open. -/
def readTag : Reader CodePoints := fun j =>
  (Schema.string j).bind fun s =>
    let tag := s.trim
    if tag.isEmpty then .accepted (.ofText autoTag)
    else if tagLimit < tag.length then .fault .aboveMaximum
    else .accepted tag

def AnalyzeRequest.read : Reader AnalyzeRequest := record fun j =>
  AnalyzeRequest.mk
    <$> required "code" Schema.string j
    <*> optional "language" (.ofText autoTag) readTag j
    <*> optional "filename" (.ofText untitled) Schema.string j

/-- The request that a body holds. -/
def AnalyzeRequest.ofBody (limits : Json.Limits) (body : Body) : Except BodyFault AnalyzeRequest :=
  (body.read limits).bind fun j => (AnalyzeRequest.read j).toExcept.mapError fun _ => .unfit

/-- The tag by which a text is analysed: an explicit one, or else that of the file name. -/
def resolveTag (tag fileName : Text) : Text :=
  if sameIgnoringCase tag autoTag then
    ((FileName.language? fileName).map Language.tag).getD genericTag
  else tag

/-- A string with the replacement character for every half. -/
def replaced (s : CodePoints) : Text := s.withHalves '\uFFFD'

namespace AnalyzeRequest

def source (r : AnalyzeRequest) : Text := r.code.withHalves r.code.standIn

def language (r : AnalyzeRequest) : Text := resolveTag (replaced r.tag) (replaced r.fileName)

/-- The file name that is shown in a rendered report. -/
def shownFile? (r : AnalyzeRequest) : Option Text :=
  if r.fileName = .ofText untitled then none else some (replaced r.fileName)

end AnalyzeRequest

theorem resolveTag_of_explicit {tag : Text} (h : sameIgnoringCase tag autoTag = false)
    (fileName : Text) : resolveTag tag fileName = tag := by
  simp [resolveTag, h]

theorem AnalyzeRequest.source_of_text {r : AnalyzeRequest} {code : Text} (h : r.code = .ofText code) :
    r.source = code := by
  rw [source, h, CodePoints.withHalves_ofText]

theorem AnalyzeRequest.language_of_texts {r : AnalyzeRequest} {tag fileName : Text}
    (htag : r.tag = .ofText tag) (hfile : r.fileName = .ofText fileName) :
    r.language = resolveTag tag fileName := by
  rw [language, htag, hfile, replaced, replaced, CodePoints.withHalves_ofText,
    CodePoints.withHalves_ofText]

end GrowthEstimate.Service
