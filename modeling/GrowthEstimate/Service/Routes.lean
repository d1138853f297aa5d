import GrowthEstimate.Analysis
import GrowthEstimate.Export
import GrowthEstimate.Service.Request

/-!
# Routes of the service

Five routes: a greeting, a health check, the list of languages, an analysis, and an analysis that
is rendered in a format.  A route has one path and one method.  A call whose path differs from that
of a route by slashes at its end is sent on to the route, and no other path is found.  A body that
does not fit comes before a text that is rejected.

Answers are sent as bytes, and a half has none.  So there is no answer that shows a half of the
request.

* `respond_of_path`: a call by the path and method of a route comes to the route.
-/

namespace GrowthEstimate.Service

inductive Route
  | greeting
  | health
  | languages
  | analyze
  | exported
  deriving DecidableEq

namespace Route

def all : List Route := [greeting, health, languages, analyze, exported]

def path : Route → Text
  | greeting => "/".toList
  | health => "/health".toList
  | languages => "/languages".toList
  | analyze => "/analyze".toList
  | exported => "/export".toList

def method : Route → Text
  | greeting | health | languages => "GET".toList
  | analyze | exported => "POST".toList

def ofPath? (path : Text) : Option Route := all.find? fun r => r.path == path

/-- The path without the slashes at its end, or with one when there is none. -/
def otherPath (path : Text) : Text :=
  if path.getLast? = some '/' then Text.dropEndWhile (· == '/') path else path ++ ['/']

end Route

/-- A call of the service: the method in capitals, the path without escapes, and the query as the
pairs that it is. -/
structure Call where
  method : Text
  path : Text
  query : List (Text × Text)
  body : Body

inductive Content
  | json (j : Json)
  | text (s : Text)
  /-- No content, but the path to call instead. -/
  | elsewhere (path : Text)

structure Response where
  status : Nat
  contentType : Text
  content : Content

namespace Response

def jsonType : Text := "application/json".toList

def ofJson (status : Nat) (j : Json) : Response := ⟨status, jsonType, .json j⟩

def detail (status : Nat) (reason : String) : Response :=
  ofJson status (.ofMembers [("detail", .text reason.toList)])

/-- The answer to a request that cannot be served. -/
def failed (status : Nat) (message : Text) : Response :=
  ofJson status
    (.ofMembers [("success", .bool false), ("error", .text message), ("details", .null)])

def redirect (path : Text) : Response := ⟨307, [], .elsewhere path⟩

/-- The answer when an answer has no bytes. -/
def internalError : Response := failed 500 "Internal server error".toList

def notFound : Response := detail 404 "Not Found"

def methodNotAllowed : Response := detail 405 "Method Not Allowed"

def invalidRequest : Response := failed 422 "Invalid request format".toList

def rejected (reason : Rejection) : Response := failed 400 reason.message

def ofBodyFault : BodyFault → Response
  | .unfit => invalidRequest
  | .unreadable => detail 400 "There was an error parsing the body"

end Response

/-! ## The routes -/

def greetingJson : Json := .ofMembers
  [ ("name", .text "Big-O Lens API".toList), ("version", .text "1.0.0".toList),
    ("status", .text "ok".toList) ]

def healthJson (now : Text) : Json :=
  .ofMembers [("status", .text "ok".toList), ("timestamp", .text now)]

def languagesJson : Json :=
  .ofMembers [("languages", .ofTexts (Language.supported.map Language.tag))]

def summaryJson (r : Report) : Json := .ofMembers
  [ ("notation", .text r.overall.symbol), ("description", .text r.overall.description),
    ("rating", .text r.overall.rating), ("functionCount", .int r.functions.length),
    ("averageConfidence", .float r.averageConfidence) ]

def analysisJson (r : Report) : Json := .ofMembers
  [("success", .bool true), ("result", r.toJson), ("summary", summaryJson r)]

/-- The report that a request asks for, on a text within the configured limit. -/
def runAnalysis (limit : Int) (r : AnalyzeRequest) : Except Rejection Report :=
  match validate limit r.source with
  | .error reason => .error reason
  | .ok () => GrowthEstimate.analyze r.source r.language

/-- Whether a half of the request is in the name of a function. -/
def AnalyzeRequest.namesHalf (r : AnalyzeRequest) (report : Report) : Bool :=
  r.code.hasHalf && report.functions.any fun f => f.name.contains r.code.standIn

/-- Whether a half of the request is in the report as a format shows it. -/
def AnalyzeRequest.showsHalf (r : AnalyzeRequest) (report : Report) (format : Export.Format) :
    Bool :=
  r.namesHalf report || (format.showsLanguage && r.tag.hasHalf)
    || (format.showsFile && r.fileName.hasHalf)

/-- The format that a query asks for, if there is such a format; JSON when none is named. -/
def formatOf? (query : List (Text × Text)) : Option Export.Format :=
  match query.reverse.lookup "format".toList with
  | some name => (Export.Format.ofName name).toOption
  | none => some .json

/-- The content type of a media type: texts are encoded as UTF-8, and say so. -/
def contentTypeOf (mediaType : Text) : Text :=
  if Text.startsWith "text/".toList mediaType then mediaType ++ "; charset=utf-8".toList
  else mediaType

def respondAnalysis (limits : Json.Limits) (limit : Int) (body : Body) : Response :=
  match AnalyzeRequest.ofBody limits body with
  | .error fault => .ofBodyFault fault
  | .ok request =>
    match runAnalysis limit request with
    | .error reason => .rejected reason
    | .ok report =>
      if request.showsHalf report .json then .internalError else .ofJson 200 (analysisJson report)

def respondExport (limits : Json.Limits) (limit : Int) (query : List (Text × Text)) (body : Body) :
    Response :=
  match AnalyzeRequest.ofBody limits body, formatOf? query with
  | .error fault, _ => .ofBodyFault fault
  | .ok _, none => .invalidRequest
  | .ok request, some format =>
    match runAnalysis limit request with
    | .error reason => .rejected reason
    | .ok report =>
      if request.showsHalf report format then .internalError
      else
        ⟨200, contentTypeOf format.mediaType,
          .text (Export.render format report request.shownFile?)⟩

/-- What a route answers to a call of it. -/
def Route.respond (limits : Json.Limits) (limit : Int) (now : Text) (call : Call) : Route → Response
  | greeting => .ofJson 200 greetingJson
  | health => .ofJson 200 (healthJson now)
  | languages => .ofJson 200 languagesJson
  | analyze => respondAnalysis limits limit call.body
  | exported => respondExport limits limit call.query call.body

/-- The answer to a call: of its body so much is read as the limits allow, and its text is analysed
when it is not longer than the configured limit. -/
def respond (limits : Json.Limits) (limit : Int) (now : Text) (call : Call) : Response :=
  match Route.ofPath? call.path with
  | some route =>
    if call.method = route.method then route.respond limits limit now call else .methodNotAllowed
  | none =>
    let path := Route.otherPath call.path
    if (Route.ofPath? path).isSome then .redirect path else .notFound

theorem Route.ofPath?_path (route : Route) : ofPath? route.path = some route := by
  cases route <;> decide +kernel

theorem respond_of_path {call : Call} {route : Route} (hpath : call.path = route.path)
    (hmethod : call.method = route.method) (limits : Json.Limits) (limit : Int) (now : Text) :
    respond limits limit now call = route.respond limits limit now call := by
  simp only [respond, hpath, Route.ofPath?_path, hmethod, if_true]

end GrowthEstimate.Service
