import GrowthEstimate.Header.Braced

/-!
# Headers of script functions

A script language declares functions like a braced one and in two ways of its own: a name that is
assigned an arrow function, and a member of an object that is a function or an arrow function.
The arrow has to take its parameters right at the start of the right-hand side, so that a call
with an arrow among its arguments declares nothing.

Each shape is read from left to right: an identifier, a run of blanks, a type annotation up to the
first equals sign and a parameter list up to the first closing parenthesis all end where the next
thing cannot begin earlier.  Only `async` can be read in two ways, as a keyword and as a bare
parameter; both are tried, and neither changes the name.
-/

namespace GrowthEstimate.Header

open Text

/-- What follows an opening parenthesis and the first closing one. -/
def afterParenthesised? : Text → Option Text
  | [] => none
  | c :: s =>
    if c == '(' && s.contains ')' then some (s.dropWhile (· != ')')).tail else none

/-- The text from the first equals sign on, behind a colon and at least one character. -/
def afterAnnotation? (s : Text) : Option Text :=
  match after? ":".toList s with
  | some declared =>
    if (upTo '=' declared).isEmpty then none else some (declared.dropWhile (· != '='))
  | none => none

def arrowFollows (s : Text) : Bool := startsWith "=>".toList (trimStart s)

def isBareArrow (s : Text) : Bool := (takeIdentifier? s).any fun (_, rest) => arrowFollows rest

/-- Whether the text is a parameter list and an arrow, with a return type between them or not. -/
def isTypedArrow (s : Text) : Bool :=
  (afterParenthesised? s).any fun rest =>
    arrowFollows rest || (afterAnnotation? (trimStart rest)).any (startsWith "=>".toList)

def isArrowFunction (s : Text) : Bool := isTypedArrow s || isBareArrow s

/-- Whether the text is what a member of an object is a function by: the word `function`, or an
arrow function without a return type. -/
def isMemberFunction (s : Text) : Bool :=
  (after? "function".toList s).any (fun rest => !beginsWithWordChar rest)
    || (afterParenthesised? s).any arrowFollows
    || isBareArrow s

/-- Whether `isFunction` holds of the text, with the word `async` in front of it or not. -/
def maybeAsync (isFunction : Text → Bool) (s : Text) : Bool :=
  isFunction (skipWord "async".toList s) || isFunction s

/-- The name in `name = arrow`, where the name may have a type annotation. -/
def assignedName? (s : Text) : Option Text :=
  match takeIdentifier? s with
  | none => none
  | some (name, rest) =>
    let rest := trimStart rest
    match after? "=".toList ((afterAnnotation? rest).getD rest) with
    | none => none
    | some value => if maybeAsync isArrowFunction (trimStart value) then some name else none

def afterDeclarator? (s : Text) : Option Text :=
  let s := skipWord "export".toList s
  (afterWord? "const".toList s).or
    ((afterWord? "let".toList s).or (afterWord? "var".toList s))

def arrowName? (line : Text) : Option Text :=
  ((afterDeclarator? line).bind assignedName?).or (assignedName? line)

def memberName? (line : Text) : Option Text :=
  match takeIdentifier? line with
  | none => none
  | some (name, rest) =>
    match after? ":".toList (trimStart rest) with
    | none => none
    | some value => if maybeAsync isMemberFunction (trimStart value) then some name else none

/-- The name of the script function that a line declares. -/
def scriptName? (line : Text) : Option Text :=
  (bracedName? line).or
    (((arrowName? line).filter isAcceptableName).or ((memberName? line).filter isAcceptableName))

end GrowthEstimate.Header
