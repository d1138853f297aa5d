import GrowthEstimate.Json.Token

/-!
# Reading JSON

The tokens of a text are put together by a machine that keeps the containers it is inside of on a
stack.  A reader may limit how deep the containers lie and how long a whole number is; without
limits nothing but the form of the text decides.

* `run_append`: the machine takes the tokens in any two pieces;
* `parsePoints_ofText`: a text is read as its code points are.
-/

namespace GrowthEstimate.Json

/-- Why a text is not read.  The first fault in the text counts. -/
inductive ReadFault
  /-- It is not exactly one value. -/
  | malformed
  /-- A whole number has more digits than are taken. -/
  | tooLong
  /-- A container lies deeper than is taken. -/
  | tooDeep
  deriving DecidableEq

/-- The sizes up to which a reader takes a text; none for any size. -/
structure Limits where
  /-- The digits of a whole number. -/
  digits : Option Nat
  /-- The containers that a value lies in, itself included. -/
  depth : Option Nat

def unlimited : Limits := ⟨none, none⟩

/-- A container that is being read; its contents are kept backwards. -/
inductive Frame
  | array (items : List Json)
  | object (members : List (Text × Json))
  /-- The member of the object below it whose value comes next. -/
  | member (key : Text)

def Frame.isContainer : Frame → Bool
  | member _ => false
  | _ => true

/-- What may come next. -/
inductive Expectation
  | value
  /-- A value, or the end of the array that was just opened. -/
  | firstItem
  | key
  /-- A key, or the end of the object that was just opened. -/
  | firstKey
  | colon
  /-- A comma or the end of the innermost container. -/
  | separator
  /-- Nothing: the value is complete. -/
  | done (value : Json)

structure Builder where
  stack : List Frame
  expects : Expectation

namespace Builder

/-- A complete value becomes part of the innermost container. -/
def put (value : Json) : List Frame → Except ReadFault Builder
  | [] => .ok ⟨[], .done value⟩
  | .array items :: stack => .ok ⟨.array (value :: items) :: stack, .separator⟩
  | .member key :: .object members :: stack =>
    .ok ⟨.object ((key, value) :: members) :: stack, .separator⟩
  | _ => .error .malformed

/-- A new innermost container, unless it lies too deep. -/
def enter (limits : Limits) (b : Builder) : Except ReadFault Builder :=
  if limits.depth.any fun depth => depth < b.stack.countP Frame.isContainer then .error .tooDeep
  else .ok b

def begin (limits : Limits) (stack : List Frame) : Token → Except ReadFault Builder
  | .scalar value => put value stack
  | .string s => put (ofPoints s) stack
  | .whole negative digits =>
    if limits.digits.any (· < digits.length) then .error .tooLong
    else put (.int (Decimal.signed negative digits)) stack
  | .openArray => enter limits ⟨.array [] :: stack, .firstItem⟩
  | .openObject => enter limits ⟨.object [] :: stack, .firstKey⟩
  | _ => .error .malformed

/-- What a key that is no text is replaced by. -/
def replacementKey : Text := ['\uFFFD']

def withKey (stack : List Frame) (key : CodePoints) : Builder :=
  ⟨.member (key.text?.getD replacementKey) :: stack, .colon⟩

def close : List Frame → Token → Except ReadFault Builder
  | .array items :: stack, .closeArray => put (.array items.reverse) stack
  | .object members :: stack, .closeObject => put (.object members.reverse) stack
  | _, _ => .error .malformed

/-- The comma between two parts of the innermost container, or its end. -/
def separate : List Frame → Token → Except ReadFault Builder
  | .array items :: stack, .comma => .ok ⟨.array items :: stack, .value⟩
  | .object members :: stack, .comma => .ok ⟨.object members :: stack, .key⟩
  | stack, token => close stack token

def step (limits : Limits) (b : Builder) (token : Token) : Except ReadFault Builder :=
  match b.expects, token with
  | .value, token => begin limits b.stack token
  | .firstItem, .closeArray => close b.stack .closeArray
  | .firstItem, token => begin limits b.stack token
  | .firstKey, .closeObject => close b.stack .closeObject
  | .firstKey, .string key => .ok (withKey b.stack key)
  | .key, .string key => .ok (withKey b.stack key)
  | .colon, .colon => .ok ⟨b.stack, .value⟩
  | .separator, token => separate b.stack token
  | _, _ => .error .malformed

def run (limits : Limits) : Builder → List Token → Except ReadFault Builder
  | b, [] => .ok b
  | b, token :: rest =>
    match b.step limits token with
    | .ok b => b.run limits rest
    | .error fault => .error fault

def finish (b : Builder) : Except ReadFault Json :=
  match b.expects with
  | .done value => .ok value
  | _ => .error .malformed

theorem run_append (limits : Limits) (b : Builder) (s t : List Token) :
    b.run limits (s ++ t) = (b.run limits s).bind fun b => b.run limits t := by
  induction s generalizing b with
  | nil => rfl
  | cons token s ih =>
    rw [List.cons_append, run, run]
    cases b.step limits token with
    | error fault => rfl
    | ok b => exact ih b

end Builder

def ofTokens (limits : Limits) (tokens : List Token) : Except ReadFault Json :=
  (Builder.run limits ⟨[], .value⟩ tokens).bind Builder.finish

/-- The value that a text is, within the limits. -/
def parse (limits : Limits) (s : Text) : Except ReadFault Json := ofTokens limits (tokens s)

/-- The value that a string is, which may hold halves. -/
def parsePoints (limits : Limits) (s : CodePoints) : Except ReadFault Json :=
  ofTokens limits (tokensOfPoints s)

theorem parsePoints_ofText (limits : Limits) (s : Text) :
    parsePoints limits (.ofText s) = parse limits s := by
  rw [parsePoints, tokensOfPoints_ofText, parse]

/-- The value that a text is, when it is exactly one. -/
def parse? (s : Text) : Option Json := (parse unlimited s).toOption

end GrowthEstimate.Json
