import GrowthEstimate.Decimal.Numeral
import GrowthEstimate.Json
import GrowthEstimate.Text.Search

/-!
# JSON tokens

A text is cut into tokens by a machine that takes one character at a time.  Between tokens it
skips the four blanks of the format; inside a string it collects what the string is spelled with
and knows how far an escape has been read; any other run of characters is a bare word, which has to
be a number or one of the named values.  What is no token is itself marked by one, in its place
among the others.  A half stands nowhere but in a string.

* `run_append`: the machine reads a text in any two pieces;
* `step_string_plain`: a character that needs no escape becomes part of the string;
* `tokensOfPoints_ofText`: a text has the tokens of its code points.
-/

namespace GrowthEstimate.Json

open CodePoints (Piece join)
open Decimal (takeMinus takeWhole takeFraction takeExponent)

inductive Token
  | openArray
  | closeArray
  | openObject
  | closeObject
  | comma
  | colon
  /-- A string, as a value or as the key of a member. -/
  | string (s : CodePoints)
  /-- A number without point and exponent. -/
  | whole (negative : Bool) (digits : Text)
  /-- Any other number, a truth value or null. -/
  | scalar (value : Json)
  /-- Characters that are no token. -/
  | broken

/-! ## Bare words -/

/-- The words that are values, beside the numbers. -/
def namedValues : List (Text × Json) :=
  [ ("null".toList, .null), ("true".toList, .bool true), ("false".toList, .bool false),
    ("NaN".toList, .float (0 / 0)), ("Infinity".toList, .float (1 / 0)),
    ("-Infinity".toList, .float (-1 / 0)) ]

/-- A named value at the start of a word, and what follows it. -/
def takeNamed? (word : Text) : Option (Token × Text) :=
  namedValues.findSome? fun (name, value) =>
    (Text.after? name word).map fun rest => (.scalar value, rest)

/-- The longest number at the start of a word, and what follows it. -/
def takeNumber? (word : Text) : Option (Token × Text) :=
  let (negative, s) := takeMinus word
  let (whole, s) := takeWhole s
  let (fraction, s) := takeFraction s
  let (exponent, s) := takeExponent s
  if whole.isEmpty then none
  else if fraction.isEmpty && exponent.isNone then some (.whole negative whole, s)
  else
    let digits := Decimal.ofDigits (whole ++ fraction)
    let x := Decimal.toFloat ⟨negative, digits, exponent.getD 0 - fraction.length⟩
    some (.scalar (.float x), s)

def ofWord (word : Text) : List Token :=
  match (takeNamed? word).or (takeNumber? word) with
  | some (token, []) => [token]
  | some (token, _ :: _) => [token, .broken]
  | none => [.broken]

/-! ## Strings -/

/-- How far an escape in a string has been read. -/
inductive Escape
  | outside
  /-- Behind the backslash. -/
  | backslash
  /-- Among the four digits of a code unit. -/
  | unit (count value : Nat)

/-- What stands for itself or a control character behind a backslash. -/
def ofEscapeLetter? : Char → Option Char
  | '"' => some '"'
  | '\\' => some '\\'
  | '/' => some '/'
  | 'b' => some '\x08'
  | 'f' => some '\x0C'
  | 'n' => some '\n'
  | 'r' => some '\r'
  | 't' => some '\t'
  | _ => none

def ofHexDigit? (c : Char) : Option Nat :=
  if c.isDigit then some (c.toNat - '0'.toNat)
  else if 'a' ≤ c ∧ c ≤ 'f' then some (c.toNat - 'a'.toNat + 10)
  else if 'A' ≤ c ∧ c ≤ 'F' then some (c.toNat - 'A'.toNat + 10)
  else none

/-- One character of a string, other than the closing quote: the escape state behind it, and the
pieces read so far, the last one first. -/
def Escape.step (e : Escape) (pieces : List Piece) (c : Char) : Option (Escape × List Piece) :=
  match e with
  | outside =>
    if c == '\\' then some (.backslash, pieces)
    else if c.toNat < 0x20 then none
    else some (.outside, .point (.char c) :: pieces)
  | backslash =>
    if c == 'u' then some (.unit 0 0, pieces)
    else (ofEscapeLetter? c).map fun d => (.outside, .point (.char d) :: pieces)
  | unit count value =>
    (ofHexDigit? c).map fun digit =>
      if count < 3 then (.unit (count + 1) (16 * value + digit), pieces)
      else (.outside, .unit (16 * value + digit) :: pieces)

def Escape.isOutside : Escape → Bool
  | outside => true
  | _ => false

/-! ## The machine -/

/-- Where the machine stands; what has been read of a word or string is kept backwards. -/
inductive Lexer.Place
  | between
  | word (read : Text)
  | string (escape : Escape) (pieces : List Piece)

/-- The machine: its place, and the tokens behind it, the last one first. -/
structure Lexer where
  place : Lexer.Place
  tokens : List Token

def isJsonBlank (c : Char) : Bool := c == ' ' || c == '\t' || c == '\n' || c == '\r'

def ofMark? : Char → Option Token
  | '[' => some .openArray
  | ']' => some .closeArray
  | '\x7b' => some .openObject
  | '\x7d' => some .closeObject
  | ',' => some .comma
  | ':' => some .colon
  | _ => none

namespace Lexer

/-- One character that does not belong to a token begun before it. -/
def start (tokens : List Token) (c : Char) : Lexer :=
  if isJsonBlank c then ⟨.between, tokens⟩
  else if c == '"' then ⟨.string .outside [], tokens⟩
  else
    match ofMark? c with
    | some token => ⟨.between, token :: tokens⟩
    | none => ⟨.word [c], tokens⟩

def endsWord (c : Char) : Bool := isJsonBlank c || c == '"' || (ofMark? c).isSome

/-- The tokens with those of a word behind them; the word and the tokens are kept backwards. -/
def afterWord (read : Text) (tokens : List Token) : List Token :=
  (ofWord read.reverse).reverse ++ tokens

def step (l : Lexer) (c : Char) : Lexer :=
  match l.place with
  | .between => start l.tokens c
  | .word read =>
    if endsWord c then start (afterWord read l.tokens) c
    else ⟨.word (c :: read), l.tokens⟩
  | .string escape pieces =>
    if escape.isOutside && c == '"' then ⟨.between, .string (join pieces []) :: l.tokens⟩
    else
      match escape.step pieces c with
      | some (escape, pieces) => ⟨.string escape pieces, l.tokens⟩
      | none => ⟨.between, .broken :: l.tokens⟩

/-- A half that stands in the text itself. -/
def stepHalf (l : Lexer) (half : CodePoint) : Lexer :=
  match l.place with
  | .string .outside pieces => ⟨.string .outside (.point half :: pieces), l.tokens⟩
  | .word read => ⟨.between, .broken :: afterWord read l.tokens⟩
  | .string _ _ | .between => ⟨.between, .broken :: l.tokens⟩

def stepPoint (l : Lexer) : CodePoint → Lexer
  | .char c => l.step c
  | .half unit range => l.stepHalf (.half unit range)

def run (l : Lexer) (s : Text) : Lexer := s.foldl step l

def finish (l : Lexer) : List Token :=
  match l.place with
  | .between => l.tokens.reverse
  | .word read => (afterWord read l.tokens).reverse
  | .string .. => (.broken :: l.tokens).reverse

theorem run_append (l : Lexer) (s t : Text) : l.run (s ++ t) = (l.run s).run t :=
  List.foldl_append

theorem step_string_plain {c : Char} (quote : c ≠ '"') (backslash : c ≠ '\\')
    (control : ¬ c.toNat < 0x20) (pieces : List Piece) (tokens : List Token) :
    step ⟨.string .outside pieces, tokens⟩ c
      = ⟨.string .outside (.point (.char c) :: pieces), tokens⟩ := by
  simp [step, Escape.step, quote, backslash, control]

end Lexer

def tokens (s : Text) : List Token := (Lexer.run ⟨.between, []⟩ s).finish

def tokensOfPoints (s : CodePoints) : List Token :=
  (s.foldl Lexer.stepPoint ⟨.between, []⟩).finish

theorem tokensOfPoints_ofText (s : Text) : tokensOfPoints (.ofText s) = tokens s := by
  rw [tokensOfPoints, CodePoints.ofText, List.foldl_map]
  rfl

end GrowthEstimate.Json
