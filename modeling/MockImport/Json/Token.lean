/-!
The tokens of JSON text by the strict grammar: brackets, separators, literals,
numbers and strings, with spaces, tabs and line ends between them. Numbers and
strings are kept as they are written.
-/

namespace MockImport.Json

/-- One character of a string, or a code unit written as an escape. -/
inductive Piece where
  | char (c : Char)
  | unit (code : Nat)
  deriving DecidableEq

inductive Bracket where
  | square
  | curly
  deriving DecidableEq

inductive Token where
  | opening (bracket : Bracket)
  | closing (bracket : Bracket)
  | comma
  | colon
  | null
  | bool (flag : Bool)
  | number (written : List Char)
  | string (pieces : List Piece)
  deriving DecidableEq

def isSpace (c : Char) : Bool := c = ' ' || c = '\t' || c = '\n' || c = '\r'

def isDigit (c : Char) : Bool := '0' ≤ c && c ≤ '9'

def hexDigit? (c : Char) : Option Nat :=
  if isDigit c then some (c.toNat - '0'.toNat)
  else if 'a' ≤ c && c ≤ 'f' then some (c.toNat - 'a'.toNat + 10)
  else if 'A' ≤ c && c ≤ 'F' then some (c.toNat - 'A'.toNat + 10)
  else none

def unit? (a b c d : Char) : Option Piece := do
  return .unit ((((← hexDigit? a) * 16 + (← hexDigit? b)) * 16 + (← hexDigit? c)) * 16 +
    (← hexDigit? d))

/-- What a backslash and one further character stand for. -/
def escape? (c : Char) : Option Piece :=
  match c with
  | '"' | '\\' | '/' => some (.char c)
  | 'b' => some (.char '\x08')
  | 'f' => some (.char '\x0c')
  | 'n' => some (.char '\n')
  | 'r' => some (.char '\r')
  | 't' => some (.char '\t')
  | _ => none

/-- The pieces of a string after its opening quote, onto those read before, which come
newest first; and what follows the closing quote. -/
def stringOnto (done : List Piece) : List Char → Option (List Piece × List Char)
  | [] => none
  | c :: cs =>
      if c = '"' then some (done.reverse, cs)
      else if c = '\\' then
        match cs with
        | 'u' :: h₁ :: h₂ :: h₃ :: h₄ :: rest =>
            match unit? h₁ h₂ h₃ h₄ with
            | some piece => stringOnto (piece :: done) rest
            | none => none
        | e :: rest =>
            match escape? e with
            | some piece => stringOnto (piece :: done) rest
            | none => none
        | [] => none
      else if c.toNat < 0x20 then none
      else stringOnto (.char c :: done) cs

/-- A part of a number and what follows it. -/
abbrev Part := Option (List Char × List Char)

/-- One digit or more. -/
def digits? (cs : List Char) : Part :=
  match cs.span isDigit with
  | ([], _) => none
  | (digits, rest) => some (digits, rest)

/-- Digits after the characters that introduce them. -/
def digitsAfter (lead cs : List Char) : Part :=
  (digits? cs).map fun (digits, rest) => (lead ++ digits, rest)

/-- An integer, which has no needless zero in front. -/
def integer? : List Char → Part
  | '0' :: cs => some (['0'], cs)
  | cs => digits? cs

def fraction? : List Char → Part
  | '.' :: cs => digitsAfter ['.'] cs
  | cs => some ([], cs)

def exponent? : List Char → Part
  | [] => some ([], [])
  | c :: cs =>
      if c = 'e' || c = 'E' then
        match cs with
        | '+' :: rest => digitsAfter [c, '+'] rest
        | '-' :: rest => digitsAfter [c, '-'] rest
        | rest => digitsAfter [c] rest
      else some ([], c :: cs)

def number? (cs : List Char) : Part := do
  let (sign, cs) := match cs with
    | '-' :: rest => (['-'], rest)
    | _ => ([], cs)
  let (integer, cs) ← integer? cs
  let (fraction, cs) ← fraction? cs
  let (exponent, cs) ← exponent? cs
  return (sign ++ integer ++ fraction ++ exponent, cs)

/-- What follows a given word. -/
def word? (word cs : List Char) : Option (List Char) :=
  if word.isPrefixOf cs then some (cs.drop word.length) else none

/-- The first token of a text and what follows it. -/
def token? : List Char → Option (Token × List Char)
  | [] => none
  | c :: cs =>
      match c with
      | '[' => some (.opening .square, cs)
      | ']' => some (.closing .square, cs)
      | '\x7b' => some (.opening .curly, cs)
      | '\x7d' => some (.closing .curly, cs)
      | ',' => some (.comma, cs)
      | ':' => some (.colon, cs)
      | '"' => (stringOnto [] cs).map fun (pieces, rest) => (.string pieces, rest)
      | 'n' => (word? ['u', 'l', 'l'] cs).map (.null, ·)
      | 't' => (word? ['r', 'u', 'e'] cs).map (.bool true, ·)
      | 'f' => (word? ['a', 'l', 's', 'e'] cs).map (.bool false, ·)
      | _ => (number? (c :: cs)).map fun (written, rest) => (.number written, rest)

end MockImport.Json
