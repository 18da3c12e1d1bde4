import MockImport.Json.Basic

/-!
The strict grammar of JSON text. Each relation says how a value, or a part of one, may be
written; between the parts there may be spaces, tabs and line ends, and nothing else.
-/

namespace MockImport.Json

def Space (cs : List Char) : Prop := ∀ c ∈ cs, c ∈ [' ', '\t', '\n', '\r']

def IsDigit (c : Char) : Prop := '0' ≤ c ∧ c ≤ '9'

instance : DecidablePred IsDigit := fun _ => inferInstanceAs (Decidable (_ ∧ _))

def Digits (cs : List Char) : Prop := cs ≠ [] ∧ ∀ c ∈ cs, IsDigit c

inductive Integer : List Char → Prop
  | zero : Integer ['0']
  | nonzero {c : Char} {cs : List Char} (first : IsDigit c) (noZero : c ≠ '0')
      (later : ∀ d ∈ cs, IsDigit d) : Integer (c :: cs)

inductive Fraction : List Char → Prop
  | absent : Fraction []
  | present {cs : List Char} (digits : Digits cs) : Fraction ('.' :: cs)

inductive Exponent : List Char → Prop
  | absent : Exponent []
  | present {mark : Char} {sign cs : List Char} (marked : mark ∈ ['e', 'E'])
      (signed : sign ∈ [[], ['+'], ['-']]) (digits : Digits cs) : Exponent (mark :: sign ++ cs)

inductive Number : List Char → Prop
  | intro {sign integer fraction exponent : List Char} (signed : sign ∈ [[], ['-']])
      (whole : Integer integer) (part : Fraction fraction) (power : Exponent exponent) :
      Number (sign ++ integer ++ fraction ++ exponent)

/-- The characters that may follow a backslash, beside `u`, with those that they stand for. -/
def shortEscapes : List (Char × Char) :=
  [('"', '"'), ('\\', '\\'), ('/', '/'), ('b', '\x08'), ('f', '\x0c'), ('n', '\n'), ('r', '\r'),
    ('t', '\t')]

/-- The hexadecimal digits and their values. -/
def hexDigits : List (Char × Nat) :=
  "0123456789abcdef".toList.zipIdx ++ "ABCDEF".toList.zipIdx 10

/-- How a character or code unit of a string may be written. -/
inductive WrittenPiece : Piece → List Char → Prop
  | plain {c : Char} (noQuote : c ≠ '"') (noBackslash : c ≠ '\\') (noControl : 0x20 ≤ c.toNat) :
      WrittenPiece (.char c) [c]
  | short {e c : Char} (escape : (e, c) ∈ shortEscapes) : WrittenPiece (.char c) ['\\', e]
  | unit {a b c d : Char} {i j k l : Nat} (first : (a, i) ∈ hexDigits)
      (second : (b, j) ∈ hexDigits) (third : (c, k) ∈ hexDigits) (fourth : (d, l) ∈ hexDigits) :
      WrittenPiece (.unit (((i * 16 + j) * 16 + k) * 16 + l)) ['\\', 'u', a, b, c, d]

inductive WrittenPieces : List Piece → List Char → Prop
  | nil : WrittenPieces [] []
  | cons {p : Piece} {ps : List Piece} {cs ds : List Char} (here : WrittenPiece p cs)
      (later : WrittenPieces ps ds) : WrittenPieces (p :: ps) (cs ++ ds)

mutual

/-- How a value may be written. -/
inductive Written : Json → List Char → Prop
  | null : Written .null ['n', 'u', 'l', 'l']
  | true : Written (.bool true) ['t', 'r', 'u', 'e']
  | false : Written (.bool false) ['f', 'a', 'l', 's', 'e']
  | number {cs : List Char} (number : Number cs) : Written (.number cs) cs
  | string {ps : List Piece} {cs : List Char} (pieces : WrittenPieces ps cs) :
      Written (.string ps) ('"' :: cs ++ ['"'])
  | array {items : List Json} {cs : List Char} (inside : WrittenItems items cs) :
      Written (.array items) ('[' :: cs ++ [']'])
  | object {members : List (List Piece × Json)} {cs : List Char}
      (inside : WrittenMembers members cs) : Written (.object members) ('\x7b' :: cs ++ ['\x7d'])

/-- A value with space around it. -/
inductive Spaced : Json → List Char → Prop
  | intro {v : Json} {before cs after : List Char} (front : Space before) (value : Written v cs)
      (back : Space after) : Spaced v (before ++ cs ++ after)

/-- What stands between the brackets of an array. -/
inductive WrittenItems : List Json → List Char → Prop
  | none {cs : List Char} (space : Space cs) : WrittenItems [] cs
  | one {v : Json} {cs : List Char} (value : Spaced v cs) : WrittenItems [v] cs
  | more {v w : Json} {vs : List Json} {cs ds : List Char} (value : Spaced v cs)
      (later : WrittenItems (w :: vs) ds) : WrittenItems (v :: w :: vs) (cs ++ ',' :: ds)

/-- A key and its value, with space around them. -/
inductive WrittenMember : List Piece × Json → List Char → Prop
  | intro {key : List Piece} {v : Json} {before ks after cs : List Char} (front : Space before)
      (pieces : WrittenPieces key ks) (back : Space after) (value : Spaced v cs) :
      WrittenMember (key, v) (before ++ '"' :: ks ++ '"' :: after ++ ':' :: cs)

/-- What stands between the brackets of an object. -/
inductive WrittenMembers : List (List Piece × Json) → List Char → Prop
  | none {cs : List Char} (space : Space cs) : WrittenMembers [] cs
  | one {m : List Piece × Json} {cs : List Char} (member : WrittenMember m cs) :
      WrittenMembers [m] cs
  | more {m n : List Piece × Json} {ms : List (List Piece × Json)} {cs ds : List Char}
      (member : WrittenMember m cs) (later : WrittenMembers (n :: ms) ds) :
      WrittenMembers (m :: n :: ms) (cs ++ ',' :: ds)

end

end MockImport.Json
