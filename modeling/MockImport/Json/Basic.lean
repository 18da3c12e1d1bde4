import MockImport.Json.Token

/-!
JSON values read from text. The reader goes through the tokens once and keeps the
brackets that are open, so that no depth of nesting is too deep for it.
-/

namespace MockImport

open Json (Piece Token)

/-- A JSON value. Numbers, strings and keys are kept as they are written. -/
inductive Json where
  | null
  | bool (flag : Bool)
  | number (written : List Char)
  | string (pieces : List Piece)
  | array (items : List Json)
  | object (members : List (List Piece × Json))

namespace Json

/-- The character for two code units that stand for one, if they do. -/
def surrogatePair? (high low : Nat) : Option Char :=
  if 0xD800 ≤ high && high < 0xDC00 && 0xDC00 ≤ low && low < 0xE000 then
    some (.ofNat (0x10000 + (high - 0xD800) * 0x400 + (low - 0xDC00)))
  else none

/-- The characters of a string, onto those before, which come newest first. -/
def decodeOnto (done : List Char) : List Piece → Option (List Char)
  | [] => some done.reverse
  | .char c :: rest => decodeOnto (c :: done) rest
  | .unit code :: rest =>
      if code < 0xD800 || 0xE000 ≤ code then decodeOnto (.ofNat code :: done) rest
      else
        match rest with
        | .unit low :: rest =>
            match surrogatePair? code low with
            | some c => decodeOnto (c :: done) rest
            | none => none
        | _ => none

/-- The text that a string stands for; a lone surrogate stands for none. -/
def decode? : List Piece → Option (List Char) := decodeOnto []

/-- An open bracket, with what has been read inside it, newest first. -/
inductive Frame where
  | array (items : List Json)
  /-- The members before the one whose key is given. -/
  | object (members : List (List Piece × Json)) (key : List Piece)

/-- What the reader waits for, and the brackets open around it. -/
inductive State where
  | value (stack : List Frame)
  /-- A value, or the end of an array. -/
  | firstItem (stack : List Frame)
  /-- A key, or the end of an object. -/
  | firstKey (stack : List Frame)
  | key (stack : List Frame) (members : List (List Piece × Json))
  | colon (stack : List Frame) (members : List (List Piece × Json)) (key : List Piece)
  /-- What may follow a value. -/
  | after (v : Json) (stack : List Frame)

/-- A token at which a value starts. -/
def startValue (stack : List Frame) : Token → Option State
  | .opening .square => some (.firstItem stack)
  | .opening .curly => some (.firstKey stack)
  | .null => some (.after .null stack)
  | .bool flag => some (.after (.bool flag) stack)
  | .number written => some (.after (.number written) stack)
  | .string pieces => some (.after (.string pieces) stack)
  | _ => none

/-- A token after a value inside the innermost open bracket. -/
def endValue (v : Json) (stack : List Frame) : Frame → Token → Option State
  | .array items, .comma => some (.value (.array (v :: items) :: stack))
  | .array items, .closing .square => some (.after (.array (v :: items).reverse) stack)
  | .object members key, .comma => some (.key stack ((key, v) :: members))
  | .object members key, .closing .curly =>
      some (.after (.object ((key, v) :: members).reverse) stack)
  | _, _ => none

def State.step : State → Token → Option State
  | .value stack, token => startValue stack token
  | .firstItem stack, token =>
      if token = .closing .square then some (.after (.array []) stack)
      else startValue (.array [] :: stack) token
  | .firstKey stack, .closing .curly => some (.after (.object []) stack)
  | .firstKey stack, .string name => some (.colon stack [] name)
  | .key stack members, .string name => some (.colon stack members name)
  | .colon stack members name, .colon => some (.value (.object members name :: stack))
  | .after v (frame :: stack), token => endValue v stack frame token
  | _, _ => none

/-- The value read, if nothing is missing. -/
def State.result? : State → Option Json
  | .after v [] => some v
  | _ => none

/-- Reads a text on from a state, with fewer than `bound` tokens left. -/
def readWithin : Nat → State → List Char → Option Json
  | 0, _, _ => none
  | bound + 1, state, cs =>
      match cs.dropWhile isSpace with
      | [] => state.result?
      | c :: cs =>
          match token? (c :: cs) with
          | none => none
          | some (token, rest) =>
              match state.step token with
              | none => none
              | some state => readWithin bound state rest

/-- The value that a text consists of; each token takes up a character at least. -/
def read? (cs : List Char) : Option Json := readWithin (cs.length + 1) (.value []) cs

end Json
end MockImport
