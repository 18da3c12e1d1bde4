import MockImport.Json.Basic
import MockImport.Value

/-!
Values of the interchange format as JSON text. What is written is plain ASCII: other
characters become escapes.
-/

namespace MockImport.Value

/-! ### Reading -/

/-- A number without sign, point and exponent is a count. -/
def ofNumber (written : List Char) : Value :=
  if written.all Json.isDigit then
    .nat (written.foldl (fun n c => n * 10 + (c.toNat - '0'.toNat)) 0)
  else .decimal (String.ofList written)

mutual

/-- The value that JSON stands for, if all its strings stand for texts. -/
def ofJson? : Json → Option Value
  | .null => some .null
  | .bool flag => some (.bool flag)
  | .number written => some (ofNumber written)
  | .string pieces => (Json.decode? pieces).map fun cs => .text (String.ofList cs)
  | .array items => (listOfJson? items).map .array
  | .object members => (membersOfJson? members).map .object

def listOfJson? : List Json → Option (List Value)
  | [] => some []
  | v :: rest => do return (← ofJson? v) :: (← listOfJson? rest)

def membersOfJson? : List (List Json.Piece × Json) → Option (List (String × Value))
  | [] => some []
  | (key, v) :: rest => do
      let key := String.ofList (← Json.decode? key)
      return (key, ← ofJson? v) :: (← membersOfJson? rest)

end

def ofText? (text : String) : Option Value := (Json.read? text.toList).bind ofJson?

/-! ### Writing -/

def hexDigit (n : Nat) : Char :=
  if n < 10 then .ofNat ('0'.toNat + n) else .ofNat ('a'.toNat + n - 10)

/-- A code unit as an escape. -/
def unitEscape (code : Nat) : List Char :=
  ['\\', 'u', hexDigit (code / 0x1000 % 16), hexDigit (code / 0x100 % 16),
    hexDigit (code / 0x10 % 16), hexDigit (code % 16)]

/-- A character of a string, beyond the first plane as two code units. -/
def quotedChar (c : Char) : List Char :=
  let n := c.toNat
  if c = '"' || c = '\\' then ['\\', c]
  else if 0x20 ≤ n && n < 0x7F then [c]
  else if n < 0x10000 then unitEscape n
  else unitEscape (0xD800 + (n - 0x10000) / 0x400) ++ unitEscape (0xDC00 + (n - 0x10000) % 0x400)

/-- Appends a string in quotes. -/
def quoteOnto (out : String) (s : String) : String :=
  s.toList.foldl (fun out c => (quotedChar c).foldl String.push out) (out.push '"') |>.push '"'

mutual

/-- Appends the text of a value. -/
def renderOnto (out : String) : Value → String
  | .null => out ++ "null"
  | .bool true => out ++ "true"
  | .bool false => out ++ "false"
  | .nat n => out ++ n.repr
  | .decimal written => out ++ written
  | .text s => quoteOnto out s
  | .array [] => out ++ "[]"
  | .array (v :: rest) => (renderRest (renderOnto (out.push '[') v) rest).push ']'
  | .object [] => out ++ "\x7b\x7d"
  | .object ((name, v) :: rest) =>
      (renderMembers (renderOnto ((quoteOnto (out.push '\x7b') name).push ':') v) rest).push
        '\x7d'

/-- Appends further list items. -/
def renderRest (out : String) : List Value → String
  | [] => out
  | v :: rest => renderRest (renderOnto (out.push ',') v) rest

/-- Appends further members. -/
def renderMembers (out : String) : List (String × Value) → String
  | [] => out
  | (name, v) :: rest =>
      renderMembers (renderOnto ((quoteOnto (out.push ',') name).push ':') v) rest

end

def render : Value → String := renderOnto ""

end MockImport.Value
