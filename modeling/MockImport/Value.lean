/-!
Values of the interchange format in which syntax trees arrive and leave: nulls,
flags, counts, decimals, texts, lists and records. A decimal is never computed with
and stays as it is written, so that `5.0` and `5`, or `0.0` and `-0.0`, are two.
-/

namespace MockImport

inductive Value where
  | null
  | bool (flag : Bool)
  | nat (n : Nat)
  | decimal (written : String)
  | text (string : String)
  | array (values : List Value)
  | object (members : List (String × Value))
  deriving Inhabited

namespace Value

def toNat? : Value → Option Nat
  | .nat n => some n
  | _ => none

def toBool? : Value → Option Bool
  | .bool b => some b
  | _ => none

def toText? : Value → Option String
  | .text s => some s
  | _ => none

def toList? : Value → Option (List Value)
  | .array vs => some vs
  | _ => none

/-- The member of a record, if the value is one and has it. -/
def get? : Value → String → Option Value
  | .object members, name => members.lookup name
  | _, _ => none

/-- A record that lacks a member and one that holds null there say the same. -/
def getOrNull (v : Value) (name : String) : Value := (v.get? name).getD .null

def ofOption (write : α → Value) : Option α → Value
  | none => .null
  | some a => write a

/-- Reads null as `none` and anything else through `read`. -/
def optional? (read : Value → Option α) : Value → Option (Option α)
  | .null => some none
  | v => (read v).map some

/-- A decimal without exponent always shows at least one place. -/
def asDecimal : Value → Value
  | .nat n => .decimal (n.repr ++ ".0")
  | .decimal written =>
      .decimal (if written.toList.any (".eE".toList.contains ·) then written else written ++ ".0")
  | v => v

end Value
end MockImport
