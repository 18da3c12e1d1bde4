import MockImport.Text.Word
import MockImport.Text.Uppercase

/-!
Names for generated imports. A hint is cut down to a stem that can stand in an
identifier, and the stem is numbered until the name is free.
-/

namespace MockImport

namespace Stem

def isAsciiDigit (c : Char) : Bool := '0' ≤ c && c ≤ '9'

/-- A character that an identifier cannot hold becomes a separator. -/
def separate (c : Char) : Char := if Text.isWord c || c = '$' then c else '-'

/-- Drops separators, and puts what follows one in upper case. -/
def camelCase (afterSeparator : Bool) : List Char → List Char
  | [] => []
  | c :: cs =>
      if c = '-' then camelCase true cs
      else if afterSeparator then Text.uppercase c ++ camelCase false cs
      else c :: camelCase false cs

def dropTrailingDigits (cs : List Char) : List Char :=
  (cs.reverse.dropWhile isAsciiDigit).reverse

/-- The stem of a hint: no leading separator or digit is left, then no separator at
all, then no leading underscore, then no trailing digit. -/
def ofHint (hint : List Char) : List Char :=
  let separated := (hint.map separate).dropWhile fun c => c = '-' || isAsciiDigit c
  dropTrailingDigits ((camelCase false separated).dropWhile (· = '_'))

end Stem

/-- The names a stem can give: `_stem`, then `_stem2`, `_stem3` and so on. -/
def candidateName (stem : List Char) (k : Nat) : String :=
  String.ofList ('_' :: stem) ++ if k ≤ 1 then "" else k.repr

/-- The first free candidate from the `k`th on, of `bound` many. -/
def searchName (taken : List String) (stem : List Char) : Nat → Nat → String
  | 0, k => candidateName stem k
  | bound + 1, k =>
      if candidateName stem k ∈ taken then searchName taken stem bound (k + 1)
      else candidateName stem k

/-- The first free name for a hint; one of the first `taken.length + 1` is free. -/
def freshName (taken : List String) (hint : String) : String :=
  searchName taken (Stem.ofHint hint.toList) taken.length 1

end MockImport
