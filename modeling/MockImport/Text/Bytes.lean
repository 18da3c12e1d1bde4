/-!
Cutting a text at byte positions of its UTF-8 form. A cut in the middle of a
character, or beyond the end, does not exist.
-/

namespace MockImport.Text

/-- The length of a text in UTF-8 bytes. -/
def byteLength : List Char → Nat
  | [] => 0
  | c :: cs => c.utf8Size + byteLength cs

/-- The first `n` bytes of a text. -/
def takeBytes (n : Nat) : List Char → Option (List Char)
  | [] => if n = 0 then some [] else none
  | c :: cs =>
      if n = 0 then some []
      else if c.utf8Size ≤ n then (takeBytes (n - c.utf8Size) cs).map (c :: ·)
      else none

/-- What is left of a text after its first `n` bytes. -/
def dropBytes (n : Nat) : List Char → Option (List Char)
  | [] => if n = 0 then some [] else none
  | c :: cs =>
      if n = 0 then some (c :: cs)
      else if c.utf8Size ≤ n then dropBytes (n - c.utf8Size) cs
      else none

/-- A text without the byte order mark it may start with. -/
def withoutMark : List Char → List Char
  | '\uFEFF' :: cs => cs
  | cs => cs

theorem takeBytes_byteLength (a b : List Char) :
    takeBytes (byteLength a) (a ++ b) = some a := by
  induction a with
  | nil => cases b <;> simp [byteLength, takeBytes]
  | cons c cs ih =>
      have hc : c.utf8Size ≠ 0 := Nat.ne_of_gt c.utf8Size_pos
      simp [byteLength, takeBytes, ih, hc]

theorem dropBytes_byteLength (a b : List Char) :
    dropBytes (byteLength a) (a ++ b) = some b := by
  induction a with
  | nil => cases b <;> simp [byteLength, dropBytes]
  | cons c cs ih =>
      have hc : c.utf8Size ≠ 0 := Nat.ne_of_gt c.utf8Size_pos
      simp [byteLength, dropBytes, ih, hc]

end MockImport.Text
