import MockImport.Json.Basic
import MockImport.Text.Blank

/-!
What a user can set about an expansion, and the JSON text that sets it. Text that
says nothing sensible sets nothing.
-/

namespace MockImport

structure Options where
  /-- Leaves out the registrations, for test runners that make them themselves. -/
  skipRegistration : Bool := false
  deriving DecidableEq

namespace Options

def skipKey : List Char := "skipRegistration".toList

/-- Options as an object, whose other members do not matter, or as a list of values
in order. -/
def ofJson? : Json → Option Options
  | .object members => do
      let keys ← members.mapM fun (key, _) => Json.decode? key
      let values : List Json := (keys.zip members).filterMap fun (key, _, value) =>
        if key = skipKey then some value else none
      match values with
      | [] => some {}
      | [.bool flag] => some ⟨flag⟩
      | _ => none
  | .array [] => some {}
  | .array [.bool flag] => some ⟨flag⟩
  | _ => none

/-- The options that a text sets, if there is one. -/
def ofText (text : Option String) : Options :=
  match text with
  | none => {}
  | some text => ((Json.read? (Text.trim text.toList)).bind ofJson?).getD {}

end Options
end MockImport
