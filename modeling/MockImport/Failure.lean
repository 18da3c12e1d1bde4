import MockImport.Tree.Basic
import MockImport.Text.Bytes

/-!
The two ways in which a module can misuse the mock function, and the source text
that an error message quotes.
-/

namespace MockImport

/-- Source positions from here on are reserved and stand for no text. -/
def reservedFrom : Nat := 4294901759

/-- The span stands for no source text. -/
def Span.isDummy (s : Span) : Bool := s = .generated || reservedFrom ≤ s.start

/-- The source text under a span, as far as there is any. -/
def snippet? (source : Option String) (span : Span) : Option String := do
  let text ← source
  if span.isDummy || span.start = 0 || span.stop < span.start then none
  let rest ← Text.dropBytes (span.start - 1) (Text.withoutMark text.toList)
  let cited ← Text.takeBytes (span.stop - span.start) rest
  return String.ofList cited

inductive Failure where
  /-- A reference below the module root. -/
  | scopeViolation (span : Span)
  /-- A reference that is not used in one of the accepted ways. -/
  | malformedUsage (span : Span) (snippet : String)
  deriving DecidableEq

namespace Failure

/-- A malformed usage quotes the text of the node at fault. -/
def malformed (source : Option String) (span : Span) : Failure :=
  .malformedUsage span ((snippet? source span).getD "<unknown source>")

def span : Failure → Span
  | .scopeViolation span => span
  | .malformedUsage span _ => span

def message : Failure → String
  | .scopeViolation _ => "Can only use `mock` at the top-level scope."
  | .malformedUsage _ snippet =>
      "\n`mock` must be used like:\n\nconst \x7b foo \x7d = mock(import('moduleName'))\n\n" ++
        "Instead saw:\n\n" ++ snippet ++ "\n\n"

end Failure
end MockImport
