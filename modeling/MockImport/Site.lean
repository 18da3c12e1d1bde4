import MockImport.Binding

/-!
Call sites: mock calls whose result is taken up in one of the three accepted ways.
A call that is taken up otherwise is judged by the span to cite instead.
-/

namespace MockImport

/-- How the result of a mock call is taken up. -/
inductive Pattern where
  /-- `const { foo, bar: baz } = mock(import("m"))`: property and alias of each pair. -/
  | destructure (pairs : List (String × Variable))
  /-- `const M = mock(import("m"))` -/
  | alias (v : Variable)
  /-- `mock(import("m")).foo` -/
  | member (property : String)
  deriving DecidableEq

structure Site where
  binding : Nat
  specifier : String
  pattern : Pattern
  deriving DecidableEq

/-- A property that takes a value out unchanged and binds it to one identifier. -/
def Tree.destructuredPair? : Tree → Option (String × Variable)
  | .patternShorthand _ key _ .absent => some (key.var.name, key.var)
  | .patternPair (.name _ property) (.binding id _) => some (property, id.var)
  | _ => none

/-- The pattern that a declarator's target amounts to. -/
def Tree.targetPattern? : Tree → Option Pattern
  | .binding id _ => some (.alias id.var)
  | .objectPattern _ properties _ _ =>
      (properties.mapM Tree.destructuredPair?).map .destructure
  | _ => none

/-- The pattern that a member access with the given property amounts to. -/
def Tree.propertyPattern? : Tree → Option Pattern
  | .name _ property => some (.member property)
  | _ => none

/-- The module named and the pattern, or the span of the node at fault. -/
abbrev Usage := Except Span (String × Pattern)

/-- A call must name a module; what takes its result up must amount to a pattern. -/
def MockCall.usage (call : MockCall) (consumer : Span) (pattern : Option Pattern) : Usage :=
  match call.specifier?, pattern with
  | none, _ => .error call.span
  | some _, none => .error consumer
  | some specifier, some pattern => .ok (specifier, pattern)

end MockImport
