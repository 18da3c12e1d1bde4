import MockImport.Reference
import MockImport.Failure
import MockImport.Tree.Names

/-!
The plan of an expansion: the call sites in source order, the order in which they
are processed, and the names that generated identifiers must avoid. A module with
a misused reference has no plan.
-/

namespace MockImport

structure Plan where
  bindings : Bindings
  sites : List Site
  /-- Positions in `sites`, by binding and then in source order. -/
  order : List Nat
  taken : List String

namespace Plan

def empty : Plan := ⟨[], [], [], []⟩

/-- The positions of references grouped by binding, each group in source order. -/
def processingOrder (bindings : Bindings) (refs : List Reference) : List Nat :=
  (List.range bindings.length).flatMap fun b =>
    (List.range refs.length).filter fun i => (refs[i]?.map (·.binding)) = some b

/-- A reference below the root is at fault before any other; of badly used ones, the
first in processing order. -/
def failure? (source : Option String) (refs : List Reference) (order : List Nat) :
    Option Failure :=
  match refs.find? (!·.atRoot) with
  | some r => some (.scopeViolation r.span)
  | none =>
      (order.findSome? fun i => refs[i]?.bind Reference.fault?).map (Failure.malformed source)

/-- The plan of a module, whose source text serves to quote what is at fault. -/
def ofModule (m : Module) (source : Option String) : Except Failure Plan :=
  let bindings := Bindings.discover m.body
  if bindings.isEmpty then .ok empty
  else
    let refs := m.references bindings
    let order := processingOrder bindings refs
    match failure? source refs order with
    | some failure => .error failure
    | none =>
        let sites := refs.filterMap Reference.site?
        .ok ⟨bindings, sites, order, if sites.isEmpty then [] else m.names⟩

end Plan
end MockImport
