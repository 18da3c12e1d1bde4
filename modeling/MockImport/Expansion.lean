import MockImport.GeneratedImport
import MockImport.Options
import MockImport.Plan
import MockImport.Renaming
import MockImport.Settling

/-!
Carrying out a plan. Processing the sites in their order yields the generated
imports, an action for every site, the renaming of the aliases and the modules to
register; the module is then put together, its sites settled and its aliases renamed.
-/

namespace MockImport

/-- The object that mocked modules are registered with. -/
def registrar : String := "jest"

/-- The method that registers a mocked module. -/
def registerName : String := "mock"

/-- The statement `jest.mock("specifier")`. -/
def registration (specifier : String) : Tree :=
  let callee := Tree.member .expr .generated (.ident .expr (.generated ⟨registrar, 0⟩))
    (.name .generated registerName)
  .node .stmt .expressionStatement .generated
    [.call .generated 0 callee [.arg none (.string (.generated specifier))] .absent]

/-- Module items up to and including the last import, and the rest. -/
def splitAtImports : List Tree → List Tree × List Tree
  | [] => ([], [])
  | t :: rest =>
      let (upTo, after) := splitAtImports rest
      if t.isImport || !upTo.isEmpty then (t :: upTo, after) else ([], t :: after)

/-- What has come of the sites processed so far. -/
structure Progress where
  imports : Imports
  /-- Newest first. -/
  renames : Renaming := []
  /-- One entry per site, empty until the site is processed. -/
  actions : List (Option SiteAction)
  /-- Registered modules, newest first. -/
  registered : List String := []

namespace Progress

def start (plan : Plan) : Progress :=
  { imports := ⟨plan.bindings.rootCtxt, plan.taken, []⟩
    actions := plan.sites.map fun _ => none }

/-- Imports one property of a destructured module and renames its alias. -/
def importPair (specifier : String) (p : Progress) (pair : String × Variable) : Progress :=
  let (v, imports) := p.imports.addNamed pair.1 specifier pair.2.name
  { p with imports := imports, renames := (pair.2, v) :: p.renames }

/-- The imports and the action for a site with the given pattern. -/
def consume (p : Progress) (specifier : String) : Pattern → Progress × SiteAction
  | .destructure pairs => (pairs.foldl (importPair specifier) p, .remove)
  | .alias v =>
      let (new, imports) := p.imports.addStar specifier
      ({ p with imports := imports, renames := (v, new) :: p.renames }, .remove)
  | .member property =>
      let (v, imports) := p.imports.addNamed property specifier property
      ({ p with imports := imports }, .replace v)

/-- Registers a module, if there is an import that the registration can follow. -/
def register (p : Progress) (hasImport : Bool) (specifier : String) : Progress :=
  if hasImport || !p.imports.generated.isEmpty then
    { p with registered := specifier :: p.registered }
  else p

/-- Processes the site at a position. -/
def step (options : Options) (hasImport : Bool) (sites : List Site) (p : Progress)
    (i : Nat) : Progress :=
  match sites[i]? with
  | none => p
  | some site =>
      let (p, action) := p.consume site.specifier site.pattern
      let p := { p with actions := p.actions.set i (some action) }
      if options.skipRegistration then p else p.register hasImport site.specifier

/-- The module items with the generated imports on top and the registrations right
after the last import. -/
def assemble (p : Progress) (body : List Tree) : List Tree :=
  let (upTo, after) := splitAtImports body
  p.imports.declarations ++ upTo ++ p.registered.map registration ++ after

end Progress

/-- What processing all sites of a plan comes to. -/
def Plan.process (plan : Plan) (options : Options) (hasImport : Bool) : Progress :=
  plan.order.foldl (Progress.step options hasImport plan.sites) (.start plan)

/-- Carries out a plan. -/
def Module.apply (m : Module) (plan : Plan) (options : Options) : Module :=
  let p := plan.process options (m.body.any Tree.isImport)
  let settled := Tree.settleItems plan.bindings (p.assemble m.body)
  { m with body := Tree.renameList p.renames (settled.run (p.actions.filterMap id)).1 }

/-- Expands every call site of a module, and counts them. -/
def Module.expand (m : Module) (source : Option String) (options : Options) :
    Except Failure (Nat × Module) := do
  let plan ← Plan.ofModule m source
  if plan.sites.isEmpty then return (0, m)
  else return (plan.sites.length, m.apply plan options)

/-- Expands a program. A script cannot import anything and stays as it is. -/
def Program.expand (program : Program) (source : Option String) (options : Options) :
    Except Failure (Nat × Program) :=
  match program with
  | .module m => (m.expand source options).map fun (count, m) => (count, .module m)
  | .script s => .ok (0, .script s)

end MockImport
