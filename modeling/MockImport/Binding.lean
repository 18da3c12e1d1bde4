import MockImport.Tree.Basic

/-!
The names by which a module reaches the mock function, and the calls made through
them: by its own name after `import { mock }`, or as a member of the whole module
after `import * as M`. Parentheses carry no meaning anywhere in such a call.
-/

namespace MockImport

/-- The module that provides the mock function. -/
def mockModule : String := "@userlike/joke"

/-- The name under which the mock function is exported. -/
def mockName : String := "mock"

inductive BindingKind where
  | named
  | star
  deriving DecidableEq

structure Binding where
  var : Variable
  kind : BindingKind
  deriving DecidableEq

/-- All bindings of a module; a binding is referred to by its position. -/
abbrev Bindings := List Binding

/-- The specifiers that a module item imports from the mock module at run time. -/
def Tree.mockSpecifiers : Tree → List ImportSpecifier
  | .importDecl _ specifiers source typeOnly _ _ =>
      if !typeOnly && source.value = mockModule then specifiers else []
  | _ => []

def ImportSpecifier.namedBinding? : ImportSpecifier → Option Binding
  | .named _ binding imported typeOnly =>
      let importedName := match imported with
        | some exported => exported.text
        | none => binding.var.name
      if !typeOnly && importedName = mockName then some ⟨binding.var, .named⟩ else none
  | _ => none

def ImportSpecifier.starBinding? : ImportSpecifier → Option Binding
  | .star _ binding => some ⟨binding.var, .star⟩
  | _ => none

namespace Bindings

/-- The bindings of a module: named ones first, each group in source order. -/
def discover (body : List Tree) : Bindings :=
  let specifiers := body.flatMap Tree.mockSpecifiers
  specifiers.filterMap ImportSpecifier.namedBinding? ++
    specifiers.filterMap ImportSpecifier.starBinding?

/-- The syntax context of the module root, where every binding lives. -/
def rootCtxt : Bindings → Nat
  | [] => 0
  | b :: _ => b.var.ctxt

def named? (bs : Bindings) (v : Variable) : Option Nat :=
  bs.findIdx? (· = ⟨v, .named⟩)

/-- The binding behind a member expression with the given object and property. -/
def member? (bs : Bindings) : Tree → Tree → Option Nat
  | .ident .expr id, .name _ property =>
      if property = mockName then bs.findIdx? (· = ⟨id.var, .star⟩) else none
  | _, _ => none

/-- The binding that an expression refers to. -/
def reference? (bs : Bindings) : Tree → Option Nat
  | .ident .expr id => bs.named? id.var
  | .member .expr _ object property => bs.member? object property
  | _ => none

/-- The binding that a callee refers to. -/
def callee? (bs : Bindings) : Tree → Option Nat
  | .paren _ _ inner => bs.callee? inner
  | t => bs.reference? t

end Bindings

/-- A call of the mock function. -/
structure MockCall where
  binding : Nat
  span : Span
  args : List Tree

/-- The mock call that an expression is. -/
def Bindings.call? (bs : Bindings) : Tree → Option MockCall
  | .paren _ _ inner => bs.call? inner
  | .call span _ callee args _ => (bs.callee? callee).map fun b => ⟨b, span, args⟩
  | _ => none

/-- The module that an expression `import("m")` names. -/
def Tree.dynamicImport? : Tree → Option String
  | .paren _ _ inner => inner.dynamicImport?
  | .call _ _ (.node _ .importKeyword _ _) [.arg none (.string literal)] _ =>
      some literal.value
  | _ => none

/-- The module that a mock call names by its only argument. -/
def MockCall.specifier? (call : MockCall) : Option String :=
  match call.args with
  | [.arg none t] => t.dynamicImport?
  | _ => none

end MockImport
