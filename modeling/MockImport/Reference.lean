import MockImport.Site

/-!
Every reference to the mock function in a module, in traversal order: where it is,
whether it lies at the module root, and how it is used. A reference that belongs to
no call site is judged by the node that encloses it.
-/

namespace MockImport

structure Reference where
  binding : Nat
  span : Span
  atRoot : Bool
  usage : Usage

def Reference.site? (r : Reference) : Option Site :=
  match r.usage with
  | .ok (specifier, pattern) => some ⟨r.binding, specifier, pattern⟩
  | .error _ => none

/-- The span to cite if the reference is badly used. -/
def Reference.fault? (r : Reference) : Option Span :=
  match r.usage with
  | .ok _ => none
  | .error span => some span

/-- What is known of the way from the module root down to a node. -/
structure Context where
  atRoot : Bool
  /-- The innermost enclosing node that an error can cite. -/
  frame : Option Span

namespace Context

def root : Context := ⟨true, none⟩

def within (c : Context) (span : Span) : Context := { c with frame := some span }

/-- Enters a node, which an error can cite if its position gives it a role. -/
def enter (c : Context) (role : Role) (span : Span) : Context :=
  if role = .plain then c else c.within span

/-- Enters a lexical scope. -/
def below (c : Context) : Context := { c with atRoot := false }

def cited (c : Context) (own : Span) : Span := c.frame.getD own

def record (c : Context) (binding : Nat) (span : Span) (usage : Usage) : Reference :=
  ⟨binding, span, c.atRoot, usage⟩

/-- A reference that is not called. -/
def uncalled (c : Context) (binding : Nat) (span : Span) : Reference :=
  c.record binding span (.error (c.cited span))

/-- A call whose result goes nowhere that counts. -/
def unconsumed (c : Context) (call : MockCall) : Reference :=
  c.record call.binding call.span (call.usage (c.cited call.span) none)

end Context

/-- A binding named in an export list is not called. -/
def ExportSpecifier.references (bs : Bindings) (c : Context) :
    ExportSpecifier → List Reference
  | .named span (.ident subject) _ _ =>
      match bs.named? subject.var with
      | some b => [c.record b subject.span (.error span)]
      | none => []
  | _ => []

namespace Tree

mutual

/-- The references below a node. -/
def references (bs : Bindings) (c : Context) : Tree → List Reference
  | .absent | .leaf _ | .context _ | .name _ _ | .string _ => []
  | .items trees => referencesList bs c trees
  | .ident .expr id =>
      match bs.named? id.var with
      | some b => [c.uncalled b id.span]
      | none => []
  | .ident _ _ => []
  | .binding _ typing => references bs c typing
  | .paren .expr span inner =>
      match bs.call? inner with
      | some m => c.unconsumed m :: argReferences bs (c.within m.span) inner
      | none => references bs (c.within span) inner
  | .paren role span inner => references bs (c.enter role span) inner
  | .member .expr span object property =>
      match bs.member? object property with
      | some b => [c.uncalled b span]
      | none =>
          (match bs.call? object with
          | some m =>
              c.record m.binding m.span (m.usage span property.propertyPattern?) ::
                argReferences bs (c.within m.span) object
          | none => references bs (c.within span) object) ++
          references bs (c.within span) property
  | .member role span object property =>
      references bs (c.enter role span) object ++ references bs (c.enter role span) property
  | .call span _ callee args typeArgs =>
      match bs.callee? callee with
      | some b => c.unconsumed ⟨b, span, args⟩ :: referencesList bs (c.within span) args
      | none =>
          references bs (c.within span) callee ++ referencesList bs (c.within span) args ++
            references bs (c.within span) typeArgs
  | .arg _ value => references bs c value
  | .variables role span _ _ _ declarators =>
      referencesList bs (c.enter role span) declarators
  | .declarator span target init _ =>
      match bs.call? init with
      | some m =>
          c.record m.binding m.span (m.usage span target.targetPattern?) ::
            (references bs (c.within span) target ++
              argReferences bs (c.within m.span) init)
      | none => references bs (c.within span) target ++ references bs (c.within span) init
  | .objectPattern _ properties _ typing =>
      referencesList bs c properties ++ references bs c typing
  | .patternShorthand _ _ typing value => references bs c typing ++ references bs c value
  | .patternPair key value => references bs c key ++ references bs c value
  | .shorthand id =>
      match bs.named? id.var with
      | some b => [c.record b id.span (.error id.span)]
      | none => []
  | .pair key value =>
      let span := key.span.cover value.span
      references bs (c.within span) key ++ references bs (c.within span) value
  | .getter span key _ body =>
      references bs (c.within span) key ++ references bs (c.within span).below body
  | .importDecl span _ _ _ attributes _ => references bs (c.within span) attributes
  | .exportNamed _ specifiers source _ _ =>
      if source.isSome then [] else specifiers.flatMap (ExportSpecifier.references bs c)
  | .exportDecl span declaration => references bs (c.within span) declaration
  | .scope role _ span outer inner =>
      referencesList bs (c.enter role span) outer ++
        referencesList bs (c.enter role span).below inner
  | .moduleBlock _ body => referencesList bs c.below body
  | .node role _ span fields => referencesList bs (c.enter role span) fields

def referencesList (bs : Bindings) (c : Context) : List Tree → List Reference
  | [] => []
  | t :: rest => references bs c t ++ referencesList bs c rest

/-- The references in the arguments of the call that a parenthesised call is. -/
def argReferences (bs : Bindings) (c : Context) : Tree → List Reference
  | .paren _ _ inner => argReferences bs c inner
  | .call _ _ _ args _ => referencesList bs c args
  | _ => []

end

end Tree

/-- The references of a module, in traversal order. -/
def Module.references (m : Module) (bs : Bindings) : List Reference :=
  Tree.referencesList bs .root m.body

end MockImport
