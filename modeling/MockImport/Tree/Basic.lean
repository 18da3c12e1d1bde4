import MockImport.Value
import MockImport.Tree.Kind

/-!
Resolved syntax trees of module code. A node that the expansion has to recognise
has a constructor of its own; every other node is a `node` with its fields in
grammar order, or a `scope` when it opens a lexical scope. Identifiers carry the
syntax context that the resolver gave them.
-/

namespace MockImport

/-- A stretch of the source text: positions count bytes from one, `stop` is
exclusive. -/
structure Span where
  start : Nat
  stop : Nat
  deriving DecidableEq, Inhabited

/-- The span of generated nodes, which stand nowhere in the source. -/
def Span.generated : Span := ⟨0, 0⟩

/-- From the start of one span to the end of another, whichever comes first. -/
def Span.cover (a b : Span) : Span :=
  if a.start ≤ b.stop then ⟨a.start, b.stop⟩ else ⟨b.stop, a.start⟩

/-- What an identifier stands for: a name in the syntax context that binds it. -/
structure Variable where
  name : String
  ctxt : Nat
  deriving DecidableEq, Inhabited

/-- One occurrence of a variable, or of a label or other name kept like one. -/
structure Ident where
  span : Span
  var : Variable
  optional : Bool
  deriving DecidableEq, Inhabited

/-- An occurrence that no source text stands behind. -/
def Ident.generated (v : Variable) : Ident := ⟨.generated, v, false⟩

structure StringLiteral where
  span : Span
  value : String
  raw : Option String
  deriving DecidableEq

def StringLiteral.generated (value : String) : StringLiteral := ⟨.generated, value, none⟩

/-- The name under which a module exports something. -/
inductive ExportName where
  | ident (id : Ident)
  | string (literal : StringLiteral)
  deriving DecidableEq

def ExportName.text : ExportName → String
  | .ident id => id.var.name
  | .string literal => literal.value

inductive ImportSpecifier where
  | named (span : Span) (binding : Ident) (imported : Option ExportName) (typeOnly : Bool)
  | default (span : Span) (binding : Ident)
  | star (span : Span) (binding : Ident)
  deriving DecidableEq

inductive ExportSpecifier where
  | named (span : Span) (subject : ExportName) (exported : Option ExportName) (typeOnly : Bool)
  | default (exported : Ident)
  | star (span : Span) (name : ExportName)
  deriving DecidableEq

/-- A syntax tree, or a part of one that stands in a field of a node. -/
inductive Tree where
  /-- An optional field left out. -/
  | absent
  /-- A field that is no syntax: a flag, an operator, a text. -/
  | leaf (value : Value)
  /-- The syntax context that a node carries besides its identifiers. -/
  | context (ctxt : Nat)
  /-- A field that holds a list. -/
  | items (trees : List Tree)
  /-- An identifier; a use of a variable if its role is `expr`. -/
  | ident (role : Role) (id : Ident)
  /-- An identifier as a pattern, with its type if one is written. -/
  | binding (id : Ident) (typing : Tree)
  /-- The name of a property, which stands for no variable. -/
  | name (span : Span) (text : String)
  | string (literal : StringLiteral)
  | paren (role : Role) (span : Span) (inner : Tree)
  | member (role : Role) (span : Span) (object property : Tree)
  | call (span : Span) (ctxt : Nat) (callee : Tree) (args : List Tree) (typeArgs : Tree)
  | arg (spread : Option Span) (value : Tree)
  | variables (role : Role) (span : Span) (ctxt : Nat) (kind : String) (declare : Bool)
      (declarators : List Tree)
  | declarator (span : Span) (target init : Tree) (definite : Bool)
  | objectPattern (span : Span) (properties : List Tree) (optional : Bool) (typing : Tree)
  /-- A pattern property `key = value` that binds the key's own name. -/
  | patternShorthand (span : Span) (key : Ident) (typing : Tree) (value : Tree)
  | patternPair (key value : Tree)
  /-- An object property that is a variable and takes its name. -/
  | shorthand (id : Ident)
  | pair (key value : Tree)
  | getter (span : Span) (key typing body : Tree)
  | importDecl (span : Span) (specifiers : List ImportSpecifier) (source : StringLiteral)
      (typeOnly : Bool) (attributes : Tree) (phase : String)
  | exportNamed (span : Span) (specifiers : List ExportSpecifier)
      (source : Option StringLiteral) (typeOnly : Bool) (attributes : Tree)
  | exportDecl (span : Span) (declaration : Tree)
  /-- A node that opens a scope: `outer` belongs to the enclosing scope still. -/
  | scope (role : Role) (kind : ScopeKind) (span : Span) (outer inner : List Tree)
  /-- The body of a namespace: a scope that holds module items. -/
  | moduleBlock (span : Span) (body : List Tree)
  | node (role : Role) (kind : Kind) (span : Span) (fields : List Tree)
  deriving Inhabited

/-- The span of a node; fields that are no nodes have none. -/
def Tree.span : Tree → Span
  | .absent | .leaf _ | .context _ | .items _ => .generated
  | .ident _ id | .binding id _ | .shorthand id => id.span
  | .string literal => literal.span
  | .arg _ value => value.span
  | .patternPair key value | .pair key value => key.span.cover value.span
  | .name span _ | .paren _ span _ | .member _ span _ _ | .call span _ _ _ _
  | .variables _ span _ _ _ _ | .declarator span _ _ _ | .objectPattern span _ _ _
  | .patternShorthand span _ _ _ | .getter span _ _ _ | .importDecl span _ _ _ _ _
  | .exportNamed span _ _ _ _ | .exportDecl span _ | .scope _ _ span _ _
  | .moduleBlock span _ | .node _ _ span _ => span

structure Module where
  span : Span
  body : List Tree
  interpreter : Option String

structure Script where
  span : Span
  body : List Tree
  interpreter : Option String

inductive Program where
  | module (m : Module)
  | script (s : Script)

/-- The declaration is an import. -/
def Tree.isImport : Tree → Bool
  | .importDecl .. => true
  | _ => false

end MockImport
