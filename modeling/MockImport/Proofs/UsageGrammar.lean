import MockImport.Plan

/-!
The grammar of accepted uses of the mock function, said of the places where it is
mentioned. The way to a node lists the nodes around it, so what encloses a mention can be
read off without any traversal of the module.
-/

namespace MockImport

/-- Where a part stands in the node that holds it. -/
inductive Place where
  | callee
  | init
  | object
  | enclosed
  /-- Within the scope that the node opens. -/
  | scoped
  | other
  deriving DecidableEq

/-- A node on the way to another, and where it is left. -/
structure Step where
  parent : Tree
  place : Place

/-- The nodes around a node, innermost first. -/
abbrev Way := List Step

namespace Tree

/-- The parts of a node. -/
def parts : Tree → List (Place × Tree)
  | .absent | .leaf _ | .context _ | .ident _ _ | .name _ _ | .string _ | .shorthand _ => []
  | .items trees => trees.map (.other, ·)
  | .binding _ typing => [(.other, typing)]
  | .paren _ _ inner => [(.enclosed, inner)]
  | .member _ _ object property => [(.object, object), (.other, property)]
  | .call _ _ callee args typeArgs =>
      (.callee, callee) :: (args.map (.other, ·) ++ [(.other, typeArgs)])
  | .arg _ value => [(.other, value)]
  | .variables _ _ _ _ _ declarators => declarators.map (.other, ·)
  | .declarator _ target init _ => [(.other, target), (.init, init)]
  | .objectPattern _ properties _ typing => properties.map (.other, ·) ++ [(.other, typing)]
  | .patternShorthand _ _ typing value => [(.other, typing), (.other, value)]
  | .patternPair key value | .pair key value => [(.other, key), (.other, value)]
  | .getter _ key typing body => [(.other, key), (.other, typing), (.scoped, body)]
  | .importDecl _ _ _ _ attributes _ => [(.other, attributes)]
  | .exportNamed _ _ _ _ attributes => [(.other, attributes)]
  | .exportDecl _ declaration => [(.other, declaration)]
  | .scope _ _ _ outer inner => outer.map (.other, ·) ++ inner.map (.scoped, ·)
  | .moduleBlock _ body => body.map (.scoped, ·)
  | .node _ _ _ fields => fields.map (.other, ·)

/-- A tree that stands somewhere holds itself and, further on the way, its parts. -/
inductive Holds (root : Tree) (above : Way) : Way → Tree → Prop where
  | here : Holds root above above root
  | part {way : Way} {t u : Tree} {place : Place} (holds : Holds root above way t)
      (mem : (place, u) ∈ t.parts) : Holds root above (⟨t, place⟩ :: way) u

def isAbsent : Tree → Bool
  | .absent => true
  | _ => false

def isLeaf : Tree → Bool
  | .leaf _ => true
  | _ => false

mutual

/-- Plain JavaScript, as far as the mock function can tell: no types, no type arguments,
no attributes. Declarators stand in variable declarations only, where `declared` is set,
and the import keyword holds no syntax. -/
def isPlain (declared : Bool) : Tree → Bool
  | .absent | .leaf _ | .context _ | .ident _ _ | .name _ _ | .string _ | .shorthand _ => true
  | .items trees => arePlain false trees
  | .binding _ typing => typing.isAbsent
  | .paren _ _ inner => isPlain false inner
  | .member _ _ object property => isPlain false object && isPlain false property
  | .call _ _ callee args typeArgs =>
      isPlain false callee && arePlain false args && typeArgs.isAbsent
  | .arg _ value => isPlain false value
  | .variables _ _ _ _ _ declarators => arePlain true declarators
  | .declarator _ target init _ => declared && isPlain false target && isPlain false init
  | .objectPattern _ properties _ typing => arePlain false properties && typing.isAbsent
  | .patternShorthand _ _ typing value => typing.isAbsent && isPlain false value
  | .patternPair key value | .pair key value => isPlain false key && isPlain false value
  | .getter _ key typing body => isPlain false key && typing.isAbsent && isPlain false body
  | .importDecl _ _ _ _ attributes _ => attributes.isAbsent
  | .exportNamed _ _ _ _ attributes => attributes.isAbsent
  | .exportDecl _ declaration => isPlain false declaration
  | .scope _ _ _ outer inner => arePlain false outer && arePlain false inner
  | .moduleBlock _ body => arePlain false body
  | .node _ kind _ fields =>
      arePlain false fields && (kind ≠ .importKeyword || fields.all isLeaf)

def arePlain (declared : Bool) : List Tree → Bool
  | [] => true
  | t :: rest => isPlain declared t && arePlain declared rest

end

theorem arePlain_iff {declared : Bool} {ts : List Tree} :
    arePlain declared ts = true ↔ ∀ t ∈ ts, t.isPlain declared = true := by
  induction ts with
  | nil => exact iff_of_true rfl (List.forall_mem_nil _)
  | cons t rest ih => rw [arePlain, Bool.and_eq_true, ih, List.forall_mem_cons]

/-- The second tree is the first, up to parentheses around it. -/
inductive InParens (t : Tree) : Tree → Prop where
  | bare : InParens t t
  | paren {role : Role} {span : Span} {inner : Tree} (inside : InParens t inner) :
      InParens t (.paren role span inner)

/-- An expression `import("specifier")`, up to parentheses. -/
def ImportsModule (t : Tree) : Prop :=
  ∃ span ctxt role keyword fields literal typeArgs,
    InParens (.call span ctxt (.node role .importKeyword keyword fields)
      [.arg none (.string literal)] typeArgs) t

/-- A pattern property `{ a }` or `{ a: b }`. -/
inductive PlainProperty : Tree → Prop where
  | shorthand (span : Span) (key : Ident) (typing : Tree) :
      PlainProperty (.patternShorthand span key typing .absent)
  | pair (span : Span) (property : String) (id : Ident) (typing : Tree) :
      PlainProperty (.patternPair (.name span property) (.binding id typing))

/-- An identifier, or an object pattern of plain properties. -/
inductive PlainTarget : Tree → Prop where
  | ident (id : Ident) (typing : Tree) : PlainTarget (.binding id typing)
  | object (span : Span) (properties : List Tree) (optional : Bool) (typing : Tree)
      (plain : ∀ p ∈ properties, PlainProperty p) :
      PlainTarget (.objectPattern span properties optional typing)

/-- The node is an expression that mentions the mock function. -/
inductive Refers (bs : Bindings) : Tree → Prop where
  | ident (id : Ident) (bound : ⟨id.var, .named⟩ ∈ bs) : Refers bs (.ident .expr id)
  | member (span nameSpan : Span) (id : Ident) (bound : ⟨id.var, .star⟩ ∈ bs) :
      Refers bs (.member .expr span (.ident .expr id) (.name nameSpan mockName))

/-- The node mentions the mock function without being an expression: a property written
as one identifier, or an export list of the module itself. -/
inductive Mentions (bs : Bindings) : Tree → Prop where
  | shorthand (id : Ident) (bound : ⟨id.var, .named⟩ ∈ bs) : Mentions bs (.shorthand id)
  | exported (span : Span) (specifiers : List ExportSpecifier) (typeOnly : Bool)
      (attributes : Tree) (s : Span) (subject : Ident) (exported : Option ExportName)
      (specifierTypeOnly : Bool)
      (mem : .named s (.ident subject) exported specifierTypeOnly ∈ specifiers)
      (bound : ⟨subject.var, .named⟩ ∈ bs) :
      Mentions bs (.exportNamed span specifiers none typeOnly attributes)

end Tree

namespace Way

/-- No scope below the module root is on the way. -/
def AtRoot (way : Way) : Prop := ∀ step ∈ way, step.place ≠ .scoped

/-- What stands here, up to parentheses, is the initial value of a declarator with a
plain target, or the object of a member access by name. -/
def TakenUp : Way → Prop
  | ⟨_, .enclosed⟩ :: rest => TakenUp rest
  | ⟨.declarator _ target _ _, .init⟩ :: _ => target.PlainTarget
  | ⟨.member .expr _ _ (.name _ _), .object⟩ :: _ => True
  | _ => False

/-- What stands here, up to parentheses, is the callee of a call that names a module by
its only argument, and the result is taken up. -/
def Called : Way → Prop
  | ⟨_, .enclosed⟩ :: rest => Called rest
  | ⟨.call _ _ _ [.arg none argument] _, .callee⟩ :: rest =>
      argument.ImportsModule ∧ TakenUp rest
  | _ => False

end Way

/-- All specifiers of an import declaration. -/
def Tree.importSpecifiers : Tree → List ImportSpecifier
  | .importDecl _ specifiers _ _ _ _ => specifiers
  | _ => []

def ImportSpecifier.var : ImportSpecifier → Variable
  | .named _ binding _ _ | .default _ binding | .star _ binding => binding.var

namespace Module

/-- The variables that import declarations bind. -/
def importLocals (m : Module) : List Variable :=
  (m.body.flatMap Tree.importSpecifiers).map ImportSpecifier.var

def isPlain (m : Module) : Bool := Tree.arePlain false m.body

/-- A node of the module, and the way to it. -/
def Holds (m : Module) (way : Way) (t : Tree) : Prop := ∃ item ∈ m.body, item.Holds [] way t

end Module
end MockImport
