import MockImport.Expansion

/-!
The items of a module while imports are generated into them. A declaration goes on top when
something is first asked for, or one of those on top is extended; a registration goes behind
the last import as the items stand by then. Tables answer what is asked for again, and a
count says how many items on top are generated, for only these are extended.
-/

namespace MockImport

/-- An import declaration that binds a whole module is of that kind, whatever else it binds. -/
def importKind (specifiers : List ImportSpecifier) : BindingKind :=
  if specifiers.any fun | .star _ _ => true | _ => false then .star else .named

namespace Tree

/-- The item imports from a module, in the given way. -/
def importsFrom (source : String) (kind : BindingKind) : Tree → Bool
  | .importDecl _ specifiers literal _ _ _ =>
      literal.value = source && importKind specifiers = kind
  | _ => false

def withSpecifier (s : ImportSpecifier) : Tree → Tree
  | .importDecl span specifiers source typeOnly attributes phase =>
      .importDecl span (specifiers ++ [s]) source typeOnly attributes phase
  | t => t

/-- Adds a specifier to the first import from a module by name among so many items on top,
if there is one. -/
def extendImport? (source : String) (s : ImportSpecifier) : Nat → List Tree → Option (List Tree)
  | 0, _ | _, [] => none
  | n + 1, t :: rest =>
      if t.importsFrom source .named then some (t.withSpecifier s :: rest)
      else (extendImport? source s n rest).map (t :: ·)

/-- Puts an item behind the last import, if there is one. -/
def insertAfterImports? (item : Tree) : List Tree → Option (List Tree)
  | [] => none
  | t :: rest =>
      match insertAfterImports? item rest with
      | some inserted => some (t :: inserted)
      | none => if t.isImport then some (t :: item :: rest) else none

end Tree

structure Draft where
  /-- The syntax context of the local names. -/
  ctxt : Nat
  taken : List String
  body : List Tree
  /-- Local names by module and imported name. -/
  named : List ((String × String) × Ident) := []
  /-- Local names of whole modules. -/
  stars : List (String × Ident) := []
  /-- The number of generated items on top. -/
  created : Nat := 0

namespace Draft

def fresh (d : Draft) (hint : String) : Ident × Draft :=
  let name := freshName d.taken hint
  (.generated ⟨name, d.ctxt⟩, { d with taken := name :: d.taken })

/-- Puts a new import declaration on top. -/
def declare (d : Draft) (source : String) (s : ImportSpecifier) : Draft :=
  { d with
    body := GeneratedImport.toTree.declaration source [s] :: d.body
    created := d.created + 1 }

/-- Adds to the import from a module by name that is on top or, without one, puts it there. -/
def declareNamed (d : Draft) (source : String) (s : ImportSpecifier) : Draft :=
  match Tree.extendImport? source s d.created d.body with
  | some body => { d with body := body }
  | none => d.declare source s

/-- The specifier `imported as id`. -/
def specifier (imported : String) (id : Ident) : ImportSpecifier :=
  .named .generated id (some (.ident (.generated ⟨imported, 0⟩))) false

/-- The local name for something imported by name; a hint serves to name it. -/
def addNamed (d : Draft) (imported source hint : String) : Ident × Draft :=
  match d.named.lookup (source, imported) with
  | some id => (id, d)
  | none =>
      let (id, d) := d.fresh hint
      let d := d.declareNamed source (specifier imported id)
      (id, { d with named := d.named ++ [((source, imported), id)] })

/-- The local name for everything a module exports. -/
def addStar (d : Draft) (source : String) : Ident × Draft :=
  match d.stars.lookup source with
  | some id => (id, d)
  | none =>
      let (id, d) := d.fresh source
      let d := d.declare source (.star .generated id)
      (id, { d with stars := d.stars ++ [(source, id)] })

/-- Without any import there is nothing to register behind. -/
def register (d : Draft) (source : String) : Draft :=
  { d with body := (Tree.insertAfterImports? (registration source) d.body).getD d.body }

end Draft
end MockImport
