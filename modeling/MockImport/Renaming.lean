import MockImport.Tree.Basic

/-!
Renaming variables throughout a tree. Identifiers are renamed wherever they occur,
but a property written as one identifier, and an export without a name of its own,
keep the name that the outside sees.
-/

namespace MockImport

/-- Old and new variables; of two entries for one variable the first counts. -/
abbrev Renaming := List (Variable × Variable)

def Ident.rename (r : Renaming) (id : Ident) : Ident :=
  { id with var := (r.lookup id.var).getD id.var }

def ExportName.rename (r : Renaming) : ExportName → ExportName
  | .ident id => .ident (id.rename r)
  | .string literal => .string literal

def ImportSpecifier.rename (r : Renaming) : ImportSpecifier → ImportSpecifier
  | .named span binding imported typeOnly =>
      .named span (binding.rename r) (imported.map (·.rename r)) typeOnly
  | .default span binding => .default span (binding.rename r)
  | .star span binding => .star span (binding.rename r)

/-- An exported variable that is renamed keeps its exported name. -/
def ExportSpecifier.rename (r : Renaming) : ExportSpecifier → ExportSpecifier
  | .named span (.ident subject) exported typeOnly =>
      match r.lookup subject.var with
      | some new =>
          .named span (.ident { subject with var := new }) (some (exported.getD (.ident subject)))
            typeOnly
      | none => .named span (.ident subject) exported typeOnly
  | s => s

/-- A property written as one renamed variable is written out in full. -/
def Ident.renameShorthand (r : Renaming) (id : Ident) : Tree :=
  match r.lookup id.var with
  | some new => .pair (.name id.span id.var.name) (.ident .expr ⟨id.span, new, false⟩)
  | none => .shorthand id

namespace Tree

mutual

def rename (r : Renaming) : Tree → Tree
  | .absent => .absent
  | .leaf value => .leaf value
  | .context ctxt => .context ctxt
  | .name span text => .name span text
  | .string literal => .string literal
  | .ident role id => .ident role (id.rename r)
  | .shorthand id => id.renameShorthand r
  | .items trees => .items (renameList r trees)
  | .binding id typing => .binding (id.rename r) (rename r typing)
  | .paren role span inner => .paren role span (rename r inner)
  | .member role span object property =>
      .member role span (rename r object) (rename r property)
  | .call span ctxt callee args typeArgs =>
      .call span ctxt (rename r callee) (renameList r args) (rename r typeArgs)
  | .arg spread value => .arg spread (rename r value)
  | .variables role span ctxt kind declare declarators =>
      .variables role span ctxt kind declare (renameList r declarators)
  | .declarator span target init definite =>
      .declarator span (rename r target) (rename r init) definite
  | .objectPattern span properties optional typing =>
      .objectPattern span (renameList r properties) optional (rename r typing)
  | .patternShorthand span key typing value =>
      .patternShorthand span (key.rename r) (rename r typing) (rename r value)
  | .patternPair key value => .patternPair (rename r key) (rename r value)
  | .pair key value => .pair (rename r key) (rename r value)
  | .getter span key typing body =>
      .getter span (rename r key) (rename r typing) (rename r body)
  | .importDecl span specifiers source typeOnly attributes phase =>
      .importDecl span (specifiers.map (·.rename r)) source typeOnly (rename r attributes) phase
  | .exportNamed span specifiers none typeOnly attributes =>
      .exportNamed span (specifiers.map (·.rename r)) none typeOnly attributes
  | .exportNamed span specifiers (some source) typeOnly attributes =>
      .exportNamed span specifiers (some source) typeOnly attributes
  | .exportDecl span declaration => .exportDecl span (rename r declaration)
  | .scope role kind span outer inner =>
      .scope role kind span (renameList r outer) (renameList r inner)
  | .moduleBlock span body => .moduleBlock span (renameList r body)
  | .node role kind span fields => .node role kind span (renameList r fields)

def renameList (r : Renaming) : List Tree → List Tree
  | [] => []
  | t :: rest => rename r t :: renameList r rest

end

theorem renameList_eq_map (r : Renaming) (ts : List Tree) :
    renameList r ts = ts.map (rename r) := by
  induction ts with
  | nil => rfl
  | cons t rest ih => simp only [renameList, ih, List.map_cons]

end Tree
end MockImport
