import MockImport.Tree.Basic

/-!
The names of all identifiers of a tree: variables, labels, types, and names that
an import or export list mentions. Property names are none of these.
-/

namespace MockImport

def ExportName.names : ExportName → List String
  | .ident id => [id.var.name]
  | .string _ => []

def ImportSpecifier.names : ImportSpecifier → List String
  | .named _ binding imported _ =>
      binding.var.name :: imported.elim [] ExportName.names
  | .default _ binding | .star _ binding => [binding.var.name]

def ExportSpecifier.names : ExportSpecifier → List String
  | .named _ subject exported _ => subject.names ++ exported.elim [] ExportName.names
  | .default exported => [exported.var.name]
  | .star _ name => name.names

namespace Tree

mutual

def names : Tree → List String
  | .absent | .leaf _ | .context _ | .name _ _ | .string _ => []
  | .items trees => namesList trees
  | .ident _ id | .shorthand id => [id.var.name]
  | .binding id typing => id.var.name :: names typing
  | .paren _ _ inner => names inner
  | .member _ _ object property => names object ++ names property
  | .call _ _ callee args typeArgs => names callee ++ namesList args ++ names typeArgs
  | .arg _ value => names value
  | .variables _ _ _ _ _ declarators => namesList declarators
  | .declarator _ target init _ => names target ++ names init
  | .objectPattern _ properties _ typing => namesList properties ++ names typing
  | .patternShorthand _ key typing value => key.var.name :: (names typing ++ names value)
  | .patternPair key value | .pair key value => names key ++ names value
  | .getter _ key typing body => names key ++ names typing ++ names body
  | .importDecl _ specifiers _ _ attributes _ =>
      specifiers.flatMap ImportSpecifier.names ++ names attributes
  | .exportNamed _ specifiers _ _ attributes =>
      specifiers.flatMap ExportSpecifier.names ++ names attributes
  | .exportDecl _ declaration => names declaration
  | .scope _ _ _ outer inner => namesList outer ++ namesList inner
  | .moduleBlock _ body => namesList body
  | .node _ _ _ fields => namesList fields

def namesList : List Tree → List String
  | [] => []
  | t :: rest => names t ++ namesList rest

end

theorem mem_namesList (n : String) (ts : List Tree) :
    n ∈ namesList ts ↔ ∃ t ∈ ts, n ∈ names t := by
  induction ts with
  | nil => simp [namesList]
  | cons t rest ih => simp [namesList, ih]

end Tree

def Module.names (m : Module) : List String := Tree.namesList m.body

end MockImport
