import MockImport.FreshName
import MockImport.Tree.Basic

/-!
The import declarations that an expansion generates. There is one named import per
module, which grows, and one import of everything per module; each distinct request
gets one fresh local name, and the newest declaration comes first.
-/

namespace MockImport

inductive GeneratedImport where
  /-- Pairs of an imported name and its local name. -/
  | named (source : String) (entries : List (String × String))
  /-- Everything that the source exports, under one local name. -/
  | star (source : String) (binding : String)
  deriving DecidableEq

namespace GeneratedImport

/-- The local name for something imported by name. -/
def named? (source imported : String) : GeneratedImport → Option String
  | .named s entries => if s = source then entries.lookup imported else none
  | .star _ _ => none

/-- The local name for everything a module exports. -/
def star? (source : String) : GeneratedImport → Option String
  | .star s binding => if s = source then some binding else none
  | .named _ _ => none

/-- Adds an entry to the named import of a source, if there is one. -/
def extend? (source : String) (entry : String × String) :
    List GeneratedImport → Option (List GeneratedImport)
  | [] => none
  | .named s entries :: rest =>
      if s = source then some (.named s (entries ++ [entry]) :: rest)
      else (extend? source entry rest).map (.named s entries :: ·)
  | i :: rest => (extend? source entry rest).map (i :: ·)

/-- Adds an entry to the named import of a source or, without one, a new import. -/
def insertNamed (source : String) (entry : String × String)
    (imports : List GeneratedImport) : List GeneratedImport :=
  (extend? source entry imports).getD (.named source [entry] :: imports)

/-- The declaration, whose local names live in the given syntax context. -/
def toTree (ctxt : Nat) : GeneratedImport → Tree
  | .named source entries => declaration source (entries.map fun (imported, binding) =>
      .named .generated (.generated ⟨binding, ctxt⟩)
        (some (.ident (.generated ⟨imported, 0⟩))) false)
  | .star source binding => declaration source [.star .generated (.generated ⟨binding, ctxt⟩)]
where
  declaration (source : String) (specifiers : List ImportSpecifier) : Tree :=
    .importDecl .generated specifiers (.generated source) false .absent "evaluation"

end GeneratedImport

/-- The imports generated so far, and the names that the next ones must avoid. -/
structure Imports where
  /-- The syntax context of the local names. -/
  ctxt : Nat
  taken : List String
  /-- Newest first. -/
  generated : List GeneratedImport := []

namespace Imports

/-- The local variable for something imported by name; a hint serves to name it. -/
def addNamed (imports : Imports) (imported source hint : String) : Variable × Imports :=
  match imports.generated.findSome? (·.named? source imported) with
  | some name => (⟨name, imports.ctxt⟩, imports)
  | none =>
      let name := freshName imports.taken hint
      (⟨name, imports.ctxt⟩,
        { imports with
          taken := name :: imports.taken
          generated := GeneratedImport.insertNamed source (imported, name) imports.generated })

/-- The local variable for everything a module exports. -/
def addStar (imports : Imports) (source : String) : Variable × Imports :=
  match imports.generated.findSome? (·.star? source) with
  | some name => (⟨name, imports.ctxt⟩, imports)
  | none =>
      let name := freshName imports.taken source
      (⟨name, imports.ctxt⟩,
        { imports with
          taken := name :: imports.taken
          generated := .star source name :: imports.generated })

def declarations (imports : Imports) : List Tree :=
  imports.generated.map (·.toTree imports.ctxt)

end Imports
end MockImport
