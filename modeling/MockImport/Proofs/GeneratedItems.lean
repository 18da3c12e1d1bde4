import MockImport.Expansion
import MockImport.Proofs.ImportOrder

/-!
The items that an expansion generates, written out node by node: the import declarations and
the statements that register modules. None of them stands in the source, so their spans are
empty, and what is imported, like the registrar, is in no syntax context.
-/

namespace MockImport

/-- The specifier `imported as id`. -/
def ImportSpecifier.naming (imported : String) (id : Ident) : ImportSpecifier :=
  .named ⟨0, 0⟩ id (some (.ident ⟨⟨0, 0⟩, ⟨imported, 0⟩, false⟩)) false

namespace Tree

/-- The declaration `import specifiers from "source"`. -/
def importOf (source : String) (specifiers : List ImportSpecifier) : Tree :=
  .importDecl ⟨0, 0⟩ specifiers ⟨⟨0, 0⟩, source, none⟩ false .absent "evaluation"

/-- The import that what is wanted of a group shares. It lists every name once, in the order of
the first requests, or binds the whole module. -/
def importOfGroup (locals : Wanted → Ident) (ws : List Wanted) : ImportGroup → Tree
  | (source, .named) => importOf source
      ((namesFrom ws source).map fun imported => .naming imported (locals ⟨source, some imported⟩))
  | (source, .star) => importOf source [.star ⟨0, 0⟩ (locals ⟨source, none⟩)]

/-- The statement `jest.mock("source")`. -/
def jestMock (source : String) : Tree :=
  .node .stmt .expressionStatement ⟨0, 0⟩
    [.call ⟨0, 0⟩ 0
      (.member .expr ⟨0, 0⟩ (.ident .expr ⟨⟨0, 0⟩, ⟨"jest", 0⟩, false⟩) (.name ⟨0, 0⟩ "mock"))
      [.arg none (.string ⟨⟨0, 0⟩, source, none⟩)] .absent]

/-- What an import takes, from where, and whether as types only. -/
def importing? : Tree → Option (List ImportSpecifier × String × Bool)
  | .importDecl _ specifiers source typeOnly _ _ => some (specifiers, source.value, typeOnly)
  | _ => none

theorem isImport_eq_importing? (t : Tree) : t.isImport = t.importing?.isSome := by
  cases t <;> rfl

end Tree

theorem registration_eq_jestMock : registration = Tree.jestMock := rfl

theorem GeneratedImport.toTree_declare (name : Wanted → String) (ws : List Wanted)
    (g : ImportGroup) (ctxt : Nat) :
    (declare name ws g).toTree ctxt =
      Tree.importOfGroup (fun w => ⟨⟨0, 0⟩, ⟨name w, ctxt⟩, false⟩) ws g := by
  obtain ⟨source, kind⟩ := g
  cases kind with
  | named =>
      rw [declare, toTree, List.map_map]
      rfl
  | star => rfl

end MockImport
