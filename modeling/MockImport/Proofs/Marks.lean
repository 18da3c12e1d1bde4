import Mathlib.Data.List.Basic
import MockImport.Renaming
import MockImport.Tree.Names
import MockImport.Proofs.TreeInduction

/-!
The identifiers and declarators of a tree in the order in which they stand there,
each identifier with the standing that decides what a renaming does to it. This is
the view of a tree in which an expansion can be followed identifier by identifier.
-/

namespace MockImport

/-- How an identifier stands in a tree. -/
inductive Standing where
  /-- A use of a variable: an expression, a property written as a variable, or the
  subject of an export that has a name of its own. -/
  | use
  /-- A use by an export that takes its name from the variable. -/
  | exported
  /-- A binding, a label, a type, or a name in an import. -/
  | other
  /-- A name that the outside sees, or anything in a re-export. -/
  | outside
  deriving DecidableEq

inductive Mark where
  | ident (standing : Standing) (span : Span) (v : Variable)
  | declarator (span : Span)
  deriving DecidableEq

namespace Mark

def name? : Mark → Option String
  | .ident _ _ v => some v.name
  | .declarator _ => none

/-- The same identifier where only the outside sees it. -/
def outward : Mark → Mark
  | .ident _ span v => .ident .outside span v
  | .declarator span => .declarator span

/-- What a renaming makes of an identifier. An export that took its name from a renamed
variable gets that name written out. -/
def renamed (r : Renaming) : Mark → List Mark
  | .ident .outside span v => [.ident .outside span v]
  | .ident .exported span v =>
      match r.lookup v with
      | some new => [.ident .use span new, .ident .outside span v]
      | none => [.ident .exported span v]
  | .ident standing span v => [.ident standing span ((r.lookup v).getD v)]
  | .declarator span => [.declarator span]

theorem name?_outward (m : Mark) : m.outward.name? = m.name? := by
  cases m <;> rfl

theorem renamed_outward (r : Renaming) (m : Mark) : m.outward.renamed r = [m.outward] := by
  cases m <;> rfl

theorem renamed_of_unknown {r : Renaming} (standing : Standing) (span : Span)
    {v : Variable} (unknown : r.lookup v = none) :
    (Mark.ident standing span v).renamed r = [.ident standing span v] := by
  cases standing <;> simp only [renamed, unknown, Option.getD_none]

theorem renamed_of_known {r : Renaming} {standing : Standing} {v new : Variable}
    (stands : standing = .use ∨ standing = .other) (span : Span) (known : r.lookup v = some new) :
    (Mark.ident standing span v).renamed r = [.ident standing span new] := by
  obtain rfl | rfl := stands <;> simp only [renamed, known, Option.getD_some]

/-- An identifier keeps its variable, because the renaming does not know it or because only
the outside sees it, or gets the variable that the renaming gives. -/
theorem renamed_cases {r : Renaming} {standing standing' : Standing} {span span' : Span}
    {v v' : Variable}
    (mem : .ident standing' span' v' ∈ (Mark.ident standing span v).renamed r) :
    v' = v ∧ (standing' = .outside ∨ r.lookup v = none) ∨ r.lookup v = some v' := by
  cases known : r.lookup v with
  | none =>
      rw [renamed_of_unknown standing span known, List.mem_singleton] at mem
      exact .inl ⟨(Mark.ident.inj mem).2.2, .inr rfl⟩
  | some new =>
      cases standing with
      | outside =>
          obtain ⟨rfl, -, rfl⟩ := Mark.ident.inj (List.mem_singleton.mp mem)
          exact .inl ⟨rfl, .inl rfl⟩
      | exported =>
          rw [renamed, known] at mem
          obtain same | same := List.mem_cons.mp mem
          · exact .inr (congrArg some (Mark.ident.inj same).2.2.symm)
          · obtain ⟨rfl, -, rfl⟩ := Mark.ident.inj (List.mem_singleton.mp same)
            exact .inl ⟨rfl, .inl rfl⟩
      | use =>
          rw [renamed_of_known (.inl rfl) span known, List.mem_singleton] at mem
          exact .inr (congrArg some (Mark.ident.inj mem).2.2.symm)
      | other =>
          rw [renamed_of_known (.inr rfl) span known, List.mem_singleton] at mem
          exact .inr (congrArg some (Mark.ident.inj mem).2.2.symm)

end Mark

def Ident.mark (standing : Standing) (id : Ident) : Mark := .ident standing id.span id.var

def ExportName.marks (standing : Standing) : ExportName → List Mark
  | .ident id => [id.mark standing]
  | .string _ => []

def ImportSpecifier.marks : ImportSpecifier → List Mark
  | .named _ binding imported _ =>
      binding.mark .other :: imported.elim [] (ExportName.marks .other)
  | .default _ binding | .star _ binding => [binding.mark .other]

def ExportSpecifier.marks : ExportSpecifier → List Mark
  | .named _ subject none _ => subject.marks .exported
  | .named _ subject (some exported) _ => subject.marks .use ++ exported.marks .outside
  | .default exported => [exported.mark .outside]
  | .star _ name => name.marks .outside

namespace Tree

mutual

def marks : Tree → List Mark
  | .absent | .leaf _ | .context _ | .name _ _ | .string _ => []
  | .items trees => marksList trees
  | .ident role id => [id.mark (if role = .expr then .use else .other)]
  | .shorthand id => [id.mark .use]
  | .binding id typing => id.mark .other :: marks typing
  | .paren _ _ inner => marks inner
  | .member _ _ object property => marks object ++ marks property
  | .call _ _ callee args typeArgs => marks callee ++ marksList args ++ marks typeArgs
  | .arg _ value => marks value
  | .variables _ _ _ _ _ declarators => marksList declarators
  | .declarator span target init _ => .declarator span :: (marks target ++ marks init)
  | .objectPattern _ properties _ typing => marksList properties ++ marks typing
  | .patternShorthand _ key typing value => key.mark .other :: (marks typing ++ marks value)
  | .patternPair key value | .pair key value => marks key ++ marks value
  | .getter _ key typing body => marks key ++ marks typing ++ marks body
  | .importDecl _ specifiers _ _ attributes _ =>
      specifiers.flatMap ImportSpecifier.marks ++ marks attributes
  | .exportNamed _ specifiers none _ attributes =>
      specifiers.flatMap ExportSpecifier.marks ++ (marks attributes).map Mark.outward
  | .exportNamed _ specifiers (some _) _ attributes =>
      (specifiers.flatMap ExportSpecifier.marks).map Mark.outward ++
        (marks attributes).map Mark.outward
  | .exportDecl _ declaration => marks declaration
  | .scope _ _ _ outer inner => marksList outer ++ marksList inner
  | .moduleBlock _ body => marksList body
  | .node _ _ _ fields => marksList fields

def marksList : List Tree → List Mark
  | [] => []
  | t :: rest => marks t ++ marksList rest

end

theorem marksList_eq_flatMap (ts : List Tree) : marksList ts = ts.flatMap marks := by
  induction ts with
  | nil => rfl
  | cons t rest ih => simp only [marksList, ih, List.flatMap_cons]

theorem marksList_append (ts us : List Tree) :
    marksList (ts ++ us) = marksList ts ++ marksList us := by
  simp only [marksList_eq_flatMap, List.flatMap_append]

end Tree

theorem ExportName.names_eq_marks (standing : Standing) (n : ExportName) :
    n.names = (n.marks standing).filterMap Mark.name? := by
  cases n <;> rfl

theorem ImportSpecifier.names_eq_marks (s : ImportSpecifier) :
    s.names = s.marks.filterMap Mark.name? := by
  cases s with
  | named span binding imported typeOnly =>
      cases imported with
      | none => rfl
      | some imported =>
          exact congrArg (binding.var.name :: ·) (imported.names_eq_marks .other)
  | default _ _ | star _ _ => rfl

theorem ExportSpecifier.names_eq_marks (s : ExportSpecifier) :
    s.names = s.marks.filterMap Mark.name? := by
  cases s with
  | named span subject exported typeOnly =>
      cases exported with
      | none => exact (List.append_nil _).trans (subject.names_eq_marks .exported)
      | some exported =>
          simp only [names, Option.elim, marks, List.filterMap_append,
            ← ExportName.names_eq_marks]
  | default _ => rfl
  | star _ name => exact name.names_eq_marks .outside

private theorem flatMap_names_eq {α : Type} {names : α → List String} {marks : α → List Mark}
    (xs : List α) (each : ∀ x ∈ xs, names x = (marks x).filterMap Mark.name?) :
    xs.flatMap names = (xs.flatMap marks).filterMap Mark.name? := by
  rw [List.filterMap_flatMap]
  exact List.flatMap_congr each

namespace Tree

theorem names_eq_marks (t : Tree) : names t = (marks t).filterMap Mark.name? := by
  have list (ts : List Tree) (ih : ∀ t ∈ ts, names t = (marks t).filterMap Mark.name?) :
      namesList ts = (marksList ts).filterMap Mark.name? := by
    induction ts with
    | nil => rfl
    | cons t rest ihRest =>
        simp only [namesList, marksList, List.filterMap_append, ih t List.mem_cons_self,
          ihRest fun u mem => ih u (List.mem_cons_of_mem t mem)]
  have outward (ms : List Mark) :
      (ms.map Mark.outward).filterMap Mark.name? = ms.filterMap Mark.name? := by
    rw [List.filterMap_map]
    exact List.filterMap_congr fun m _ => m.name?_outward
  induction t with
  | absent | leaf _ | context _ | name _ _ | string _ | ident _ _ | shorthand _ => rfl
  | items trees ih => exact list trees ih
  | binding id typing ih =>
      exact congrArg (id.var.name :: ·) ih
  | paren _ _ _ ih | arg _ _ ih | exportDecl _ _ ih => exact ih
  | member _ _ _ _ ihA ihB | patternPair _ _ ihA ihB | pair _ _ ihA ihB =>
      simp only [names, marks, ihA, ihB, List.filterMap_append]
  | call _ _ _ args _ ihCallee ihArgs ihType =>
      simp only [names, marks, ihCallee, list args ihArgs, ihType, List.filterMap_append]
  | declaration _ _ _ _ _ declarators ih => exact list declarators ih
  | declarator _ _ _ _ ihTarget ihInit =>
      simp only [names, marks, ihTarget, ihInit, List.filterMap_append, List.filterMap_cons,
        Mark.name?]
  | objectPattern _ properties _ _ ihProperties ihType =>
      simp only [names, marks, list properties ihProperties, ihType, List.filterMap_append]
  | patternShorthand _ _ _ _ ihType ihValue =>
      simp only [names, marks, ihType, ihValue, List.filterMap_append, List.filterMap_cons,
        Ident.mark, Mark.name?]
  | getter _ _ _ _ ihKey ihType ihBody =>
      simp only [names, marks, ihKey, ihType, ihBody, List.filterMap_append]
  | importDecl _ specifiers _ _ _ _ ih =>
      simp only [names, marks, ih, List.filterMap_append,
        flatMap_names_eq specifiers fun s _ => s.names_eq_marks]
  | exportNamed _ specifiers source _ _ ih =>
      cases source <;> simp only [names, marks, ih, outward, List.filterMap_append,
        flatMap_names_eq specifiers fun s _ => s.names_eq_marks]
  | scope _ _ _ outer inner ihOuter ihInner =>
      simp only [names, marks, list outer ihOuter, list inner ihInner, List.filterMap_append]
  | moduleBlock _ body ih => exact list body ih
  | node _ _ _ fields ih => exact list fields ih

end Tree

variable (r : Renaming)

private theorem renamed_outward_all (ms : List Mark) :
    (ms.map Mark.outward).flatMap (Mark.renamed r) = ms.map Mark.outward := by
  simp only [List.flatMap_map, Mark.renamed_outward]
  exact List.flatMap_pure_eq_map Mark.outward ms

theorem Ident.marks_renameShorthand (id : Ident) :
    (id.renameShorthand r).marks = (id.mark .use).renamed r := by
  cases found : r.lookup id.var <;>
    simp [Ident.renameShorthand, found, Tree.marks, Ident.mark, Mark.renamed]

theorem ImportSpecifier.marks_rename (s : ImportSpecifier) :
    (s.rename r).marks = s.marks.flatMap (Mark.renamed r) := by
  cases s with
  | named span binding imported typeOnly =>
      cases imported with
      | none => rfl
      | some imported => cases imported <;> rfl
  | default _ _ | star _ _ => rfl

theorem ExportSpecifier.marks_rename (s : ExportSpecifier) :
    (s.rename r).marks = s.marks.flatMap (Mark.renamed r) := by
  have outside (n : ExportName) :
      (n.marks .outside).flatMap (Mark.renamed r) = n.marks .outside := by
    cases n <;> rfl
  cases s with
  | named span subject exported typeOnly =>
      cases subject with
      | string literal =>
          cases exported with
          | none => rfl
          | some exported => exact (outside exported).symm
      | ident subject =>
          cases found : r.lookup subject.var <;> cases exported with
          | none => simp [rename, found, marks, ExportName.marks, Ident.mark, Mark.renamed]
          | some exported =>
              cases exported <;>
                simp [rename, found, marks, ExportName.marks, Ident.mark, Mark.renamed]
  | default exported => rfl
  | star span name => exact (outside name).symm

private theorem flatMap_rename {α : Type} {marks : α → List Mark} {rename : α → α}
    (each : ∀ x, marks (rename x) = (marks x).flatMap (Mark.renamed r)) (xs : List α) :
    (xs.map rename).flatMap marks = (xs.flatMap marks).flatMap (Mark.renamed r) := by
  rw [List.flatMap_map, List.flatMap_assoc]
  exact List.flatMap_congr fun x _ => each x

namespace Tree

/-- Renaming a tree renames its identifiers one by one. -/
theorem marks_rename (t : Tree) : marks (rename r t) = (marks t).flatMap (Mark.renamed r) := by
  have list (ts : List Tree)
      (ih : ∀ t ∈ ts, marks (rename r t) = (marks t).flatMap (Mark.renamed r)) :
      marksList (renameList r ts) = (marksList ts).flatMap (Mark.renamed r) := by
    induction ts with
    | nil => rfl
    | cons t rest ihRest =>
        simp only [renameList, marksList, List.flatMap_append, ih t List.mem_cons_self,
          ihRest fun u mem => ih u (List.mem_cons_of_mem t mem)]
  have other (id : Ident) : [(id.rename r).mark .other] = (id.mark .other).renamed r := rfl
  induction t with
  | absent | leaf _ | context _ | name _ _ | string _ => rfl
  | ident role id => by_cases used : role = .expr <;> simp only [rename, marks, used] <;> rfl
  | shorthand id => exact (id.marks_renameShorthand r).trans (List.append_nil _).symm
  | items trees ih => exact list trees ih
  | binding id typing ih =>
      simp only [rename, marks, ih, List.flatMap_cons, ← other, List.singleton_append]
  | paren _ _ _ ih | arg _ _ ih | exportDecl _ _ ih => exact ih
  | member _ _ _ _ ihA ihB | patternPair _ _ ihA ihB | pair _ _ ihA ihB =>
      simp only [rename, marks, ihA, ihB, List.flatMap_append]
  | call _ _ _ args _ ihCallee ihArgs ihType =>
      simp only [rename, marks, ihCallee, list args ihArgs, ihType, List.flatMap_append]
  | declaration _ _ _ _ _ declarators ih => exact list declarators ih
  | declarator _ _ _ _ ihTarget ihInit =>
      simp only [rename, marks, ihTarget, ihInit, List.flatMap_append, List.flatMap_cons,
        Mark.renamed, List.singleton_append]
  | objectPattern _ properties _ _ ihProperties ihType =>
      simp only [rename, marks, list properties ihProperties, ihType, List.flatMap_append]
  | patternShorthand _ _ _ _ ihType ihValue =>
      simp only [rename, marks, ihType, ihValue, List.flatMap_append, List.flatMap_cons,
        ← other, List.singleton_append]
  | getter _ _ _ _ ihKey ihType ihBody =>
      simp only [rename, marks, ihKey, ihType, ihBody, List.flatMap_append]
  | importDecl _ specifiers _ _ _ _ ih =>
      simp only [rename, marks, ih, List.flatMap_append,
        flatMap_rename r (ImportSpecifier.marks_rename r) specifiers]
  | exportNamed _ specifiers source _ _ ih =>
      cases source with
      | none =>
          simp only [rename, marks, List.flatMap_append, renamed_outward_all,
            flatMap_rename r (ExportSpecifier.marks_rename r) specifiers]
      | some source =>
          simp only [rename, marks, List.flatMap_append, renamed_outward_all]
  | scope _ _ _ outer inner ihOuter ihInner =>
      simp only [rename, marks, list outer ihOuter, list inner ihInner, List.flatMap_append]
  | moduleBlock _ body ih => exact list body ih
  | node _ _ _ fields ih => exact list fields ih

theorem marksList_rename (ts : List Tree) :
    marksList (renameList r ts) = (marksList ts).flatMap (Mark.renamed r) :=
  marks_rename r (.items ts)

end Tree
end MockImport
