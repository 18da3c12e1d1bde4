import MockImport.Expansion
import MockImport.Proofs.Planning
import MockImport.Proofs.Renumbering

/-!
Expansion does not depend on how syntax contexts are numbered, as long as generated nodes keep
theirs: whatever happens to a module, from serving imports to renaming aliases, happens to the
renumbered module alike.
-/

namespace MockImport

section

variable (f : Nat → Nat)

def SiteAction.renumber : SiteAction → SiteAction
  | .remove => .remove
  | .replace v => .replace (v.renumber f)

def Renaming.renumber (r : Renaming) : Renaming :=
  r.map (Prod.map (·.renumber f) (·.renumber f))

def Imports.renumber (imports : Imports) : Imports := { imports with ctxt := f imports.ctxt }

def Progress.renumber (p : Progress) : Progress :=
  { p with
    imports := p.imports.renumber f
    renames := Renaming.renumber f p.renames
    actions := p.actions.map (Option.map (·.renumber f)) }

/-! ### Processing -/

theorem Imports.addNamed_renumber (imports : Imports) (imported source hint : String) :
    (imports.renumber f).addNamed imported source hint =
      Prod.map (·.renumber f) (·.renumber f) (imports.addNamed imported source hint) := by
  simp only [addNamed, renumber]
  cases imports.generated.findSome? (·.named? source imported) <;> rfl

theorem Imports.addStar_renumber (imports : Imports) (source : String) :
    (imports.renumber f).addStar source =
      Prod.map (·.renumber f) (·.renumber f) (imports.addStar source) := by
  simp only [addStar, renumber]
  cases imports.generated.findSome? (·.star? source) <;> rfl

namespace Progress

theorem importPair_renumber (specifier : String) (p : Progress) (pair : String × Variable) :
    importPair specifier (p.renumber f) (Prod.map id (·.renumber f) pair) =
      (importPair specifier p pair).renumber f := by
  have added := p.imports.addNamed_renumber f pair.1 specifier pair.2.name
  simp only [importPair, renumber]
  exact congrArg (fun served : Variable × Imports => ({ p.renumber f with
    imports := served.2
    renames := (pair.2.renumber f, served.1) :: Renaming.renumber f p.renames } : Progress)) added

theorem consume_renumber (p : Progress) (specifier : String) (pattern : Pattern) :
    (p.renumber f).consume specifier (pattern.renumber f) =
      Prod.map (·.renumber f) (·.renumber f) (p.consume specifier pattern) := by
  cases pattern with
  | destructure pairs =>
      have folded : (pairs.map (Prod.map id (·.renumber f))).foldl (importPair specifier)
          (p.renumber f) = (pairs.foldl (importPair specifier) p).renumber f := by
        rw [List.foldl_map]
        exact List.foldl_hom _ fun p pair => importPair_renumber f specifier p pair
      exact congrArg (·, SiteAction.remove) folded
  | «alias» v =>
      have added := p.imports.addStar_renumber f specifier
      exact congrArg (fun served : Variable × Imports => (({ p.renumber f with
        imports := served.2
        renames := (v.renumber f, served.1) :: Renaming.renumber f p.renames } : Progress),
          SiteAction.remove)) added
  | member property =>
      have added := p.imports.addNamed_renumber f property specifier property
      exact congrArg (fun served : Variable × Imports =>
        (({ p.renumber f with imports := served.2 } : Progress),
          SiteAction.replace served.1)) added

theorem register_renumber (p : Progress) (hasImport : Bool) (specifier : String) :
    (p.renumber f).register hasImport specifier = (p.register hasImport specifier).renumber f := by
  rw [register, register, apply_ite (Progress.renumber f)]
  rfl

theorem step_renumber (options : Options) (hasImport : Bool) (sites : List Site) (p : Progress)
    (i : Nat) :
    (p.renumber f).step options hasImport (sites.map (·.renumber f)) i =
      (p.step options hasImport sites i).renumber f := by
  simp only [step, List.getElem?_map]
  cases sites[i]? with
  | none => rfl
  | some site =>
      have consumed := p.consume_renumber f site.specifier site.pattern
      rcases result : p.consume site.specifier site.pattern with ⟨q, action⟩
      rw [result] at consumed
      have noted : ({ q.renumber f with
            actions := (q.renumber f).actions.set i (some (action.renumber f)) } : Progress) =
          ({ q with actions := q.actions.set i (some action) } : Progress).renumber f := by
        simp only [renumber, List.map_set, Option.map_some]
      simp only [Option.map_some, Site.renumber, consumed, result, Prod.map, noted,
        register_renumber]
      split <;> rfl

end Progress

theorem Plan.process_renumber (zero : f 0 = 0) (plan : Plan) (options : Options)
    (hasImport : Bool) :
    (plan.renumber f).process options hasImport = (plan.process options hasImport).renumber f := by
  have start : Progress.start (plan.renumber f) = (Progress.start plan).renumber f := by
    simp only [Progress.start, Progress.renumber, Imports.renumber, renumber,
      plan.bindings.rootCtxt_renumber f zero, List.map_map]
    rfl
  rw [process, start]
  exact List.foldl_hom _ fun p i => p.step_renumber f options hasImport plan.sites i

/-! ### Putting the module together -/

namespace GeneratedImport

theorem toTree_renumber (zero : f 0 = 0) (i : GeneratedImport) (ctxt : Nat) :
    (i.toTree ctxt).renumber f = i.toTree (f ctxt) := by
  cases i with
  | named source entries =>
      simp only [toTree, toTree.declaration, Tree.renumber, List.map_map]
      congr 1
      refine List.map_congr_left fun entry _ => ?_
      simp [ImportSpecifier.renumber, ExportName.renumber, Ident.renumber, Ident.generated,
        Variable.renumber, zero]
  | star source binding => rfl

end GeneratedImport

theorem Imports.declarations_renumber (zero : f 0 = 0) (imports : Imports) :
    (imports.renumber f).declarations = Tree.renumberList f imports.declarations := by
  simp only [declarations, renumber, Tree.renumberList_eq_map, List.map_map, Function.comp_def,
    GeneratedImport.toTree_renumber f zero]

theorem registration_renumber (zero : f 0 = 0) (specifier : String) :
    (registration specifier).renumber f = registration specifier := by
  simp [registration, Tree.renumber, Tree.renumberList, Ident.renumber, Ident.generated,
    Variable.renumber, zero]

theorem Tree.isImport_renumber (t : Tree) : (t.renumber f).isImport = t.isImport := by
  cases t <;> rfl

theorem splitAtImports_renumber (ts : List Tree) :
    splitAtImports (Tree.renumberList f ts) =
      Prod.map (Tree.renumberList f) (Tree.renumberList f) (splitAtImports ts) := by
  induction ts with
  | nil => rfl
  | cons t rest ih =>
      rw [Tree.renumberList, splitAtImports, splitAtImports, ih, t.isImport_renumber f]
      obtain ⟨upTo, after⟩ := splitAtImports rest
      have same : (Tree.renumberList f upTo).isEmpty = upTo.isEmpty := by cases upTo <;> rfl
      simp only [Prod.map, same]
      split <;> rfl

theorem Progress.assemble_renumber (zero : f 0 = 0) (p : Progress) (body : List Tree) :
    (p.renumber f).assemble (Tree.renumberList f body) =
      Tree.renumberList f (p.assemble body) := by
  have registrations : Tree.renumberList f (p.registered.map registration) =
      p.registered.map registration := by
    rw [Tree.renumberList_eq_map, List.map_map]
    exact List.map_congr_left fun specifier _ => registration_renumber f zero specifier
  simp only [assemble, splitAtImports_renumber, Prod.map, renumber,
    Imports.declarations_renumber f zero]
  simp only [Tree.renumberList_eq_map, List.map_append] at registrations ⊢
  rw [registrations]

end

/-! ### Settling -/

/-- Handed renumbered actions, the second traversal returns what the first one returns
renumbered, and leaves the same actions renumbered. -/
def Settling.Follows (f : Nat → Nat) {α β : Type} (g : α → β) (x : Settling α) (y : Settling β) :
    Prop :=
  ∀ actions, y.run (actions.map (·.renumber f)) =
    Prod.map g (List.map (·.renumber f)) (x.run actions)

section

variable {f : Nat → Nat}

namespace Settling.Follows

variable {α β γ δ : Type} {g : α → β} {h : γ → δ}

theorem pure {a : α} {b : β} (same : b = g a) :
    Follows f g (Pure.pure a : Settling α) (Pure.pure b) := by
  subst same
  exact fun _ => rfl

theorem bind {x : Settling α} {y : Settling β} {k : α → Settling γ} {l : β → Settling δ}
    (first : Follows f g x y) (later : ∀ a, Follows f h (k a) (l (g a))) :
    Follows f h (x >>= k) (y >>= l) := by
  intro actions
  simp only [StateT.run_bind, first actions]
  exact later _ _

theorem next : Follows f (Option.map (SiteAction.renumber f)) Settling.next Settling.next := by
  intro actions
  cases actions <;> rfl

end Settling.Follows

namespace Tree

open Settling

theorem isEmptied_renumber (t : Tree) : (t.renumber f).isEmptied = t.isEmptied := by
  cases t with
  | «variables» _ _ _ _ _ declarators => cases declarators <;> rfl
  | exportDecl _ declaration =>
      cases declaration with
      | «variables» _ _ _ _ _ declarators => cases declarators <;> rfl
      | _ => rfl
  | _ => rfl

theorem filter_isEmptied_renumber (ts : List Tree) :
    (renumberList f ts).filter (!·.isEmptied) = renumberList f (ts.filter (!·.isEmptied)) := by
  simp only [renumberList_eq_map, List.filter_map, Function.comp_def, isEmptied_renumber]

theorem settleMember_renumber (site : Tree) :
    Follows f (renumber f) (settleMember site) (settleMember (site.renumber f)) := by
  refine Follows.next.bind fun action => ?_
  cases action with
  | none => exact .pure rfl
  | some action => cases action <;> exact .pure rfl

variable (inj : Function.Injective f) (bs : Bindings)
include inj

theorem isDeclaratorSite_renumber (t : Tree) :
    (t.renumber f).isDeclaratorSite (bs.renumber f) = t.isDeclaratorSite bs := by
  cases t with
  | declarator _ _ init _ =>
      simp only [renumber, isDeclaratorSite, bs.call?_renumber inj, Option.isSome_map]
  | _ => rfl

omit inj in
theorem settleList_follows {ts : List Tree} (each : ∀ t ∈ ts,
      Follows f (renumber f) (settle bs t) (settle (bs.renumber f) (t.renumber f))) :
    Follows f (renumberList f) (settleList bs ts)
      (settleList (bs.renumber f) (renumberList f ts)) := by
  induction ts with
  | nil => exact .pure rfl
  | cons t rest ih =>
      obtain ⟨here, later⟩ := List.forall_mem_cons.mp each
      exact here.bind fun _ => (ih later).bind fun _ => .pure rfl

theorem settleDeclarators_follows {ts : List Tree} (each : ∀ t ∈ ts,
      Follows f (renumber f) (settle bs t) (settle (bs.renumber f) (t.renumber f))) :
    Follows f (renumberList f) (settleDeclarators bs ts)
      (settleDeclarators (bs.renumber f) (renumberList f ts)) := by
  induction ts with
  | nil => exact .pure rfl
  | cons t rest ih =>
      obtain ⟨here, later⟩ := List.forall_mem_cons.mp each
      simp only [renumberList, settleDeclarators, isDeclaratorSite_renumber inj]
      split
      · exact Follows.next.bind fun _ => ih later
      · exact here.bind fun _ => (ih later).bind fun _ => .pure rfl

/-- Settling a renumbered tree comes to the settled tree renumbered. -/
theorem settle_renumber (t : Tree) :
    Follows f (renumber f) (settle bs t) (settle (bs.renumber f) (t.renumber f)) := by
  induction t with
  | absent | leaf _ | context _ | name _ _ | string _ | ident _ _ | shorthand _ => exact .pure rfl
  | items _ ih | node _ _ _ _ ih => exact (settleList_follows bs ih).bind fun _ => .pure rfl
  | binding _ _ ih | paren _ _ _ ih | arg _ _ ih | importDecl _ _ _ _ _ _ ih
  | exportNamed _ _ _ _ _ ih | exportDecl _ _ ih => exact ih.bind fun _ => .pure rfl
  | member role span object property ihObject ihProperty =>
      simp only [renumber, settle, bs.call?_renumber inj, Option.isSome_map]
      split
      · exact settleMember_renumber (.member role span object property)
      · exact ihObject.bind fun _ => ihProperty.bind fun _ => .pure rfl
  | call _ _ _ _ _ ihCallee ihArgs ihType =>
      exact ihCallee.bind fun _ => (settleList_follows bs ihArgs).bind fun _ =>
        ihType.bind fun _ => .pure rfl
  | declaration _ _ _ _ _ _ ih =>
      exact (settleDeclarators_follows inj bs ih).bind fun _ => .pure rfl
  | declarator _ _ _ _ ihA ihB | patternShorthand _ _ _ _ ihA ihB | patternPair _ _ ihA ihB
  | pair _ _ ihA ihB => exact ihA.bind fun _ => ihB.bind fun _ => .pure rfl
  | objectPattern _ _ _ _ ihProperties ihType =>
      exact (settleList_follows bs ihProperties).bind fun _ => ihType.bind fun _ => .pure rfl
  | getter _ _ _ _ ihKey ihType ihBody =>
      exact ihKey.bind fun _ => ihType.bind fun _ => ihBody.bind fun _ => .pure rfl
  | scope _ _ _ _ _ ihOuter ihInner =>
      exact (settleList_follows bs ihOuter).bind fun _ =>
        (settleList_follows bs ihInner).bind fun _ => .pure rfl
  | moduleBlock _ _ ih =>
      exact (settleList_follows bs ih).bind fun body =>
        .pure (by rw [filter_isEmptied_renumber]; rfl)

theorem settleItems_renumber (ts : List Tree) :
    Follows f (renumberList f) (settleItems bs ts)
      (settleItems (bs.renumber f) (renumberList f ts)) :=
  (settleList_follows bs fun t _ => settle_renumber inj bs t).bind fun _ =>
    .pure (filter_isEmptied_renumber _)

end Tree

/-! ### Renaming -/

section

variable (inj : Function.Injective f) (r : Renaming)
include inj

theorem Renaming.lookup_renumber (v : Variable) :
    (Renaming.renumber f r).lookup (v.renumber f) = (r.lookup v).map (Variable.renumber f) :=
  lookup_map_of_injective (Variable.renumber_injective inj) _ r v

theorem Ident.rename_renumber (id : Ident) :
    (id.renumber f).rename (Renaming.renumber f r) = (id.rename r).renumber f := by
  simp only [rename, renumber, Renaming.lookup_renumber inj]
  cases r.lookup id.var <;> rfl

theorem ExportName.rename_renumber (name : ExportName) :
    (name.renumber f).rename (Renaming.renumber f r) = (name.rename r).renumber f := by
  cases name with
  | ident id => exact congrArg ExportName.ident (id.rename_renumber inj r)
  | string literal => rfl

theorem ImportSpecifier.rename_renumber (s : ImportSpecifier) :
    (s.renumber f).rename (Renaming.renumber f r) = (s.rename r).renumber f := by
  cases s with
  | named _ _ imported _ =>
      simp only [renumber, rename, Ident.rename_renumber inj, Option.map_map, Function.comp_def,
        ExportName.rename_renumber inj]
  | default _ _ | star _ _ => simp only [renumber, rename, Ident.rename_renumber inj]

theorem ExportSpecifier.rename_renumber (s : ExportSpecifier) :
    (s.renumber f).rename (Renaming.renumber f r) = (s.rename r).renumber f := by
  cases s with
  | named _ subject exported _ =>
      cases subject with
      | string literal => rfl
      | ident subject =>
          have found := Renaming.lookup_renumber inj r subject.var
          simp only [renumber, ExportName.renumber, rename, Ident.renumber, found]
          cases r.lookup subject.var with
          | none => rfl
          | some new => cases exported <;> rfl
  | default _ | star _ _ => rfl

theorem Ident.renameShorthand_renumber (id : Ident) :
    (id.renumber f).renameShorthand (Renaming.renumber f r) =
      (id.renameShorthand r).renumber f := by
  simp only [renameShorthand, renumber, Renaming.lookup_renumber inj]
  cases r.lookup id.var <;> rfl

theorem Tree.rename_renumber (t : Tree) :
    rename (Renaming.renumber f r) (t.renumber f) = (rename r t).renumber f := by
  have list {ts : List Tree}
      (ih : ∀ t ∈ ts, rename (Renaming.renumber f r) (t.renumber f) = (rename r t).renumber f) :
      renameList (Renaming.renumber f r) (renumberList f ts) =
        renumberList f (renameList r ts) := by
    simp only [renameList_eq_map, renumberList_eq_map, List.map_map]
    exact List.map_congr_left ih
  induction t with
  | absent | leaf _ | context _ | name _ _ | string _ => rfl
  | ident _ id => simp only [renumber, rename, id.rename_renumber inj r]
  | shorthand id => exact id.renameShorthand_renumber inj r
  | items _ ih | declaration _ _ _ _ _ _ ih | moduleBlock _ _ ih | node _ _ _ _ ih =>
      simp only [renumber, rename, list ih]
  | binding id _ ih => simp only [renumber, rename, id.rename_renumber inj r, ih]
  | paren _ _ _ ih | arg _ _ ih | exportDecl _ _ ih => simp only [renumber, rename, ih]
  | member _ _ _ _ ihA ihB | declarator _ _ _ _ ihA ihB | patternPair _ _ ihA ihB
  | pair _ _ ihA ihB => simp only [renumber, rename, ihA, ihB]
  | call _ _ _ _ _ ihCallee ihArgs ihType =>
      simp only [renumber, rename, ihCallee, list ihArgs, ihType]
  | objectPattern _ _ _ _ ihProperties ihType =>
      simp only [renumber, rename, list ihProperties, ihType]
  | patternShorthand _ key _ _ ihType ihValue =>
      simp only [renumber, rename, key.rename_renumber inj r, ihType, ihValue]
  | getter _ _ _ _ ihKey ihType ihBody => simp only [renumber, rename, ihKey, ihType, ihBody]
  | importDecl _ _ _ _ _ _ ih =>
      simp only [renumber, rename, ih, List.map_map, Function.comp_def,
        ImportSpecifier.rename_renumber inj]
  | exportNamed _ _ source _ _ _ =>
      cases source with
      | none =>
          simp only [renumber, rename, List.map_map, Function.comp_def,
            ExportSpecifier.rename_renumber inj]
      | some source => rfl
  | scope _ _ _ _ _ ihOuter ihInner => simp only [renumber, rename, list ihOuter, list ihInner]

theorem Tree.renameList_renumber (ts : List Tree) :
    renameList (Renaming.renumber f r) (renumberList f ts) = renumberList f (renameList r ts) := by
  simp only [renameList_eq_map, renumberList_eq_map, List.map_map]
  exact List.map_congr_left fun t _ => t.rename_renumber inj r

end

/-! ### Expansion -/

section

variable (inj : Function.Injective f) (zero : f 0 = 0)
include inj zero

theorem Module.apply_renumber (m : Module) (plan : Plan) (options : Options) :
    (m.renumber f).apply (plan.renumber f) options = (m.apply plan options).renumber f := by
  have hasImport : (Tree.renumberList f m.body).any Tree.isImport = m.body.any Tree.isImport := by
    simp only [Tree.renumberList_eq_map, List.any_map, Function.comp_def,
      Tree.isImport_renumber]
  have actions (p : Progress) : (p.renumber f).actions.filterMap id =
      (p.actions.filterMap id).map (·.renumber f) := by
    rw [List.map_filterMap]
    exact List.filterMap_map
  simp only [apply, renumber, hasImport, plan.process_renumber f zero,
    Progress.assemble_renumber f zero, actions]
  generalize plan.process options (m.body.any Tree.isImport) = p
  have settled := Tree.settleItems_renumber inj plan.bindings (p.assemble m.body)
    (p.actions.filterMap id)
  rw [← Tree.renameList_renumber inj]
  exact congrArg (fun result => ({ m with body := Tree.renameList _ result.1 } : Module)) settled

theorem Module.expand_renumbered (m : Module) (source : Option String) (options : Options) :
    (m.renumber f).expand source options =
      (m.expand source options).map fun (count, m') => (count, m'.renumber f) := by
  rw [expand, expand, Plan.ofModule_renumber f inj]
  cases Plan.ofModule m source with
  | error failure => rfl
  | ok plan =>
      have isEmpty : (plan.renumber f).sites.isEmpty = plan.sites.isEmpty := List.isEmpty_map
      have length : (plan.renumber f).sites.length = plan.sites.length := List.length_map _
      simp only [Except.map, bind, Except.bind, isEmpty, length, apply_renumber inj zero]
      split <;> rfl

/-- Numbering syntax contexts differently, one to one and with generated nodes keeping theirs,
numbers the result of an expansion differently and changes nothing else. -/
theorem Program.expand_renumber (program : Program) (source : Option String) (options : Options) :
    (program.renumber f).expand source options =
      (program.expand source options).map fun (count, expanded) =>
        (count, expanded.renumber f) := by
  cases program with
  | script s => rfl
  | module m =>
      simp only [renumber, expand, m.expand_renumbered inj zero]
      cases m.expand source options <;> rfl

end

/-- A module expanded after all its contexts are doubled. -/
theorem Program.expand_renumber_plain :
    Function.Injective (2 * · : Nat → Nat) ∧ 2 * 0 = 0 ∧
      ∃ m', (Program.module Sample.plain).expand none {} = .ok (3, .module m') ∧
        ((Program.module Sample.plain).renumber (2 * ·)).expand none {} =
          .ok (3, .module (m'.renumber (2 * ·))) := by
  have inj : Function.Injective (2 * · : Nat → Nat) := fun a b same => by
    simp only at same
    omega
  obtain ⟨m', expanded⟩ : ∃ m', (Program.module Sample.plain).expand none {} =
    .ok (3, .module m') := ⟨_, rfl⟩
  refine ⟨inj, rfl, m', expanded, ?_⟩
  rw [Program.expand_renumber inj rfl, expanded]
  rfl

end

end MockImport
