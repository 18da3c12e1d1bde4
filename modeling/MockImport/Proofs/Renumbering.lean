import MockImport.Plan
import MockImport.Proofs.ImportTable
import MockImport.Proofs.Patterns
import MockImport.Proofs.TreeInduction

/-!
Syntax contexts are mere labels. If they are numbered differently, one to one, the same
variables are told apart, so the same bindings are discovered and the same references found,
and the plan is the same but for the numbers.
-/

namespace MockImport

section

variable (f : Nat → Nat)

def Variable.renumber (v : Variable) : Variable := { v with ctxt := f v.ctxt }

def Ident.renumber (id : Ident) : Ident := { id with var := id.var.renumber f }

def ExportName.renumber : ExportName → ExportName
  | .ident id => .ident (id.renumber f)
  | .string literal => .string literal

def ImportSpecifier.renumber : ImportSpecifier → ImportSpecifier
  | .named span binding imported typeOnly =>
      .named span (binding.renumber f) (imported.map (·.renumber f)) typeOnly
  | .default span binding => .default span (binding.renumber f)
  | .star span binding => .star span (binding.renumber f)

def ExportSpecifier.renumber : ExportSpecifier → ExportSpecifier
  | .named span subject exported typeOnly =>
      .named span (subject.renumber f) (exported.map (·.renumber f)) typeOnly
  | .default exported => .default (exported.renumber f)
  | .star span name => .star span (name.renumber f)

namespace Tree

mutual

/-- Numbers all syntax contexts of a tree differently. -/
def renumber : Tree → Tree
  | .absent => .absent
  | .leaf value => .leaf value
  | .context ctxt => .context (f ctxt)
  | .name span text => .name span text
  | .string literal => .string literal
  | .ident role id => .ident role (id.renumber f)
  | .shorthand id => .shorthand (id.renumber f)
  | .items trees => .items (renumberList trees)
  | .binding id typing => .binding (id.renumber f) (renumber typing)
  | .paren role span inner => .paren role span (renumber inner)
  | .member role span object property =>
      .member role span (renumber object) (renumber property)
  | .call span ctxt callee args typeArgs =>
      .call span (f ctxt) (renumber callee) (renumberList args) (renumber typeArgs)
  | .arg spread value => .arg spread (renumber value)
  | .variables role span ctxt kind declare declarators =>
      .variables role span (f ctxt) kind declare (renumberList declarators)
  | .declarator span target init definite =>
      .declarator span (renumber target) (renumber init) definite
  | .objectPattern span properties optional typing =>
      .objectPattern span (renumberList properties) optional (renumber typing)
  | .patternShorthand span key typing value =>
      .patternShorthand span (key.renumber f) (renumber typing) (renumber value)
  | .patternPair key value => .patternPair (renumber key) (renumber value)
  | .pair key value => .pair (renumber key) (renumber value)
  | .getter span key typing body =>
      .getter span (renumber key) (renumber typing) (renumber body)
  | .importDecl span specifiers source typeOnly attributes phase =>
      .importDecl span (specifiers.map (·.renumber f)) source typeOnly (renumber attributes) phase
  | .exportNamed span specifiers source typeOnly attributes =>
      .exportNamed span (specifiers.map (·.renumber f)) source typeOnly (renumber attributes)
  | .exportDecl span declaration => .exportDecl span (renumber declaration)
  | .scope role kind span outer inner =>
      .scope role kind span (renumberList outer) (renumberList inner)
  | .moduleBlock span body => .moduleBlock span (renumberList body)
  | .node role kind span fields => .node role kind span (renumberList fields)

def renumberList : List Tree → List Tree
  | [] => []
  | t :: rest => renumber t :: renumberList rest

end

theorem renumberList_eq_map (ts : List Tree) : renumberList f ts = ts.map (renumber f) := by
  induction ts with
  | nil => rfl
  | cons t rest ih => simp only [renumberList, ih, List.map_cons]

theorem span_renumber (t : Tree) : (renumber f t).span = t.span := by
  induction t with
  | arg _ _ ih => exact ih
  | patternPair _ _ ihKey ihValue | pair _ _ ihKey ihValue =>
      simp only [renumber, span, ihKey, ihValue]
  | _ => rfl

end Tree

def Module.renumber (m : Module) : Module := { m with body := Tree.renumberList f m.body }

def Script.renumber (s : Script) : Script := { s with body := Tree.renumberList f s.body }

def Program.renumber : Program → Program
  | .module m => .module (m.renumber f)
  | .script s => .script (s.renumber f)

def Binding.renumber (b : Binding) : Binding := { b with var := b.var.renumber f }

def Bindings.renumber (bs : Bindings) : Bindings := bs.map (·.renumber f)

def MockCall.renumber (call : MockCall) : MockCall :=
  { call with args := Tree.renumberList f call.args }

def Pattern.renumber : Pattern → Pattern
  | .destructure pairs => .destructure (pairs.map (Prod.map id (·.renumber f)))
  | .alias v => .alias (v.renumber f)
  | .member property => .member property

def Site.renumber (site : Site) : Site := { site with pattern := site.pattern.renumber f }

def Reference.renumber (r : Reference) : Reference :=
  { r with usage := r.usage.map (Prod.map id (·.renumber f)) }

def Plan.renumber (plan : Plan) : Plan :=
  { plan with bindings := plan.bindings.renumber f, sites := plan.sites.map (·.renumber f) }

end

/-! ### Names -/

section

variable (f : Nat → Nat)

theorem ExportName.names_renumber (name : ExportName) : (name.renumber f).names = name.names := by
  cases name <;> rfl

theorem ExportName.text_renumber (name : ExportName) : (name.renumber f).text = name.text := by
  cases name <;> rfl

theorem ImportSpecifier.names_renumber (s : ImportSpecifier) :
    (s.renumber f).names = s.names := by
  cases s with
  | named _ _ imported _ =>
      cases imported with
      | none => rfl
      | some imported => exact congrArg (_ :: ·) (imported.names_renumber f)
  | default _ _ | star _ _ => rfl

theorem ExportSpecifier.names_renumber (s : ExportSpecifier) :
    (s.renumber f).names = s.names := by
  cases s with
  | named _ subject exported _ =>
      cases exported with
      | none => exact congrArg (· ++ []) (subject.names_renumber f)
      | some exported =>
          exact congrArg₂ (· ++ ·) (subject.names_renumber f) (exported.names_renumber f)
  | default exported => rfl
  | star _ name => exact name.names_renumber f

namespace Tree

theorem names_renumber (t : Tree) : names (renumber f t) = names t := by
  have list {ts : List Tree} (ih : ∀ t ∈ ts, names (renumber f t) = names t) :
      namesList (renumberList f ts) = namesList ts := by
    induction ts with
    | nil => rfl
    | cons t rest ihRest =>
        obtain ⟨here, later⟩ := List.forall_mem_cons.mp ih
        simp only [renumberList, namesList, here, ihRest later]
  induction t with
  | absent | leaf _ | context _ | name _ _ | string _ | ident _ _ | shorthand _ => rfl
  | items trees ih => exact list ih
  | binding _ _ ih => exact congrArg (_ :: ·) ih
  | paren _ _ _ ih | arg _ _ ih | exportDecl _ _ ih => exact ih
  | member _ _ _ _ ihA ihB | declarator _ _ _ _ ihA ihB | patternPair _ _ ihA ihB
  | pair _ _ ihA ihB => simp only [renumber, names, ihA, ihB]
  | call _ _ _ _ _ ihCallee ihArgs ihType =>
      simp only [renumber, names, ihCallee, list ihArgs, ihType]
  | declaration _ _ _ _ _ _ ih => exact list ih
  | objectPattern _ _ _ _ ihProperties ihType =>
      simp only [renumber, names, list ihProperties, ihType]
  | patternShorthand _ _ _ _ ihType ihValue =>
      simp only [renumber, names, ihType, ihValue]
      rfl
  | getter _ _ _ _ ihKey ihType ihBody => simp only [renumber, names, ihKey, ihType, ihBody]
  | importDecl _ specifiers _ _ _ _ ih =>
      simp only [renumber, names, ih, List.flatMap_map, ImportSpecifier.names_renumber]
  | exportNamed _ specifiers _ _ _ ih =>
      simp only [renumber, names, ih, List.flatMap_map, ExportSpecifier.names_renumber]
  | scope _ _ _ _ _ ihOuter ihInner => simp only [renumber, names, list ihOuter, list ihInner]
  | moduleBlock _ _ ih | node _ _ _ _ ih => exact list ih

end Tree

theorem Module.names_renumber (m : Module) : (m.renumber f).names = m.names :=
  Tree.names_renumber f (.items m.body)

end

section

variable {f : Nat → Nat}

/-! ### Bindings -/

theorem Variable.renumber_injective (inj : Function.Injective f) :
    Function.Injective (Variable.renumber f) := by
  rintro ⟨name, ctxt⟩ ⟨name', ctxt'⟩ same
  obtain ⟨names, ctxts⟩ := Variable.mk.inj same
  exact congrArg₂ Variable.mk names (inj ctxts)

theorem Binding.renumber_injective (inj : Function.Injective f) :
    Function.Injective (Binding.renumber f) := by
  rintro ⟨v, kind⟩ ⟨v', kind'⟩ same
  obtain ⟨vars, kinds⟩ := Binding.mk.inj same
  exact congrArg₂ Binding.mk (Variable.renumber_injective inj vars) kinds

section

variable (f)

theorem ImportSpecifier.namedBinding?_renumber (s : ImportSpecifier) :
    (s.renumber f).namedBinding? = s.namedBinding?.map (Binding.renumber f) := by
  cases s with
  | named _ _ imported _ =>
      cases imported with
      | none =>
          refine Eq.trans ?_ (apply_ite (Option.map (Binding.renumber f)) _ _ _).symm
          rfl
      | some imported =>
          simp only [renumber, namedBinding?, Option.map_some, imported.text_renumber f]
          split <;> rfl
  | default _ _ | star _ _ => rfl

theorem ImportSpecifier.starBinding?_renumber (s : ImportSpecifier) :
    (s.renumber f).starBinding? = s.starBinding?.map (Binding.renumber f) := by
  cases s <;> rfl

theorem Tree.mockSpecifiers_renumber (t : Tree) :
    (renumber f t).mockSpecifiers = t.mockSpecifiers.map (ImportSpecifier.renumber f) := by
  cases t with
  | importDecl _ _ _ _ _ _ =>
      simp only [renumber, mockSpecifiers]
      split <;> rfl
  | _ => rfl

namespace Bindings

theorem discover_renumber (body : List Tree) :
    discover (Tree.renumberList f body) = (discover body).renumber f := by
  simp only [discover, renumber, Tree.renumberList_eq_map, List.flatMap_map,
    Tree.mockSpecifiers_renumber, ← List.map_flatMap, List.filterMap_map, Function.comp_def,
    ImportSpecifier.namedBinding?_renumber, ImportSpecifier.starBinding?_renumber,
    List.map_append, List.map_filterMap]

theorem rootCtxt_renumber (zero : f 0 = 0) (bs : Bindings) :
    (bs.renumber f).rootCtxt = f bs.rootCtxt := by
  cases bs with
  | nil => exact zero.symm
  | cons b rest => rfl

end Bindings

end

variable (inj : Function.Injective f) (bs : Bindings)
include inj

namespace Bindings

theorem findIdx?_renumber (v : Variable) (kind : BindingKind) :
    (bs.renumber f).findIdx? (· = ⟨v.renumber f, kind⟩) = bs.findIdx? (· = ⟨v, kind⟩) := by
  have same (b : Binding) : b.renumber f = ⟨v.renumber f, kind⟩ ↔ b = ⟨v, kind⟩ :=
    (Binding.renumber_injective inj).eq_iff (b := ⟨v, kind⟩)
  simp only [renumber, List.findIdx?_map, Function.comp_def, same]

theorem named?_renumber (v : Variable) : (bs.renumber f).named? (v.renumber f) = bs.named? v :=
  bs.findIdx?_renumber inj v .named

theorem member?_renumber (object property : Tree) :
    (bs.renumber f).member? (object.renumber f) (property.renumber f) =
      bs.member? object property := by
  cases object with
  | ident role id =>
      cases role with
      | expr =>
          cases property with
          | name span text =>
              have found := bs.findIdx?_renumber inj id.var .star
              simp only [Tree.renumber, member?]
              exact congrArg (if text = mockName then · else none) found
          | _ => rfl
      | _ => rfl
  | _ => rfl

theorem reference?_renumber (t : Tree) :
    (bs.renumber f).reference? (t.renumber f) = bs.reference? t := by
  cases t with
  | ident role id =>
      cases role with
      | expr => exact bs.named?_renumber inj id.var
      | _ => rfl
  | member role span object property =>
      cases role with
      | expr => exact bs.member?_renumber inj object property
      | _ => rfl
  | _ => rfl

theorem callee?_renumber (t : Tree) :
    (bs.renumber f).callee? (t.renumber f) = bs.callee? t := by
  induction t with
  | paren role span inner ih => exact ih
  | ident role id => exact bs.reference?_renumber inj (.ident role id)
  | member role span object property _ _ =>
      exact bs.reference?_renumber inj (.member role span object property)
  | _ => rfl

theorem call?_renumber (t : Tree) :
    (bs.renumber f).call? (t.renumber f) = (bs.call? t).map (MockCall.renumber f) := by
  induction t with
  | paren role span inner ih => exact ih
  | call span ctxt callee args typeArgs _ _ _ =>
      simp only [Tree.renumber, call?, bs.callee?_renumber inj, Option.map_map]
      rfl
  | _ => rfl

end Bindings

end

/-! ### Call sites -/

section

variable (f : Nat → Nat)

namespace Tree

theorem isImportKeyword_renumber (t : Tree) :
    (t.renumber f).isImportKeyword = t.isImportKeyword := by
  cases t <;> rfl

theorem literal?_renumber (t : Tree) : (t.renumber f).literal? = t.literal? := by
  cases t <;> rfl

theorem plainArg?_renumber (args : List Tree) :
    plainArg? (renumberList f args) = (plainArg? args).map (renumber f) := by
  cases args with
  | nil => rfl
  | cons t rest =>
      cases t with
      | arg spread value => cases spread <;> cases rest <;> rfl
      | _ => rfl

theorem dynamicImport?_renumber (t : Tree) :
    (t.renumber f).dynamicImport? = t.dynamicImport? := by
  induction t with
  | paren _ _ _ ih => exact ih
  | call _ _ _ _ _ _ _ _ =>
      rw [renumber, dynamicImport?_call, dynamicImport?_call, isImportKeyword_renumber,
        plainArg?_renumber, Option.bind_map]
      simp only [Function.comp_def, literal?_renumber]
  | _ => rfl

theorem destructuredPair?_renumber (t : Tree) :
    (t.renumber f).destructuredPair? =
      t.destructuredPair?.map (Prod.map id (Variable.renumber f)) := by
  cases t with
  | patternShorthand _ _ _ value => cases value <;> rfl
  | patternPair key value =>
      cases key with
      | name _ _ => cases value <;> rfl
      | _ => rfl
  | _ => rfl

theorem targetPattern?_renumber (t : Tree) :
    (t.renumber f).targetPattern? = t.targetPattern?.map (Pattern.renumber f) := by
  cases t with
  | objectPattern _ properties _ _ =>
      simp only [renumber, targetPattern?, renumberList_eq_map, Option.map_map,
        mapM_map_of_commutes (destructuredPair?_renumber f)]
      rfl
  | _ => rfl

theorem propertyPattern?_renumber (t : Tree) :
    (t.renumber f).propertyPattern? = t.propertyPattern?.map (Pattern.renumber f) := by
  cases t <;> rfl

end Tree

theorem MockCall.specifier?_renumber (call : MockCall) :
    (call.renumber f).specifier? = call.specifier? := by
  rw [specifier?_eq_bind, specifier?_eq_bind, renumber, Tree.plainArg?_renumber, Option.bind_map]
  exact congrArg (Option.bind _) (funext (Tree.dynamicImport?_renumber f))

theorem MockCall.usage_renumber (call : MockCall) (consumer : Span) (pattern : Option Pattern) :
    (call.renumber f).usage consumer (pattern.map (Pattern.renumber f)) =
      (call.usage consumer pattern).map (Prod.map id (Pattern.renumber f)) := by
  simp only [usage, specifier?_renumber]
  cases call.specifier? with
  | none => rfl
  | some source => cases pattern <;> rfl

theorem Context.record_usage_renumber (c : Context) (call : MockCall) (consumer : Span)
    (pattern : Option Pattern) :
    c.record call.binding call.span ((call.renumber f).usage consumer
      (pattern.map (Pattern.renumber f))) =
      (c.record call.binding call.span (call.usage consumer pattern)).renumber f := by
  rw [call.usage_renumber f]
  rfl

theorem Context.unconsumed_renumber (c : Context) (call : MockCall) :
    c.unconsumed (call.renumber f) = (c.unconsumed call).renumber f :=
  c.record_usage_renumber f call (c.cited call.span) none

end

section

variable {f : Nat → Nat} {bs : Bindings}

/-- A tree that is renumbered has its references renumbered. The second half is for the
arguments of a call that a declarator or a member access takes up. -/
structure Tree.RefersAlike (f : Nat → Nat) (bs : Bindings) (t : Tree) : Prop where
  all : ∀ c, references (bs.renumber f) c (t.renumber f) =
    (references bs c t).map (Reference.renumber f)
  arguments : ∀ c, argReferences (bs.renumber f) c (t.renumber f) =
    (argReferences bs c t).map (Reference.renumber f)

variable (inj : Function.Injective f)
include inj

theorem ExportSpecifier.references_renumber (c : Context) (s : ExportSpecifier) :
    (s.renumber f).references (bs.renumber f) c =
      (s.references bs c).map (Reference.renumber f) := by
  cases s with
  | named _ subject _ _ =>
      cases subject with
      | string literal => rfl
      | ident subject =>
          simp only [renumber, ExportName.renumber, references, Ident.renumber,
            bs.named?_renumber inj]
          cases bs.named? subject.var <;> rfl
  | default _ | star _ _ => rfl

namespace Tree.RefersAlike

omit inj in
theorem list {ts : List Tree} (alike : ∀ t ∈ ts, RefersAlike f bs t) (c : Context) :
    referencesList (bs.renumber f) c (renumberList f ts) =
      (referencesList bs c ts).map (Reference.renumber f) := by
  induction ts with
  | nil => rfl
  | cons t rest ih =>
      obtain ⟨here, later⟩ := List.forall_mem_cons.mp alike
      simp only [renumberList, referencesList, here.all, ih later, List.map_append]

theorem ident (id : Ident) : RefersAlike f bs (.ident .expr id) := by
  refine ⟨fun c => ?_, fun _ => rfl⟩
  simp only [renumber, references, Ident.renumber, bs.named?_renumber inj]
  cases bs.named? id.var <;> rfl

theorem shorthand (id : Ident) : RefersAlike f bs (.shorthand id) := by
  refine ⟨fun c => ?_, fun _ => rfl⟩
  simp only [renumber, references, Ident.renumber, bs.named?_renumber inj]
  cases bs.named? id.var <;> rfl

theorem paren {inner : Tree} (alike : RefersAlike f bs inner) (role : Role) (span : Span) :
    RefersAlike f bs (.paren role span inner) := by
  refine ⟨fun c => ?_, alike.arguments⟩
  cases role with
  | expr =>
      simp only [renumber, references, bs.call?_renumber inj]
      cases bs.call? inner with
      | none => exact alike.all _
      | some m =>
          simp only [Option.map_some, List.map_cons, ← c.unconsumed_renumber f m,
            ← alike.arguments]
          rfl
  | _ => exact alike.all _

theorem member {object property : Tree} (alikeObject : RefersAlike f bs object)
    (alikeProperty : RefersAlike f bs property) (role : Role) (span : Span) :
    RefersAlike f bs (.member role span object property) := by
  refine ⟨fun c => ?_, fun _ => rfl⟩
  cases role with
  | expr =>
      simp only [renumber, references, bs.member?_renumber inj, bs.call?_renumber inj]
      cases bs.member? object property with
      | some b => rfl
      | none =>
          cases bs.call? object with
          | none => simp only [Option.map_none, alikeObject.all, alikeProperty.all, List.map_append]
          | some m =>
              have recorded := c.record_usage_renumber f m span property.propertyPattern?
              simp only [Option.map_some, property.propertyPattern?_renumber f, List.map_append,
                List.map_cons, alikeObject.arguments, alikeProperty.all, ← recorded]
              rfl
  | _ => simp only [renumber, references, alikeObject.all, alikeProperty.all, List.map_append]

theorem call {callee typeArgs : Tree} {args : List Tree} (alikeCallee : RefersAlike f bs callee)
    (alikeArgs : ∀ t ∈ args, RefersAlike f bs t) (alikeType : RefersAlike f bs typeArgs)
    (span : Span) (ctxt : Nat) : RefersAlike f bs (.call span ctxt callee args typeArgs) := by
  refine ⟨fun c => ?_, list alikeArgs⟩
  simp only [renumber, references, bs.callee?_renumber inj]
  cases bs.callee? callee with
  | none => simp only [alikeCallee.all, list alikeArgs, alikeType.all, List.map_append]
  | some b =>
      have recorded := c.unconsumed_renumber f ⟨b, span, args⟩
      simp only [List.map_cons, list alikeArgs, ← recorded]
      rfl

theorem declarator {target init : Tree} (alikeTarget : RefersAlike f bs target)
    (alikeInit : RefersAlike f bs init) (span : Span) (definite : Bool) :
    RefersAlike f bs (.declarator span target init definite) := by
  refine ⟨fun c => ?_, fun _ => rfl⟩
  simp only [renumber, references, bs.call?_renumber inj]
  cases bs.call? init with
  | none => simp only [Option.map_none, alikeTarget.all, alikeInit.all, List.map_append]
  | some m =>
      have recorded := c.record_usage_renumber f m span target.targetPattern?
      simp only [Option.map_some, target.targetPattern?_renumber f, List.map_append,
        List.map_cons, alikeTarget.all, alikeInit.arguments, ← recorded]
      rfl

theorem exportNamed (span : Span) (specifiers : List ExportSpecifier)
    (source : Option StringLiteral) (typeOnly : Bool) (attributes : Tree) :
    RefersAlike f bs (.exportNamed span specifiers source typeOnly attributes) := by
  refine ⟨fun c => ?_, fun _ => rfl⟩
  simp only [renumber, references, List.flatMap_map]
  split
  · rfl
  · rw [List.map_flatMap]
    exact List.flatMap_congr fun s _ => s.references_renumber inj c

end Tree.RefersAlike

theorem Tree.refersAlike (t : Tree) : RefersAlike f bs t := by
  have nothing (c : Context) : ([] : List Reference) = [].map (Reference.renumber f) := rfl
  induction t with
  | absent | leaf _ | context _ | name _ _ | string _ => exact ⟨nothing, nothing⟩
  | ident role id =>
      cases role with
      | expr => exact .ident inj id
      | _ => exact ⟨nothing, nothing⟩
  | shorthand id => exact .shorthand inj id
  | items trees ih => exact ⟨RefersAlike.list ih, nothing⟩
  | binding _ _ ih => exact ⟨ih.all, nothing⟩
  | arg _ _ ih => exact ⟨ih.all, nothing⟩
  | exportDecl span _ ih => exact ⟨fun c => ih.all (c.within span), nothing⟩
  | importDecl span _ _ _ _ _ ih => exact ⟨fun c => ih.all (c.within span), nothing⟩
  | exportNamed span specifiers source typeOnly attributes _ =>
      exact .exportNamed inj span specifiers source typeOnly attributes
  | paren role span _ ih => exact ih.paren inj role span
  | member role span _ _ ihObject ihProperty => exact ihObject.member inj ihProperty role span
  | call span ctxt _ _ _ ihCallee ihArgs ihType =>
      exact ihCallee.call inj ihArgs ihType span ctxt
  | declaration _ _ _ _ _ _ ih => exact ⟨fun c => RefersAlike.list ih _, nothing⟩
  | declarator span _ _ definite ihTarget ihInit =>
      exact ihTarget.declarator inj ihInit span definite
  | objectPattern _ _ _ _ ihProperties ihType =>
      refine ⟨fun c => ?_, nothing⟩
      simp only [renumber, references, RefersAlike.list ihProperties, ihType.all, List.map_append]
  | patternShorthand _ _ _ _ ihType ihValue =>
      refine ⟨fun c => ?_, nothing⟩
      simp only [renumber, references, ihType.all, ihValue.all, List.map_append]
  | patternPair key value ihKey ihValue | pair key value ihKey ihValue =>
      refine ⟨fun c => ?_, nothing⟩
      simp only [renumber, references, span_renumber, ihKey.all, ihValue.all, List.map_append]
  | getter _ _ _ _ ihKey _ ihBody =>
      refine ⟨fun c => ?_, nothing⟩
      simp only [renumber, references, ihKey.all, ihBody.all, List.map_append]
  | scope _ _ _ _ _ ihOuter ihInner =>
      refine ⟨fun c => ?_, nothing⟩
      simp only [renumber, references, RefersAlike.list ihOuter, RefersAlike.list ihInner,
        List.map_append]
  | moduleBlock _ _ ih => exact ⟨fun c => RefersAlike.list ih _, nothing⟩
  | node _ _ _ _ ih => exact ⟨fun c => RefersAlike.list ih _, nothing⟩

theorem Module.references_renumber (m : Module) (bs : Bindings) :
    (m.renumber f).references (bs.renumber f) =
      (m.references bs).map (Reference.renumber f) :=
  (Tree.refersAlike inj (.items m.body)).all .root

end

/-! ### Plans -/

section

variable (f : Nat → Nat)

theorem Reference.site?_renumber (r : Reference) :
    (r.renumber f).site? = r.site?.map (Site.renumber f) := by
  obtain ⟨b, span, atRoot, usage⟩ := r
  cases usage <;> rfl

theorem Reference.fault?_renumber (r : Reference) : (r.renumber f).fault? = r.fault? := by
  obtain ⟨b, span, atRoot, usage⟩ := r
  cases usage <;> rfl

namespace Plan

theorem processingOrder_renumber (bs : Bindings) (refs : List Reference) :
    processingOrder (bs.renumber f) (refs.map (Reference.renumber f)) =
      processingOrder bs refs := by
  simp only [processingOrder, Bindings.renumber, List.length_map, List.getElem?_map,
    Option.map_map]
  rfl

theorem failure?_renumber (source : Option String) (refs : List Reference) (order : List Nat) :
    failure? source (refs.map (Reference.renumber f)) order = failure? source refs order := by
  have below : (refs.map (Reference.renumber f)).find? (!·.atRoot) =
      (refs.find? (!·.atRoot)).map (Reference.renumber f) :=
    List.find?_map
  simp only [failure?, below, List.getElem?_map, Option.bind_map, Function.comp_def,
    Reference.fault?_renumber]
  cases refs.find? (!·.atRoot) <;> rfl

/-- The plan of a renumbered module is the renumbered plan. -/
theorem ofModule_renumber (inj : Function.Injective f) (m : Module) (source : Option String) :
    ofModule (m.renumber f) source = (ofModule m source).map (Plan.renumber f) := by
  have bindings : Bindings.discover (m.renumber f).body = (Bindings.discover m.body).renumber f :=
    Bindings.discover_renumber f m.body
  have isEmpty : ((Bindings.discover m.body).renumber f).isEmpty =
      (Bindings.discover m.body).isEmpty := List.isEmpty_map
  simp only [ofModule, bindings, isEmpty, m.references_renumber inj, processingOrder_renumber,
    failure?_renumber, m.names_renumber f, List.filterMap_map, Function.comp_def,
    Reference.site?_renumber, ← List.map_filterMap, List.isEmpty_map]
  split
  · rfl
  · split <;> rfl

end Plan

end

end MockImport
