import MockImport.Proofs.Acceptance
import MockImport.Proofs.Meaning
import MockImport.Proofs.Registrations
import MockImport.Proofs.Rewritten

/-!
The layout of an expansion, in closed form. The generated imports stand on top, the
registrations right behind the last import of the module, and between and after them the
items of the module itself, settled and renamed. It is what generating items one by one, as
call sites are processed, and then settling and renaming all of them comes to.
-/

namespace MockImport

namespace Bindings

variable {body : List Tree}

theorem mem_discover_iff {b : Binding} : b ∈ discover body ↔
    ∃ s ∈ body.flatMap Tree.mockSpecifiers,
      s.namedBinding? = some b ∨ s.starBinding? = some b := by
  simp only [discover, List.mem_append, List.mem_filterMap, and_or_left, exists_or]

theorem any_isImport_of_discover (bound : discover body ≠ []) :
    body.any Tree.isImport = true := by
  obtain ⟨b, mem⟩ := List.exists_mem_of_ne_nil _ bound
  obtain ⟨s, isSpecifier, -⟩ := mem_discover_iff.mp mem
  obtain ⟨t, isItem, imported⟩ := List.mem_flatMap.mp isSpecifier
  refine List.any_eq_true.mpr ⟨t, isItem, ?_⟩
  cases t with
  | importDecl _ _ _ _ _ _ => rfl
  | _ => cases imported

theorem kind_of_named (specifiers : List ImportSpecifier) :
    ∀ b ∈ specifiers.filterMap ImportSpecifier.namedBinding?, b.kind = .named := by
  intro b mem
  obtain ⟨s, -, found⟩ := List.mem_filterMap.mp mem
  rw [(ImportSpecifier.of_namedBinding? found).1]

theorem kind_of_star (specifiers : List ImportSpecifier) :
    ∀ b ∈ specifiers.filterMap ImportSpecifier.starBinding?, b.kind = .star := by
  intro b mem
  obtain ⟨s, -, found⟩ := List.mem_filterMap.mp mem
  rw [(ImportSpecifier.of_starBinding? found).1]

/-- Named bindings come before those of the whole mock module. -/
theorem discover_sorted (body : List Tree) :
    (discover body).Pairwise fun a b => a.kind = .star → b.kind = .star := by
  refine List.pairwise_append.mpr ⟨?_, ?_, ?_⟩
  · refine List.pairwise_of_forall_mem_list fun a mem _ _ star => ?_
    rw [kind_of_named _ a mem] at star
    cases star
  · exact List.pairwise_of_forall_mem_list fun _ _ b mem _ => kind_of_star _ b mem
  · exact fun _ _ b mem _ => kind_of_star _ b mem

theorem vars_sublist {binding? : ImportSpecifier → Option Binding}
    (own : ∀ s b, binding? s = some b → b.var = s.var) {ss us : List ImportSpecifier}
    (among : ss.Sublist us) :
    ((ss.filterMap binding?).map Binding.var).Sublist (us.map ImportSpecifier.var) := by
  refine .trans ?_ (among.map ImportSpecifier.var)
  clear among
  induction ss with
  | nil => exact .slnil
  | cons s rest ih =>
      cases found : binding? s with
      | none =>
          rw [List.filterMap_cons_none found]
          exact ih.cons _
      | some b =>
          rw [List.filterMap_cons_some found, List.map_cons, own s b found]
          exact ih.cons_cons _

theorem mockSpecifiers_sublist (body : List Tree) :
    (body.flatMap Tree.mockSpecifiers).Sublist (body.flatMap Tree.importSpecifiers) := by
  induction body with
  | nil => exact .slnil
  | cons t rest ih =>
      have here : t.mockSpecifiers.Sublist t.importSpecifiers := by
        cases t with
        | importDecl _ _ _ _ _ _ =>
            rw [Tree.mockSpecifiers]
            split
            · exact .refl _
            · exact List.nil_sublist _
        | _ => exact .slnil
      exact here.append ih

theorem filter_discover (body : List Tree) :
    (discover body).filter (·.kind = .named) =
        (body.flatMap Tree.mockSpecifiers).filterMap ImportSpecifier.namedBinding? ∧
      (discover body).filter (·.kind = .star) =
        (body.flatMap Tree.mockSpecifiers).filterMap ImportSpecifier.starBinding? := by
  have named := kind_of_named (body.flatMap Tree.mockSpecifiers)
  have star := kind_of_star (body.flatMap Tree.mockSpecifiers)
  constructor
  · rw [discover, List.filter_append, List.filter_eq_self.mpr fun b mem => by simp [named b mem],
      List.filter_eq_nil_iff.mpr fun b mem => by simp [star b mem], List.append_nil]
  · rw [discover, List.filter_append, List.filter_eq_nil_iff.mpr fun b mem => by simp [named b mem],
      List.filter_eq_self.mpr fun b mem => by simp [star b mem], List.nil_append]

/-- The bindings of a kind come in the order in which the imports of the module declare them. -/
theorem discover_sublist (m : Module) (kind : BindingKind) :
    (((discover m.body).filter (·.kind = kind)).map Binding.var).Sublist m.importLocals := by
  obtain ⟨named, star⟩ := filter_discover m.body
  have among := mockSpecifiers_sublist m.body
  cases kind with
  | named =>
      rw [named]
      exact vars_sublist (fun s b found => by
        rw [(ImportSpecifier.of_namedBinding? found).1]) among
  | star =>
      rw [star]
      exact vars_sublist (fun s b found => by
        rw [(ImportSpecifier.of_starBinding? found).1]) among

end Bindings

section

variable {α β : Type}

theorem filterMap_getElem?_range (xs : List α) :
    (List.range xs.length).filterMap (xs[·]?) = xs := by
  induction xs with
  | nil => rfl
  | cons x rest ih =>
      rw [List.length_cons, List.range_succ_eq_map]
      exact congrArg (x :: ·) (List.filterMap_map.trans ih)

/-- The entries with a given key, by their positions. -/
theorem filterMap_getElem?_filter_range [DecidableEq β] (xs : List α) (key : α → β) (b : β) :
    ((List.range xs.length).filter fun i => xs[i]?.map key = some b).filterMap (xs[·]?) =
      xs.filter (key · = b) := by
  conv => rhs; rw [← filterMap_getElem?_range xs]
  rw [List.filterMap_filter, List.filter_filterMap]
  refine List.filterMap_congr fun i _ => ?_
  cases xs[i]? <;> simp [Option.filter]

/-- Sorting by a bounded key loses nothing. -/
theorem perm_flatMap_filter (xs : List α) (key : α → Nat) (n : Nat)
    (bound : ∀ x ∈ xs, key x < n) :
    ((List.range n).flatMap fun k => xs.filter (key · = k)).Perm xs := by
  have upTo (n : Nat) : ((List.range n).flatMap fun k => xs.filter (key · = k)).Perm
      (xs.filter (key · < n)) := by
    induction n with
    | zero => simp
    | succ n ih =>
        have parts := List.filter_append_perm (key · < n) (xs.filter (key · < n + 1))
        have below : (xs.filter (key · < n + 1)).filter (key · < n) = xs.filter (key · < n) := by
          rw [List.filter_filter]
          exact List.filter_congr fun x _ => by simp; omega
        have last : (xs.filter (key · < n + 1)).filter (fun x => !decide (key x < n)) =
            xs.filter (key · = n) := by
          rw [List.filter_filter]
          exact List.filter_congr fun x _ => by grind
        rw [below, last] at parts
        rw [List.range_succ, List.flatMap_append, List.flatMap_singleton]
        exact (ih.append_right _).trans parts
  refine (upTo n).trans (List.Perm.of_eq ?_)
  exact List.filter_eq_self.mpr fun x mem => decide_eq_true (bound x mem)

end

theorem Reference.binding_site? {r : Reference} (accepted : r.Accepted) :
    r.site?.map Site.binding = some r.binding := by
  obtain ⟨b, span, atRoot, usage⟩ := r
  cases usage with
  | ok taken => rfl
  | error at_ => cases accepted.2

namespace Plan

/-- The sites in processing order: by binding, and then as the module has them. -/
def processed (plan : Plan) : List Site :=
  (List.range plan.bindings.length).flatMap fun b => plan.sites.filter (·.binding = b)

section

variable {m : Module} {source : Option String} {plan : Plan}
  (ok : ofModule m source = .ok plan)
include ok

theorem discover_of_ok : plan.bindings = .discover m.body := by
  obtain ⟨-, rfl⟩ := ofModule_eq_ok_iff.mp ok
  rfl

/-- A site belongs to the binding that its reference belongs to. -/
theorem bindings_of_ok :
    (m.references plan.bindings).map Reference.binding = plan.sites.map Site.binding := by
  have made := congrArg (List.map (Option.map Site.binding)) (sites_of_ok ok)
  have references : (m.references plan.bindings).map (fun r => r.site?.map Site.binding) =
      (m.references plan.bindings).map (some ·.binding) :=
    List.map_congr_left fun r mem => Reference.binding_site? (accepted_of_ok ok r mem)
  rw [List.map_map, List.map_map] at made
  apply List.map_injective_iff.mpr fun _ _ => Option.some.inj
  rw [List.map_map, List.map_map]
  exact references.symm.trans made

theorem filterMap_order : plan.order.filterMap (plan.sites[·]?) = plan.processed := by
  have bindings := bindings_of_ok ok
  have length := congrArg List.length bindings
  have at_ (i : Nat) := congrArg (·[i]?) bindings
  simp only [List.length_map, List.getElem?_map] at length at_
  have order : plan.order = processingOrder plan.bindings (m.references plan.bindings) := by
    obtain ⟨-, rfl⟩ := ofModule_eq_ok_iff.mp ok
    rfl
  simp only [order, processingOrder, processed, List.filterMap_flatMap, length, at_,
    filterMap_getElem?_filter_range]

theorem requests_eq : plan.requests = plan.processed.flatMap Site.requests := by
  rw [plan.requests_eq_flatMap, filterMap_order ok]

theorem processed_perm : plan.processed.Perm plan.sites := by
  apply perm_flatMap_filter
  intro site mem
  obtain ⟨r, isReference, same⟩ := List.mem_map.mp
    ((bindings_of_ok ok).symm ▸ List.mem_map_of_mem mem : site.binding ∈ _)
  rw [← same]
  exact m.references_bindings _ r isReference

/-- What a module with call sites has imported can be registered behind an import. -/
theorem any_isImport_of_sites (sites : plan.sites ≠ []) : m.body.any Tree.isImport = true := by
  apply Bindings.any_isImport_of_discover
  intro unbound
  have none := sites_of_ok ok
  obtain ⟨-, rfl⟩ := ofModule_eq_ok_iff.mp ok
  simp only [drawn, unbound, m.references_nil] at sites
  exact sites rfl

end

theorem groups_generated (plan : Plan) (options : Options) (hasImport : Bool) :
    (plan.process options hasImport).imports.generated.map GeneratedImport.group =
      (plan.wanted.map Wanted.group).eraseDups.reverse := by
  rw [plan.process_generated, List.map_reverse, GeneratedImport.groups_listing]

end Plan

namespace Tree

theorem importing?_settled {bs : Bindings} {t u : Tree} (settled : Settled bs t u) :
    u.importing? = t.importing? := by
  obtain ⟨actions, rfl⟩ := settled
  cases t with
  | member role span object property =>
      obtain ⟨-, same | ⟨_, same⟩⟩ | ⟨-, _, same⟩ :=
        settle_member_cases bs role span object property actions <;> rw [same] <;> rfl
  | _ => rfl

theorem importing?_rename (r : Renaming) (t : Tree) :
    (rename r t).importing? =
      t.importing?.map fun head => (head.1.map (ImportSpecifier.rename r), head.2) := by
  cases t with
  | shorthand id =>
      simp only [rename, Ident.renameShorthand]
      split <;> rfl
  | exportNamed _ _ source _ _ => cases source <;> rfl
  | _ => rfl

theorem importing?_of_isEmptied {t : Tree} (emptied : t.isEmptied = true) :
    t.importing? = none := by
  cases t with
  | importDecl _ _ _ _ _ _ => cases emptied
  | _ => rfl

theorem filterMap_importing?_settled {bs : Bindings} {ts us : List Tree}
    (settled : List.Forall₂ (Settled bs) ts us) :
    us.filterMap importing? = ts.filterMap importing? := by
  induction settled with
  | nil => rfl
  | cons same _ ih => simp only [List.filterMap_cons, importing?_settled same, ih]

/-- Settling and renaming change nothing of what imports take but the names. -/
theorem importing?_settleItems (bs : Bindings) (r : Renaming) (items : List Tree)
    (actions : List SiteAction) :
    (renameList r ((settleItems bs items).run actions).1).filterMap importing? =
      (items.filterMap importing?).map
        fun head => (head.1.map (ImportSpecifier.rename r), head.2) := by
  have kept : ((settleItems bs items).run actions).1.filterMap importing? =
      ((settleList bs items).run actions).1.filterMap importing? := by
    refine List.filterMap_filter.trans (List.filterMap_congr fun t _ => ?_)
    cases emptied : t.isEmptied with
    | true => exact (importing?_of_isEmptied emptied).symm
    | false => rfl
  have settled := filterMap_importing?_settled (settleList_settled bs items actions)
  rw [← settled, ← kept, renameList_eq_map, List.filterMap_map, List.map_filterMap]
  exact List.filterMap_congr fun t _ => importing?_rename r t

end Tree

theorem Progress.importing?_carried (p : Progress) (bs : Bindings) (body : List Tree) :
    ((p.carried bs body).1 ++ (p.carried bs body).2).filterMap Tree.importing? =
      (body.filterMap Tree.importing?).map
        fun head => (head.1.map (ImportSpecifier.rename p.renames), head.2) := by
  conv => rhs; rw [← splitAtImports_append body]
  simp only [Progress.carried, List.filterMap_append, Tree.importing?_settleItems, List.map_append]

theorem Tree.isEmptied_settleItems (bs : Bindings) (r : Renaming) (items : List Tree)
    (actions : List SiteAction) :
    ∀ t ∈ renameList r ((settleItems bs items).run actions).1, t.isEmptied = false := by
  rw [renameList_eq_map, List.forall_mem_map]
  intro t mem
  have kept : t ∈ ((settleList bs items).run actions).1.filter (!·.isEmptied) := mem
  rw [isEmptied_rename]
  simpa using (List.mem_filter.mp kept).2

theorem Progress.marksList_carried (p : Progress) (bs : Bindings) (body : List Tree) :
    Tree.marksList (p.carried bs body).1 ++ Tree.marksList (p.carried bs body).2 =
      (Slot.fill (Tree.slotsList bs body) p.allActions).flatMap (Mark.renamed p.renames) := by
  have upTo := Tree.settleItems_followed bs (splitAtImports body).1 p.allActions
  have after := Tree.settleItems_followed bs (splitAtImports body).2
    ((Tree.settleItems bs (splitAtImports body).1).run p.allActions).2
  rw [(Prod.mk.inj upTo).2] at after
  conv => rhs; rw [← splitAtImports_append body]
  rw [Tree.slotsList_append, Slot.fill_append, List.flatMap_append, ← (Prod.mk.inj upTo).1,
    ← (Prod.mk.inj after).1, ← Tree.marksList_rename, ← Tree.marksList_rename,
    ← (Prod.mk.inj upTo).2]
  rfl

namespace Plan

variable (plan : Plan)

/-- The imports that sites call for, one for each module and kind, in the order of the first
requests. -/
def groups : List ImportGroup := (plan.wanted.map Wanted.group).eraseDups

/-- The local identifier for something wanted. -/
def localOf (p : Progress) (w : Wanted) : Ident :=
  ⟨⟨0, 0⟩, ⟨p.imports.nameOf w, plan.bindings.rootCtxt⟩, false⟩

/-- The imports on top of an expansion, the latest first. -/
def importItems (p : Progress) : List Tree :=
  plan.groups.reverse.map (Tree.importOfGroup (plan.localOf p) plan.wanted)

/-- A registration for every site, the latest first, unless they are left out. -/
def registrationItems (options : Options) : List Tree :=
  if options.skipRegistration then []
  else plan.processed.reverse.map fun site => Tree.jestMock site.specifier

end Plan

namespace Module

/-- An expansion from top to bottom, and in which order it is made up. -/
structure LaidOut (m m' : Module) (plan : Plan) (options : Options) (p : Progress) : Prop where
  body : m'.body = plan.importItems p ++ (p.carried plan.bindings m.body).1 ++
    plan.registrationItems options ++ (p.carried plan.bindings m.body).2
  /-- Generating imports and registrations one by one puts them in the same places. -/
  drafted : (m.draft plan options).body = plan.importItems p ++ (splitAtImports m.body).1 ++
    plan.registrationItems options ++ (splitAtImports m.body).2
  /-- What is generated is settled and renamed along with the items of the module. -/
  settled : m'.body = Tree.renameList p.renames
    ((Tree.settleItems plan.bindings (m.draft plan options).body).run p.allActions).1
  last : ∃ before last, last.importing?.isSome = true ∧
    (splitAtImports m.body).1 = before ++ [last]
  rest : ∀ t ∈ (splitAtImports m.body).2, t.importing?.isSome = false
  whole : (splitAtImports m.body).1 ++ (splitAtImports m.body).2 = m.body
  /-- There is one import for each module and kind wanted. -/
  once : plan.groups.Nodup
  groups : ∀ g, g ∈ plan.groups ↔ g ∈ plan.wanted.map Wanted.group
  wanted : plan.wanted = plan.processed.flatMap (·.requests.map Request.wanted)
  /-- Sites are processed by binding, and then as they stand in the module. -/
  processed : plan.processed.Perm plan.sites
  /-- Bindings are numbered by kind, named ones first, and then as the imports declare them. -/
  bindings : plan.bindings = .discover m.body
  kinds : plan.bindings.Pairwise fun a b => a.kind = .star → b.kind = .star
  declared : ∀ kind,
    ((plan.bindings.filter (·.kind = kind)).map Binding.var).Sublist m.importLocals
  /-- The imports bind the names that call sites and aliases are replaced by. -/
  locals : ∀ w ∈ plan.wanted, (m.draft plan options).entries.lookup w = some (plan.localOf p w) ∧
    p.imports.find? w = some (plan.localOf p w).var
  actions : p.allActions = plan.sites.map (·.action p.imports)
  renames : ∀ v, p.renames.lookup v =
    (lastRequest? plan.requests v).bind (p.imports.find? ·.wanted)
  /-- No import of the module is extended. -/
  imports : ((p.carried plan.bindings m.body).1 ++
      (p.carried plan.bindings m.body).2).filterMap Tree.importing? =
    (m.body.filterMap Tree.importing?).map
      fun head => (head.1.map (ImportSpecifier.rename p.renames), head.2)
  /-- The items of the module stay in their order, with call sites removed or replaced. -/
  upTo : Thinned (Tree.Rewritten plan.bindings plan.aliases) (Tree.DeclaresSites plan.bindings)
    (splitAtImports m.body).1 (p.carried plan.bindings m.body).1
  after : Thinned (Tree.Rewritten plan.bindings plan.aliases) (Tree.DeclaresSites plan.bindings)
    (splitAtImports m.body).2 (p.carried plan.bindings m.body).2
  /-- No declaration among them is left without declarators. -/
  declares : ∀ t ∈ (p.carried plan.bindings m.body).1 ++ (p.carried plan.bindings m.body).2,
    t.declaresNothing = false ∧
      ∀ span declaration, t = .exportDecl span declaration → declaration.declaresNothing = false
  /-- What they hold in the end: the slots of the module with the actions filled in one after
  another, and then renamed. -/
  marks : Tree.marksList (p.carried plan.bindings m.body).1 ++
      Tree.marksList (p.carried plan.bindings m.body).2 =
    (Slot.fill (Tree.slotsList plan.bindings m.body) p.allActions).flatMap
      (Mark.renamed p.renames)
  /-- If settling meets the sites of the plan, every site is settled by its own action. -/
  own : Tree.metList plan.bindings m.body = plan.sites.map some →
    p.carried plan.bindings m.body =
      (p.expandItems plan.bindings (splitAtImports m.body).1,
        p.expandItems plan.bindings (splitAtImports m.body).2)
  /-- It does if it keeps step with the plan. -/
  inStep : m.InStep plan.bindings → Tree.metList plan.bindings m.body = plan.sites.map some

section

variable {m : Module} {source : Option String} {plan : Plan}
  (ok : Plan.ofModule m source = .ok plan) (options : Options)
include ok

theorem registered_progress (sites : plan.sites ≠ []) :
    (m.progress plan options).registered =
      if options.skipRegistration then [] else plan.processed.reverse.map Site.specifier := by
  rw [progress, Plan.registered_process, Plan.any_isImport_of_sites ok sites, Plan.registers,
    registering_true, Plan.filterMap_order ok, List.map_reverse]

omit ok in
theorem ctxt_progress :
    (m.progress plan options).imports.ctxt = plan.bindings.rootCtxt := by
  rw [progress, plan.process_imports, Imports.serveAll_ctxt]

omit ok in
theorem declarations_progress : (m.progress plan options).imports.declarations =
    plan.importItems (m.progress plan options) := by
  have generated : (m.progress plan options).imports.generated = _ :=
    plan.process_generated options _
  rw [Imports.declarations, generated, ctxt_progress, GeneratedImport.listing, ← List.map_reverse,
    List.map_map]
  exact List.map_congr_left fun g _ => GeneratedImport.toTree_declare ..

theorem registrations_progress (sites : plan.sites ≠ []) :
    (m.progress plan options).registered.map registration = plan.registrationItems options := by
  rw [registered_progress ok options sites, Plan.registrationItems, registration_eq_jestMock]
  split
  · rfl
  · exact List.map_map

theorem body_apply_carried (sites : plan.sites ≠ []) (declared : ∀ v ∈ plan.aliases, v.ctxt ≠ 0) :
    (m.apply plan options).body = plan.importItems (m.progress plan options) ++
      ((m.progress plan options).carried plan.bindings m.body).1 ++
        plan.registrationItems options ++
          ((m.progress plan options).carried plan.bindings m.body).2 := by
  rw [body_apply_surroundings, surroundings, rename_declarations ok options sites declared,
    rename_registrations ok options declared, declarations_progress,
    registrations_progress ok options sites]

theorem carried_of_met (met : Tree.metList plan.bindings m.body = plan.sites.map some) :
    (m.progress plan options).carried plan.bindings m.body =
      ((m.progress plan options).expandItems plan.bindings (splitAtImports m.body).1,
        (m.progress plan options).expandItems plan.bindings (splitAtImports m.body).2) := by
  rw [← splitAtImports_append m.body, Tree.metList_append] at met
  have actions : (m.progress plan options).allActions =
      (Tree.metList plan.bindings (splitAtImports m.body).1).map
          (m.progress plan options).imports.actionFor ++
        (Tree.metList plan.bindings (splitAtImports m.body).2).map
          (m.progress plan options).imports.actionFor := by
    rw [← List.map_append, met, List.map_map, actions_of_ok ok options]
    rfl
  have upTo := Tree.settleItems_comes plan.bindings (m.progress plan options).imports.actionFor
    (splitAtImports m.body).1 ((Tree.metList plan.bindings (splitAtImports m.body).2).map
      (m.progress plan options).imports.actionFor)
  have after := Tree.settleItems_run plan.bindings (m.progress plan options).imports.actionFor
    (splitAtImports m.body).2
  rw [← Tree.metList, ← actions] at upTo
  simp only [Progress.carried, upTo, after]
  rfl

/-- Settling and renaming rewrite the items of the module and keep their order. -/
theorem thinned_rewritten (items : List Tree) (actions : List SiteAction) :
    Thinned (Tree.Rewritten plan.bindings plan.aliases) (Tree.DeclaresSites plan.bindings) items
      (Tree.renameList (m.progress plan options).renames
        ((Tree.settleItems plan.bindings items).run actions).1) := by
  have spares : (m.progress plan options).renames.Spares plan.aliases :=
    fun v free => (lookup_renames_eq_none_iff ok options v).mpr free
  rw [Tree.renameList_eq_map]
  exact (Tree.thinned_settleItems plan.bindings items actions).map_right fun _ _ _ settled =>
    Tree.rewritten_of_halfSettled spares (.inl settled)

theorem locals_progress (sites : plan.sites ≠ []) :
    ∀ w ∈ plan.wanted, (m.draft plan options).entries.lookup w =
        some (plan.localOf (m.progress plan options) w) ∧
      (m.progress plan options).imports.find? w =
        some (plan.localOf (m.progress plan options) w).var := by
  intro w wanted
  refine ⟨m.lookup_draft plan options wanted, ?_⟩
  obtain ⟨r, asked, rfl⟩ := List.mem_map.mp wanted
  obtain ⟨v, found⟩ := m.find?_of_request options asked
  have ctxt := ((Imports.find?_eq_some_iff (progress_sound ok options sites)).mp found).1
  rw [ctxt_progress] at ctxt
  rw [Plan.localOf, Imports.nameOf, found, ← ctxt]
  rfl

theorem apply_laidOut (sites : plan.sites ≠ []) (declared : ∀ v ∈ plan.aliases, v.ctxt ≠ 0) :
    m.LaidOut (m.apply plan options) plan options (m.progress plan options) where
  body := body_apply_carried ok options sites declared
  drafted := by
    rw [m.body_draft, Progress.assemble, declarations_progress,
      registrations_progress ok options sites]
  settled := m.body_apply_draft plan options
  last := by
    obtain ⟨before, last, isImport, ends⟩ :=
      splitAtImports_last (Plan.any_isImport_of_sites ok sites)
    exact ⟨before, last, last.isImport_eq_importing? ▸ isImport, ends⟩
  rest t mem := t.isImport_eq_importing? ▸ (splitAtImports_cases m.body).2 t mem
  whole := splitAtImports_append m.body
  once := nodup_eraseDups _
  groups _ := List.mem_eraseDups
  wanted := by
    rw [Plan.wanted, Plan.requests_eq ok, List.map_flatMap]
  processed := Plan.processed_perm ok
  bindings := Plan.discover_of_ok ok
  kinds := by
    rw [Plan.discover_of_ok ok]
    exact Bindings.discover_sorted m.body
  declared := by
    rw [Plan.discover_of_ok ok]
    exact Bindings.discover_sublist m
  locals := locals_progress ok options sites
  actions := actions_of_ok ok options
  renames := m.lookup_renames plan options
  imports := (m.progress plan options).importing?_carried plan.bindings m.body
  upTo := thinned_rewritten ok options _ _
  after := thinned_rewritten ok options _ _
  declares := by
    simp only [← Tree.isEmptied_eq_false_iff, List.forall_mem_append]
    exact ⟨Tree.isEmptied_settleItems _ _ _ _, Tree.isEmptied_settleItems _ _ _ _⟩
  marks := (m.progress plan options).marksList_carried plan.bindings m.body
  own := carried_of_met ok options
  inStep := metList_of_inStep ok

end

/-- An expansion is laid out as planned if its aliases are resolved. -/
theorem expand_laidOut {m m' : Module} {source : Option String} {plan : Plan} {options : Options}
    {count : Nat} (ok : Plan.ofModule m source = .ok plan) (sites : plan.sites ≠ [])
    (declared : ∀ v ∈ plan.aliases, v.ctxt ≠ 0)
    (expanded : m.expand source options = .ok (count, m')) :
    m.LaidOut m' plan options (m.progress plan options) := by
  obtain ⟨plan', ok', -, result⟩ := expand_cases expanded
  obtain rfl : plan' = plan := Except.ok.inj (ok'.symm.trans ok)
  obtain ⟨none, -⟩ | ⟨-, rfl⟩ := result
  · exact absurd none sites
  · exact apply_laidOut ok options sites declared

theorem expand_laidOut_plain :
    ∃ m', Sample.plain.expand none {} = .ok (3, m') ∧
      Sample.plain.LaidOut m' (.drawn Sample.plain) {}
        (Sample.plain.progress (.drawn Sample.plain) {}) := by
  obtain ⟨m', expanded⟩ : ∃ m', Sample.plain.expand none {} = .ok (3, m') := ⟨_, rfl⟩
  exact ⟨m', expanded, expand_laidOut Sample.plan_plain (by decide) (by decide) expanded⟩

end Module
end MockImport
