import MockImport.Proofs.PlainModules
import MockImport.Proofs.Redirects

/-!
What an expansion means for a plain module. A member access that was a call site is one
identifier that a generated import binds, a declarator that was one is gone, and an
identifier that was an alias stands for the import of what the alias stood for.
-/

namespace MockImport

namespace Site

/-- A variable that a site declares, and what it stands for. -/
inductive Declares (site : Site) : Variable → Wanted → Prop where
  | pair {pairs : List (String × Variable)} {property : String} {v : Variable}
      (destructures : site.pattern = .destructure pairs) (mem : (property, v) ∈ pairs) :
      Declares site v ⟨site.specifier, some property⟩
  | alias {v : Variable} (names : site.pattern = .alias v) :
      Declares site v ⟨site.specifier, none⟩

theorem request_of_declares {site : Site} {v : Variable} {w : Wanted}
    (declares : site.Declares v w) :
    ∃ r ∈ site.requests, r.replaced = some v ∧ r.wanted = w := by
  obtain ⟨destructures, mem⟩ | names := declares
  · rw [requests, destructures]
    exact ⟨_, List.mem_map.mpr ⟨_, mem, rfl⟩, rfl, rfl⟩
  · rw [requests, names]
    exact ⟨_, List.mem_singleton_self _, rfl, rfl⟩

theorem declares_of_mem_aliases {site : Site} {v : Variable} (mem : v ∈ site.aliases) :
    ∃ w, site.Declares v w := by
  rw [aliases] at mem
  cases pattern : site.pattern with
  | destructure pairs =>
      rw [pattern] at mem
      obtain ⟨⟨property, v⟩, isPair, rfl⟩ := List.mem_map.mp mem
      exact ⟨_, .pair pattern isPair⟩
  | member property =>
      rw [pattern] at mem
      cases mem
  | _ =>
      rw [pattern] at mem
      obtain rfl := List.mem_singleton.mp mem
      exact ⟨_, .alias pattern⟩

end Site

/-- What is left in an expansion of a slot of the module: nothing of a declarator that was
a call site, one identifier of a member access that was one, the identifier of the import in
place of an alias, and everything else as it was. -/
inductive Slot.Becomes (sites : List Site) (generated : List Tree) : Slot → List Mark → Prop where
  | declaration (site : Option Site) : Becomes sites generated (.declaration site) []
  | access {site : Site} {property : String} {v : Variable} (standing : Standing)
      (held : List Mark) (mem : site ∈ sites) (accesses : site.pattern = .member property)
      (imported : Tree.Import generated ⟨site.specifier, some property⟩ v) :
      Becomes sites generated (.access (some site) standing held) [.ident standing .generated v]
  | redirected {standing : Standing} {site : Site} {v new : Variable} {w : Wanted} (span : Span)
      (stands : standing = .use ∨ standing = .other) (mem : site ∈ sites)
      (declares : site.Declares v w) (imported : Tree.Import generated w new) :
      Becomes sites generated (.mark (.ident standing span v)) [.ident standing span new]
  /-- An export keeps its name for the outside. -/
  | exported {site : Site} {v new : Variable} {w : Wanted} (span : Span) (mem : site ∈ sites)
      (declares : site.Declares v w) (imported : Tree.Import generated w new) :
      Becomes sites generated (.mark (.ident .exported span v))
        [.ident .use span new, .ident .outside span v]
  | unaffected {standing : Standing} {v : Variable} (span : Span)
      (apart : standing = .outside ∨ v ∉ sites.flatMap Site.aliases) :
      Becomes sites generated (.mark (.ident standing span v)) [.ident standing span v]
  | declarator (span : Span) :
      Becomes sites generated (.mark (.declarator span)) [.declarator span]

namespace Progress

/-- Module items with every call site settled by its own action and every alias renamed. -/
def expandItems (p : Progress) (bs : Bindings) (items : List Tree) : List Tree :=
  Tree.renameList p.renames (Tree.settleItemsBy bs p.imports.actionFor items)

/-- The marks that expanded items have for a slot of the items. -/
def outcome (p : Progress) (s : Slot) : List Mark :=
  (s.settledBy p.imports.actionFor).flatMap (Mark.renamed p.renames)

variable (p : Progress) (bs : Bindings)

theorem marksList_expandItems (items : List Tree) :
    Tree.marksList (p.expandItems bs items) = (Tree.slotsList bs items).flatMap p.outcome := by
  rw [expandItems, Tree.marksList_rename, Tree.marksList_settleItemsBy, List.flatMap_assoc]
  rfl

theorem marksList_expandItems_split (body : List Tree) :
    Tree.marksList (p.expandItems bs (splitAtImports body).1) ++
        Tree.marksList (p.expandItems bs (splitAtImports body).2) =
      (Tree.slotsList bs body).flatMap p.outcome := by
  conv => rhs; rw [← splitAtImports_append body]
  simp only [marksList_expandItems, Tree.slotsList_append, List.flatMap_append]

end Progress

namespace Module

/-- What the output of an expansion is, item by item and identifier by identifier. -/
structure Redirected (m m' : Module) (plan : Plan) (p : Progress) : Prop where
  body : m'.body = p.imports.declarations ++
    p.expandItems plan.bindings (splitAtImports m.body).1 ++
      p.registered.map registration ++
        p.expandItems plan.bindings (splitAtImports m.body).2
  /-- The call sites among the slots are those of the plan. -/
  met : (Tree.slotsList plan.bindings m.body).filterMap Slot.site? = plan.sites.map some
  marks : Tree.marksList (p.expandItems plan.bindings (splitAtImports m.body).1) ++
      Tree.marksList (p.expandItems plan.bindings (splitAtImports m.body).2) =
    (Tree.slotsList plan.bindings m.body).flatMap p.outcome
  becomes : ∀ s ∈ Tree.slotsList plan.bindings m.body,
    s.Becomes plan.sites p.imports.declarations (p.outcome s)
  /-- A member access that is a call site is one identifier in the output. -/
  replaced : ∀ site ∈ plan.sites, ∀ span object property,
    plan.bindings.accessedSite? object property = some site →
      ∃ name v, site.pattern = .member name ∧
        Tree.Import p.imports.declarations ⟨site.specifier, some name⟩ v ∧
        Tree.rename p.renames (Tree.settleBy plan.bindings p.imports.actionFor
          (.member .expr span object property)) = .ident .expr (.generated v)
  /-- No identifier of the output that stands for a variable is an alias still. -/
  left : ∀ standing span v, .ident standing span v ∈ Tree.marksList m'.body →
    standing ≠ .outside → v ∉ plan.aliases

section

variable {m m' : Module} {source : Option String} {plan : Plan}
  (ok : Plan.ofModule m source = .ok plan) (options : Options) (sites : plan.sites ≠ [])
include ok sites

theorem import_progress_iff (w : Wanted) (v : Variable) :
    Tree.Import (m.progress plan options).imports.declarations w v ↔
      (m.progress plan options).imports.find? w = some v :=
  Imports.import_declarations_iff (progress_sound ok options sites) w v

theorem lookup_renames_of_import {w : Wanted} {v : Variable}
    (imported : Tree.Import (m.progress plan options).imports.declarations w v) :
    (m.progress plan options).renames.lookup v = none :=
  lookup_renames_of_find? ok options sites ((import_progress_iff ok options sites w v).mp imported)

theorem import_of_declares (once : plan.aliases.Nodup) {site : Site} (mem : site ∈ plan.sites)
    {v : Variable} {w : Wanted} (declares : site.Declares v w) :
    ∃ new, (m.progress plan options).renames.lookup v = some new ∧
      Tree.Import (m.progress plan options).imports.declarations w new := by
  obtain ⟨r, asked, replaced, rfl⟩ := Site.request_of_declares declares
  obtain ⟨new, found⟩ := m.find?_of_request options
    ((Plan.mem_requests_iff (Plan.mem_order_of_ok ok) r).mpr ⟨site, mem, asked⟩)
  refine ⟨new, ?_, (import_progress_iff ok options sites _ _).mpr found⟩
  rw [lookup_renames_of_request ok options once mem asked replaced, found]

theorem actionFor_of_accesses {site : Site} (mem : site ∈ plan.sites) {property : String}
    (accesses : site.pattern = .member property) :
    ∃ v, (m.progress plan options).imports.actionFor (some site) = .replace v ∧
      Tree.Import (m.progress plan options).imports.declarations
        ⟨site.specifier, some property⟩ v := by
  have asked : ⟨⟨site.specifier, some property⟩, property, none⟩ ∈ site.requests := by
    rw [Site.requests, accesses]
    exact List.mem_singleton_self _
  obtain ⟨v, found⟩ := m.find?_of_request options
    ((Plan.mem_requests_iff (Plan.mem_order_of_ok ok) _).mpr ⟨site, mem, asked⟩)
  exact ⟨v, site.action_of_member accesses found,
    (import_progress_iff ok options sites _ _).mpr found⟩

theorem becomes_outcome (once : plan.aliases.Nodup)
    (met : (Tree.slotsList plan.bindings m.body).filterMap Slot.site? = plan.sites.map some) :
    ∀ s ∈ Tree.slotsList plan.bindings m.body,
      s.Becomes plan.sites (m.progress plan options).imports.declarations
        ((m.progress plan options).outcome s) := by
  intro s mem
  cases s with
  | declaration site => exact .declaration site
  | mark mark =>
      rw [Progress.outcome, Slot.settledBy, List.flatMap_singleton]
      cases mark with
      | declarator span => exact .declarator span
      | ident standing span v =>
          by_cases isAlias : v ∈ plan.aliases
          · obtain ⟨site, isSite, declared⟩ := List.mem_flatMap.mp isAlias
            obtain ⟨w, declares⟩ := Site.declares_of_mem_aliases declared
            obtain ⟨new, renamed, imported⟩ :=
              import_of_declares ok options sites once isSite declares
            cases standing with
            | outside => exact .unaffected span (.inl rfl)
            | exported =>
                rw [Mark.renamed, renamed]
                exact .exported span isSite declares imported
            | use =>
                rw [Mark.renamed_of_known (.inl rfl) span renamed]
                exact .redirected span (.inl rfl) isSite declares imported
            | other =>
                rw [Mark.renamed_of_known (.inr rfl) span renamed]
                exact .redirected span (.inr rfl) isSite declares imported
          · rw [Mark.renamed_of_unknown standing span
              ((lookup_renames_eq_none_iff ok options v).mpr isAlias)]
            exact .unaffected span (.inr isAlias)
  | access at_ standing held =>
      have handed : at_ ∈ plan.sites.map some := by
        rw [← met]
        exact List.mem_filterMap.mpr ⟨_, mem, rfl⟩
      obtain ⟨site, isSite, rfl⟩ := List.mem_map.mp handed
      obtain ⟨property, accesses⟩ :=
        Tree.slots_formed plan.bindings (.items m.body) _ mem site rfl
      obtain ⟨v, action, imported⟩ := actionFor_of_accesses ok options sites isSite accesses
      rw [Progress.outcome, Slot.settledBy, action]
      simp only [List.flatMap_singleton]
      rw [Mark.renamed_of_unknown standing .generated
        (lookup_renames_of_import ok options sites imported)]
      exact .access standing held isSite accesses imported

theorem lookup_renames_of_renamed {v new : Variable}
    (renamed : (m.progress plan options).renames.lookup v = some new) :
    (m.progress plan options).renames.lookup new = none := by
  rw [lookup_renames] at renamed
  obtain ⟨r, -, found⟩ := Option.bind_eq_some_iff.mp renamed
  exact lookup_renames_of_find? ok options sites found

theorem rename_declarations (declared : ∀ v ∈ plan.aliases, v.ctxt ≠ 0) :
    Tree.renameList (m.progress plan options).renames
        (m.progress plan options).imports.declarations =
      (m.progress plan options).imports.declarations := by
  apply Tree.renameList_eq_self
  intro t mem
  obtain ⟨i, isImport, rfl⟩ := List.mem_map.mp mem
  apply Tree.rename_toTree
  · intro name
    exact (lookup_renames_eq_none_iff ok options _).mpr fun isAlias => declared _ isAlias rfl
  · intro entry isEntry
    have listed : entry ∈ (m.progress plan options).imports.entries :=
      List.mem_flatMap.mpr ⟨i, isImport, isEntry⟩
    exact (lookup_renames_eq_none_iff ok options _).mpr fun isAlias =>
      (progress_sound ok options sites).avoided entry listed (name_of_alias ok isAlias)

omit sites in
theorem rename_registrations (declared : ∀ v ∈ plan.aliases, v.ctxt ≠ 0)
    (specifiers : List String) :
    Tree.renameList (m.progress plan options).renames (specifiers.map registration) =
      specifiers.map registration := by
  apply Tree.renameList_eq_self
  intro t mem
  obtain ⟨specifier, -, rfl⟩ := List.mem_map.mp mem
  apply Tree.rename_registration
  exact (lookup_renames_eq_none_iff ok options _).mpr fun isAlias => declared _ isAlias rfl

/-- In step, an expansion puts the expanded items of the module between what it generates. -/
theorem body_apply_of_inStep (inStep : m.InStep plan.bindings)
    (declared : ∀ v ∈ plan.aliases, v.ctxt ≠ 0) :
    (m.apply plan options).body = (m.progress plan options).imports.declarations ++
      (m.progress plan options).expandItems plan.bindings (splitAtImports m.body).1 ++
        (m.progress plan options).registered.map registration ++
          (m.progress plan options).expandItems plan.bindings (splitAtImports m.body).2 := by
  have applied : (m.apply plan options).body = Tree.renameList (m.progress plan options).renames
      ((Tree.settleItems plan.bindings ((m.progress plan options).assemble m.body)).run
        (m.progress plan options).allActions).1 := rfl
  rw [applied, (settledByOwn_of_inStep ok inStep options).settled]
  simp only [Progress.assemble, Tree.settleItemsBy_append, Tree.settleItemsBy_declarations,
    Tree.settleItemsBy_registrations, Tree.renameList_append,
    rename_declarations ok options sites declared, rename_registrations ok options declared]
  rfl

theorem expand_access {site : Site} (mem : site ∈ plan.sites) (span : Span)
    {object property : Tree} (accessed : plan.bindings.accessedSite? object property = some site) :
    ∃ name v, site.pattern = .member name ∧
      Tree.Import (m.progress plan options).imports.declarations ⟨site.specifier, some name⟩ v ∧
      Tree.rename (m.progress plan options).renames
        (Tree.settleBy plan.bindings (m.progress plan options).imports.actionFor
          (.member .expr span object property)) = .ident .expr (.generated v) := by
  obtain ⟨name, accesses⟩ := Bindings.pattern_of_accessedSite? accessed
  obtain ⟨v, action, imported⟩ := actionFor_of_accesses ok options sites mem accesses
  have called : (plan.bindings.call? object).isSome := by
    obtain ⟨call, isCall, -⟩ := Option.bind_eq_some_iff.mp accessed
    rw [isCall]
    rfl
  have stays := lookup_renames_of_import ok options sites imported
  refine ⟨name, v, accesses, imported, ?_⟩
  simp only [Tree.settleBy, called, and_self, if_true, accessed, action, Tree.rename,
    Ident.rename, Ident.generated, stays, Option.getD_none]

theorem not_alias_of_mem_apply {standing : Standing} {span : Span} {v : Variable}
    (mem : .ident standing span v ∈ Tree.marksList (m.apply plan options).body)
    (inside : standing ≠ .outside) : v ∉ plan.aliases := by
  rw [← lookup_renames_eq_none_iff ok options]
  rw [apply, Tree.marksList_rename] at mem
  obtain ⟨mark, -, renamed⟩ := List.mem_flatMap.mp mem
  cases mark with
  | declarator at_ => cases List.mem_singleton.mp renamed
  | ident standing' span' u =>
      obtain ⟨rfl, outer | unknown⟩ | known := Mark.renamed_cases renamed
      · exact absurd outer inside
      · exact unknown
      · exact lookup_renames_of_renamed ok options sites known

theorem apply_redirected (inStep : m.InStep plan.bindings)
    (declared : ∀ v ∈ plan.aliases, v.ctxt ≠ 0) (once : plan.aliases.Nodup) :
    m.Redirected (m.apply plan options) plan (m.progress plan options) where
  body := body_apply_of_inStep ok options sites inStep declared
  met := metList_of_inStep ok inStep
  marks := Progress.marksList_expandItems_split _ _ _
  becomes := becomes_outcome ok options sites once (metList_of_inStep ok inStep)
  replaced _ mem span _ _ accessed := expand_access ok options sites mem span accessed
  left _ _ _ mem inside := not_alias_of_mem_apply ok options sites mem inside

end

variable {m m' : Module} {source : Option String} {plan : Plan} {options : Options} {count : Nat}

/-- In an expansion of a plain module whose aliases are resolved and declared once, every call
site and every alias stands for the import that it asked for. -/
theorem expand_redirected (plain : m.isPlain = true) (ok : Plan.ofModule m source = .ok plan)
    (declared : ∀ v ∈ plan.aliases, v.ctxt ≠ 0) (once : plan.aliases.Nodup)
    (expanded : m.expand source options = .ok (count, m')) :
    plan.sites = [] ∧ m' = m ∨ m.Redirected m' plan (m.progress plan options) := by
  obtain ⟨plan', ok', -, result⟩ := expand_cases expanded
  obtain rfl : plan' = plan := Except.ok.inj (ok'.symm.trans ok)
  obtain none | ⟨sites, rfl⟩ := result
  · exact .inl none
  · exact .inr (apply_redirected ok options sites (inStep_of_isPlain plain ok) declared once)

theorem expand_redirected_plain :
    ∃ m', Sample.plain.expand none {} = .ok (3, m') ∧
      Sample.plain.Redirected m' (.drawn Sample.plain)
        (Sample.plain.progress (.drawn Sample.plain) {}) := by
  obtain ⟨m', expanded⟩ : ∃ m', Sample.plain.expand none {} = .ok (3, m') := ⟨_, rfl⟩
  have redirected := expand_redirected (by decide) Sample.plan_plain (by decide) (by decide)
    expanded
  exact ⟨m', expanded, redirected.resolve_left fun empty => by cases empty.1⟩

end Module
end MockImport
