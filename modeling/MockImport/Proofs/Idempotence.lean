import MockImport.Proofs.Clearing
import MockImport.Proofs.Layout

/-!
Expanding an expansion changes nothing. No reference is left of a plain module whose call
sites are settled, and neither the generated imports nor the registrations nor the
redirected identifiers make a new one.
-/

namespace MockImport

namespace Tree

theorem clear_toTree {bs : Bindings} (i : GeneratedImport) (ctxt : Nat) :
    Clear bs (i.toTree ctxt) := by
  cases i <;> exact fun _ => rfl

theorem clear_registration {bs : Bindings} (unbound : ∀ b ∈ bs, b.var ≠ ⟨registrar, 0⟩)
    (specifier : String) : Clear bs (registration specifier) := by
  have apart (kind : BindingKind) : ⟨⟨registrar, 0⟩, kind⟩ ∉ bs :=
    fun bound => unbound _ bound rfl
  have object : Clear bs (.ident .expr (.generated ⟨registrar, 0⟩)) :=
    .ident (Bindings.named?_eq_none_iff.mpr (apart .named))
  have star : bs.member? (.ident .expr (.generated ⟨registrar, 0⟩))
      (.name .generated registerName) = none := by
    rw [Bindings.member?_eq_none_iff .generated]
    rintro (_ | ⟨_, _, _, bound⟩)
    exact apart .star bound
  have callee := object.member (fun _ => rfl) .generated star
  have call : Clear bs
      (.call .generated 0 _ [.arg none (.string (.generated specifier))] .absent) :=
    callee.call (List.forall_mem_singleton.mpr fun _ => rfl) (fun _ => rfl) .generated 0
  exact fun c => List.append_eq_nil_iff.mpr ⟨call _, rfl⟩

theorem mockSpecifiers_eq (t : Tree) : t.mockSpecifiers = t.importing?.elim [] fun head =>
    if !head.2.2 && head.2.1 = mockModule then head.1 else [] := by
  cases t <;> rfl

theorem flatMap_mockSpecifiers (items : List Tree) :
    items.flatMap mockSpecifiers = (items.filterMap importing?).flatMap fun head =>
      if !head.2.2 && head.2.1 = mockModule then head.1 else [] := by
  rw [List.filterMap_eq_flatMap_toList, List.flatMap_assoc]
  refine List.flatMap_congr fun t _ => ?_
  rw [mockSpecifiers_eq]
  cases t.importing? <;> simp

/-- Settling and renaming rename what is imported from the mock module. -/
theorem mockSpecifiers_settleItems (bs : Bindings) (r : Renaming) (items : List Tree)
    (actions : List SiteAction) :
    (renameList r ((settleItems bs items).run actions).1).flatMap mockSpecifiers =
      (items.flatMap mockSpecifiers).map (ImportSpecifier.rename r) := by
  rw [flatMap_mockSpecifiers, importing?_settleItems, flatMap_mockSpecifiers, List.flatMap_map,
    List.map_flatMap]
  refine List.flatMap_congr fun head _ => ?_
  split <;> rfl

end Tree

theorem GeneratedImport.mockSpecifiers_toTree {i : GeneratedImport} (ctxt : Nat)
    (other : i.group.1 ≠ mockModule) : (i.toTree ctxt).mockSpecifiers = [] := by
  cases i <;> exact if_neg fun same => other (of_decide_eq_true (Bool.and_eq_true_iff.mp same).2)

theorem Site.source_of_request {site : Site} {r : Request} (asked : r ∈ site.requests) :
    r.wanted.source = site.specifier := by
  simp only [requests] at asked
  split at asked
  · obtain ⟨_, -, rfl⟩ := List.mem_map.mp asked
    rfl
  · rw [List.mem_singleton.mp asked]
  · rw [List.mem_singleton.mp asked]

namespace ImportSpecifier

variable {r : Renaming} {s : ImportSpecifier} {b : Binding}

/-- If no variable is renamed to the name of the mock function, a renamed specifier imports it
only if the specifier does. -/
theorem namedBinding?_rename (other : ∀ v new, r.lookup v = some new → new.name ≠ mockName)
    (found : (s.rename r).namedBinding? = some b) :
    ∃ v, s.namedBinding? = some ⟨v, .named⟩ ∧ b = ⟨(r.lookup v).getD v, .named⟩ := by
  have name_of_rename {id : Ident} (same : (id.rename r).var.name = mockName) :
      id.var.name = mockName := by
    cases renamed : r.lookup id.var with
    | none => simpa only [Ident.rename, renamed, Option.getD_none] using same
    | some new =>
        rw [Ident.rename, renamed] at same
        exact absurd same (other id.var new renamed)
  cases s with
  | named span binding imported typeOnly =>
      obtain ⟨imports, same⟩ := Option.ite_none_right_eq_some.mp found
      refine ⟨binding.var, if_pos ?_, (Option.some.inj same).symm⟩
      simp only [Bool.and_eq_true, decide_eq_true_eq] at imports ⊢
      refine ⟨imports.1, ?_⟩
      cases imported with
      | none => exact name_of_rename imports.2
      | some exported =>
          cases exported with
          | ident _ => exact name_of_rename imports.2
          | string _ => exact imports.2
  | _ => cases found

theorem binding?_rename (other : ∀ v new, r.lookup v = some new → new.name ≠ mockName)
    (found : (s.rename r).namedBinding? = some b ∨ (s.rename r).starBinding? = some b) :
    ∃ v kind, (s.namedBinding? = some ⟨v, kind⟩ ∨ s.starBinding? = some ⟨v, kind⟩) ∧
      b = ⟨(r.lookup v).getD v, kind⟩ := by
  obtain named | star := found
  · obtain ⟨v, bound, same⟩ := namedBinding?_rename other named
    exact ⟨v, .named, .inl bound, same⟩
  · cases s with
    | star span binding => exact ⟨binding.var, .star, .inr rfl, (Option.some.inj star).symm⟩
    | _ => cases star

end ImportSpecifier

namespace Module

theorem expand_of_references_eq_nil {m : Module}
    (none : m.references (.discover m.body) = []) (source : Option String) (options : Options) :
    m.expand source options = .ok (0, m) := by
  have ok : Plan.ofModule m source = .ok (.drawn m) := by
    rw [Plan.ofModule_eq_ok_iff, none]
    exact ⟨List.forall_mem_nil _, rfl⟩
  have noSites : (Plan.drawn m).sites = [] := by
    rw [Plan.drawn, none]
    rfl
  rw [expand, ok]
  change (if (Plan.drawn m).sites.isEmpty then _ else _) = _
  rw [noSites]
  rfl

section

variable {m : Module} {source : Option String} {plan : Plan}
  (ok : Plan.ofModule m source = .ok plan) (options : Options)
include ok

omit ok in
theorem lookup_renames_ne_mockName {v new : Variable}
    (renamed : (m.progress plan options).renames.lookup v = some new) : new.name ≠ mockName := by
  rw [lookup_renames] at renamed
  obtain ⟨r, -, found⟩ := Option.bind_eq_some_iff.mp renamed
  obtain ⟨name, listed, rfl⟩ := Option.map_eq_some_iff.mp found
  obtain ⟨before, after, split, -⟩ := List.lookup_eq_some_iff.mp listed
  have fresh (taken : List String) (hint : String) : freshName taken hint ≠ mockName := by
    intro same
    have head := head?_freshName taken hint
    rw [same] at head
    exact absurd head (by decide)
  have all : ∀ entry ∈ (m.progress plan options).imports.entries, entry.2 ≠ mockName := by
    rw [progress, plan.process_imports]
    exact Imports.forall_name_serveAll (P := (· ≠ mockName)) fresh plan.requests
      (List.forall_mem_nil _)
  exact all (r.wanted, name) (by rw [split]; simp)

theorem served_references : Tree.Served plan.sites (m.references plan.bindings) := by
  intro r mem
  have made : r.site? ∈ plan.sites.map some := by
    rw [← Plan.sites_of_ok ok]
    exact List.mem_map_of_mem mem
  obtain ⟨site, isSite, same⟩ := List.mem_map.mp made
  exact ⟨site, isSite, same.symm⟩

omit ok in
theorem isPlain_assemble (plain : m.isPlain = true) :
    ∀ t ∈ (m.progress plan options).assemble m.body, t.isPlain false = true :=
  (Progress.forall_assemble_iff _ _ (fun i _ => by cases i <;> rfl) fun _ _ => rfl).mpr
    (Tree.arePlain_iff.mp plain)

theorem served_assemble
    (registered : ∀ specifier ∈ (m.progress plan options).registered,
      Tree.Clear plan.bindings (registration specifier)) :
    ∀ t ∈ (m.progress plan options).assemble m.body,
      Tree.Served plan.sites (Tree.references plan.bindings .root t) := by
  have unmentioned {t : Tree} (clear : t.Clear plan.bindings) :
      Tree.Served plan.sites (t.references plan.bindings .root) := by
    rw [clear]
    exact List.forall_mem_nil _
  refine (Progress.forall_assemble_iff _ _ (fun i _ => unmentioned (Tree.clear_toTree i _))
    fun specifier mem => unmentioned (registered specifier mem)).mpr ?_
  exact Tree.Served.list_iff.mp (served_references ok)

/-- Nothing is generated that imports from the mock module. -/
theorem mockSpecifiers_assemble (elsewhere : ∀ site ∈ plan.sites, site.specifier ≠ mockModule) :
    ((m.progress plan options).assemble m.body).flatMap Tree.mockSpecifiers =
      m.body.flatMap Tree.mockSpecifiers := by
  have imports : (m.progress plan options).imports.declarations.flatMap Tree.mockSpecifiers =
      [] := by
    refine List.flatMap_eq_nil_iff.mpr (List.forall_mem_map.mpr fun i mem => ?_)
    apply GeneratedImport.mockSpecifiers_toTree
    have listed : i.group ∈ (plan.wanted.map Wanted.group).eraseDups.reverse := by
      rw [← plan.groups_generated options (m.body.any Tree.isImport)]
      exact List.mem_map_of_mem mem
    rw [List.mem_reverse, List.mem_eraseDups, Plan.wanted, List.map_map] at listed
    obtain ⟨r, requested, group⟩ := List.mem_map.mp listed
    obtain ⟨site, isSite, asked⟩ :=
      (Plan.mem_requests_iff (Plan.mem_order_of_ok ok) r).mp requested
    rw [← group, Function.comp_apply, Wanted.group, site.source_of_request asked]
    exact elsewhere site isSite
  have registrations : ((m.progress plan options).registered.map registration).flatMap
      Tree.mockSpecifiers = [] :=
    List.flatMap_eq_nil_iff.mpr (List.forall_mem_map.mpr fun _ _ => rfl)
  conv => rhs; rw [← splitAtImports_append m.body]
  simp only [Progress.assemble, List.flatMap_append, imports, registrations, List.nil_append,
    List.append_nil]

/-- The bindings of an expansion are bindings of the module. -/
theorem discover_apply (elsewhere : ∀ site ∈ plan.sites, site.specifier ≠ mockModule)
    (apart : ∀ b ∈ plan.bindings, b.var ∉ plan.aliases) :
    ∀ b ∈ Bindings.discover (m.apply plan options).body, b ∈ plan.bindings := by
  have specifiers : (m.apply plan options).body.flatMap Tree.mockSpecifiers =
      (m.body.flatMap Tree.mockSpecifiers).map
        (ImportSpecifier.rename (m.progress plan options).renames) := by
    rw [← mockSpecifiers_assemble ok options elsewhere]
    exact Tree.mockSpecifiers_settleItems _ _ _ _
  intro b mem
  obtain ⟨_, isSpecifier, found⟩ := Bindings.mem_discover_iff.mp mem
  rw [specifiers] at isSpecifier
  obtain ⟨s, listed, rfl⟩ := List.mem_map.mp isSpecifier
  obtain ⟨v, kind, binds, rfl⟩ := ImportSpecifier.binding?_rename
    (fun _ _ => lookup_renames_ne_mockName options) found
  have bound : ⟨v, kind⟩ ∈ plan.bindings := by
    rw [Plan.discover_of_ok ok, Bindings.mem_discover_iff]
    exact ⟨s, listed, binds⟩
  -- The variable of a binding is no alias, so it is not renamed.
  rw [(lookup_renames_eq_none_iff ok options v).mpr (apart _ bound)]
  exact bound

omit ok in
theorem name_of_binding {b : Binding} (bound : b ∈ Bindings.discover m.body) :
    b.var.name ∈ m.names := by
  obtain ⟨s, isSpecifier, binds⟩ := Bindings.mem_discover_iff.mp bound
  have var : b.var = s.var := by
    obtain named | star := binds
    · rw [(ImportSpecifier.of_namedBinding? named).1]
    · rw [(ImportSpecifier.of_starBinding? star).1]
  obtain ⟨t, isItem, mem⟩ := List.mem_flatMap.mp isSpecifier
  have imported := t.mockSpecifiers_subset mem
  refine (Tree.mem_namesList _ _).mpr ⟨t, isItem, ?_⟩
  rw [var]
  cases t with
  | importDecl _ specifiers _ _ _ _ =>
      refine List.mem_append_left _ (List.mem_flatMap.mpr ⟨s, imported, ?_⟩)
      cases s <;> exact List.mem_cons_self
  | _ => cases imported

/-- What is imported is under no name that the module binds to the mock function. -/
theorem not_bound_of_find? (sites : plan.sites ≠ []) {w : Wanted} {v : Variable}
    (found : (m.progress plan options).imports.find? w = some v) :
    ∀ b ∈ plan.bindings, b.var ≠ v := by
  rintro b bound rfl
  rw [Plan.discover_of_ok ok] at bound
  exact (progress_sound ok options sites).avoided_of_find? found (name_of_binding bound)

/-- An expansion discharges the call sites of the module, held to its own bindings. -/
def discharge (sites : plan.sites ≠ [])
    (elsewhere : ∀ site ∈ plan.sites, site.specifier ≠ mockModule)
    (apart : ∀ b ∈ plan.bindings, b.var ∉ plan.aliases) : Discharge where
  bindings := plan.bindings
  left := .discover (m.apply plan options).body
  own := (m.progress plan options).imports.actionFor
  renames := (m.progress plan options).renames
  sites := plan.sites
  known := discover_apply ok options elsewhere apart
  renamed v new renamed b bound := by
    rw [lookup_renames] at renamed
    obtain ⟨r, -, found⟩ := Option.bind_eq_some_iff.mp renamed
    exact not_bound_of_find? ok options sites found b
      (discover_apply ok options elsewhere apart b bound)
  replaced site isSite property accesses := by
    obtain ⟨v, action, imported⟩ := actionFor_of_accesses ok options sites isSite accesses
    refine ⟨v, action, fun b bound => ?_⟩
    rw [lookup_renames_of_import ok options sites imported]
    exact not_bound_of_find? ok options sites
      ((import_progress_iff ok options sites _ _).mp imported) b
      (discover_apply ok options elsewhere apart b bound)

theorem references_apply (plain : m.isPlain = true) (sites : plan.sites ≠ [])
    (elsewhere : ∀ site ∈ plan.sites, site.specifier ≠ mockModule)
    (apart : ∀ b ∈ plan.bindings, b.var ∉ plan.aliases)
    (unregistered : options.skipRegistration = false →
      ∀ b ∈ plan.bindings, b.var ≠ ⟨registrar, 0⟩) :
    (m.apply plan options).references (.discover (m.apply plan options).body) = [] := by
  have registered : ∀ specifier ∈ (m.progress plan options).registered,
      Tree.Clear plan.bindings (registration specifier) := by
    intro specifier mem
    rw [registered_progress ok options sites] at mem
    cases skipped : options.skipRegistration with
    | true =>
        rw [skipped] at mem
        cases mem
    | false => exact Tree.clear_registration (unregistered skipped) specifier
  have served := served_assemble ok options registered
  have settled := (settledByOwn_of_inStep ok (inStep_of_isPlain plain ok) options).settled
  have body : (m.apply plan options).body = Tree.renameList (m.progress plan options).renames
      (Tree.settleItemsBy plan.bindings (m.progress plan options).imports.actionFor
        ((m.progress plan options).assemble m.body)) :=
    congrArg (Tree.renameList _) (congrArg Prod.fst settled)
  have clear := (discharge ok options sites elsewhere apart).clear_items
    (isPlain_assemble options plain) served
  refine Tree.Clear.list (fun t mem => ?_) .root
  rw [body] at mem
  exact clear t mem

end

variable {m m' : Module} {source : Option String} {plan : Plan} {options : Options} {count : Nat}

/-- An expansion of a plain module has nothing left to expand, and expanding it changes
nothing. -/
theorem expand_expanded (plain : m.isPlain = true) (ok : Plan.ofModule m source = .ok plan)
    (elsewhere : ∀ site ∈ plan.sites, site.specifier ≠ mockModule)
    (apart : ∀ b ∈ plan.bindings, b.var ∉ plan.aliases)
    (unregistered : options.skipRegistration = false →
      ∀ b ∈ plan.bindings, b.var ≠ ⟨registrar, 0⟩)
    (expanded : m.expand source options = .ok (count, m')) :
    (∀ b ∈ Bindings.discover m'.body, b ∈ Bindings.discover m.body) ∧
      m'.references (.discover m'.body) = [] ∧
        ∀ source' options', m'.expand source' options' = .ok (0, m') := by
  obtain ⟨plan', ok', -, result⟩ := expand_cases expanded
  obtain rfl : plan' = plan := Except.ok.inj (ok'.symm.trans ok)
  have discovered := Plan.discover_of_ok ok
  obtain ⟨none, rfl⟩ | ⟨sites, rfl⟩ := result
  · have references : m'.references (.discover m'.body) = [] := by
      have made := Plan.sites_of_ok ok
      rw [none] at made
      rw [← discovered]
      exact List.map_eq_nil_iff.mp made
    exact ⟨fun _ => id, references, expand_of_references_eq_nil references⟩
  · have references := references_apply ok options plain sites elsewhere apart unregistered
    refine ⟨fun b bound => ?_, references, expand_of_references_eq_nil references⟩
    rw [← discovered]
    exact discover_apply ok options elsewhere apart b bound

theorem expand_expanded_plain :
    ∃ m', Sample.plain.expand none {} = .ok (3, m') ∧
      ∀ source options, m'.expand source options = .ok (0, m') := by
  obtain ⟨m', expanded⟩ : ∃ m', Sample.plain.expand none {} = .ok (3, m') := ⟨_, rfl⟩
  have again := expand_expanded (by decide) Sample.plan_plain (by decide) (by decide)
    (fun _ => by decide) expanded
  exact ⟨m', expanded, again.2.2⟩

end Module

namespace Sample

/-- `callee(import("a"))` -/
def mockedBy (callee : Tree) : Tree :=
  .call .generated 0 callee
    [.arg none (.call .generated 0
      (.node .plain .importKeyword .generated [.leaf (.text "evaluation")])
      [.arg none (.string (.generated "a"))] .absent)] .absent

/-- `import specifier from "@userlike/joke"` -/
def importMocking (specifier : ImportSpecifier) : Tree :=
  .importDecl .generated [specifier] (.generated mockModule) false .absent "evaluation"

/-- `import { mock as m } from "@userlike/joke"; var m = m(import("a"));`
`var api = m(import("a")); use(api);` -/
def redeclared : Module :=
  ⟨.generated, [
    importMocking (.named .generated (.generated ⟨"m", 2⟩)
      (some (.ident (.generated ⟨mockName, 0⟩))) false),
    .variables .stmt .generated 0 "var" false [.declarator .generated
      (.binding (.generated ⟨"m", 2⟩) .absent) (mockedBy (ident "m")) false],
    .variables .stmt .generated 0 "var" false [.declarator .generated
      (.binding (.generated ⟨"api", 2⟩) .absent) (mockedBy (ident "m")) false],
    statement (.call .generated 0 (ident "use") [.arg none (ident "api")] .absent)], none⟩

/-- `import * as jest from "@userlike/joke"; jest.mock(import("a")).b;`, where `jest` is in no
syntax context -/
def registering : Module :=
  ⟨.generated, [
    importMocking (.star .generated (.generated ⟨registrar, 0⟩)),
    statement (.member .expr .generated
      (mockedBy (.member .expr .generated (.ident .expr (.generated ⟨registrar, 0⟩))
        (.name .generated mockName)))
      (.name .generated "b"))], none⟩

end Sample

namespace Module

/-- An alias that is the local name of the mock function takes it along when it is renamed, so
uses of the other aliases mention the mock function; and a registration mentions it where the
whole mock module is imported as the object that registrations are made with. -/
theorem expanded_malformed :
    (Sample.redeclared.isPlain = true ∧ Sample.redeclared.importLocals.Nodup ∧
      (∀ site ∈ (Plan.drawn Sample.redeclared).sites, site.specifier ≠ mockModule) ∧
      ∃ m', Sample.redeclared.expand none {} = .ok (2, m') ∧
        ∃ failure, m'.expand none {} = .error failure) ∧
    Sample.registering.isPlain = true ∧ Sample.registering.importLocals.Nodup ∧
      (∀ site ∈ (Plan.drawn Sample.registering).sites, site.specifier ≠ mockModule) ∧
      ∃ m', Sample.registering.expand none {} = .ok (1, m') ∧
        ∃ failure, m'.expand none {} = .error failure :=
  ⟨⟨by decide, by decide, by decide, _, rfl, _, rfl⟩,
    by decide, by decide, by decide, _, rfl, _, rfl⟩

end Module
end MockImport
