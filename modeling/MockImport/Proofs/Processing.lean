import MockImport.Expansion
import MockImport.Proofs.ImportTable

/-!
What processing a plan comes to, read off the final table of imports. Sites make
requests; a request is answered once and for all, so the renaming and the actions
can be stated with the final table although they are made on the way to it.
-/

namespace MockImport

/-- What a site asks to have imported, a hint for the name, and the alias that gives way
to the import. -/
structure Request where
  wanted : Wanted
  hint : String
  replaced : Option Variable

namespace Site

def requests (site : Site) : List Request :=
  match site.pattern with
  | .destructure pairs => pairs.map fun (property, v) =>
      ⟨⟨site.specifier, some property⟩, v.name, some v⟩
  | .alias v => [⟨⟨site.specifier, none⟩, site.specifier, some v⟩]
  | .member property => [⟨⟨site.specifier, some property⟩, property, none⟩]

/-- What becomes of a site, given the imports. -/
def action (site : Site) (imports : Imports) : SiteAction :=
  match site.pattern with
  | .member property =>
      (imports.find? ⟨site.specifier, some property⟩).elim .remove .replace
  | _ => .remove

end Site

/-- The requests of the sites at the given positions. -/
def requestsAt (sites : List Site) (order : List Nat) : List Request :=
  order.flatMap fun i => sites[i]?.elim [] Site.requests

/-- All requests of a plan, in processing order. -/
def Plan.requests (plan : Plan) : List Request := requestsAt plan.sites plan.order

theorem Plan.requests_eq_flatMap (plan : Plan) :
    plan.requests = (plan.order.filterMap (plan.sites[·]?)).flatMap Site.requests := by
  rw [requests, requestsAt, List.filterMap_eq_flatMap_toList, List.flatMap_assoc]
  refine List.flatMap_congr fun i _ => ?_
  cases plan.sites[i]? <;> simp

namespace Imports

def serveAll (imports : Imports) (rs : List Request) : Imports :=
  rs.foldl (fun imports r => (imports.serve r.wanted r.hint).2) imports

/-- The renaming that requests come to, the latest first. -/
def renamesFor (imports : Imports) (rs : List Request) : Renaming :=
  rs.reverse.filterMap fun r =>
    r.replaced.bind fun old => (imports.find? r.wanted).map (old, ·)

variable {names : List String} {imports : Imports} {w : Wanted} {v : Variable}

theorem serveAll_append (imports : Imports) (rs ss : List Request) :
    imports.serveAll (rs ++ ss) = (imports.serveAll rs).serveAll ss :=
  List.foldl_append

theorem Sound.serveAll (sound : Sound names imports) (rs : List Request) :
    Sound names (imports.serveAll rs) := by
  induction rs generalizing imports with
  | nil => exact sound
  | cons r rest ih => exact ih (sound.serve r.wanted r.hint)

theorem serveAll_ctxt (imports : Imports) (rs : List Request) :
    (imports.serveAll rs).ctxt = imports.ctxt := by
  induction rs generalizing imports with
  | nil => rfl
  | cons r rest ih => exact (ih _).trans (serve_ctxt imports r.wanted r.hint)

theorem find?_serveAll_of_find? (sound : Sound names imports) (rs : List Request)
    (found : imports.find? w = some v) : (imports.serveAll rs).find? w = some v := by
  induction rs generalizing imports with
  | nil => exact found
  | cons r rest ih =>
      exact ih (sound.serve r.wanted r.hint)
        (find?_serve_of_find? sound r.wanted r.hint found)

/-- The table holds exactly what it held before and what the requests wanted. -/
theorem mem_wanted_serveAll (imports : Imports) (rs : List Request) (w : Wanted) :
    w ∈ (imports.serveAll rs).entries.map Prod.fst ↔
      w ∈ rs.map Request.wanted ∨ w ∈ imports.entries.map Prod.fst := by
  induction rs generalizing imports with
  | nil => simp [serveAll]
  | cons r rest ih =>
      have step := mem_wanted_serve imports w r.wanted r.hint
      have later := ih (imports.serve r.wanted r.hint).2
      simp only [List.map_cons, List.mem_cons]
      rw [serveAll, List.foldl_cons]
      rw [serveAll] at later
      rw [later, step]
      tauto

theorem isEmpty_generated_serveAll (imports : Imports) (rs : List Request) :
    (imports.serveAll rs).generated.isEmpty = (imports.generated.isEmpty && rs.isEmpty) := by
  cases rs with
  | nil => exact (Bool.and_true _).symm
  | cons r rest =>
      have asked := (mem_wanted_serveAll imports (r :: rest) r.wanted).mpr
        (.inl List.mem_cons_self)
      rw [isEmpty_generated_of_mem asked, List.isEmpty_cons, Bool.and_false]

theorem forall_name_serveAll {P : String → Prop} (fresh : ∀ taken hint, P (freshName taken hint))
    (rs : List Request) (all : ∀ entry ∈ imports.entries, P entry.2) :
    ∀ entry ∈ (imports.serveAll rs).entries, P entry.2 := by
  induction rs generalizing imports with
  | nil => exact all
  | cons r rest ih => exact ih (forall_name_serve fresh r.wanted r.hint all)

theorem find?_serveAll_of_mem (sound : Sound names imports) {rs : List Request} {r : Request}
    (mem : r ∈ rs) : ∃ v, (imports.serveAll rs).find? r.wanted = some v := by
  obtain ⟨before, after, rfl⟩ := List.append_of_mem mem
  have sound' := sound.serveAll before
  refine ⟨((imports.serveAll before).serve r.wanted r.hint).1, ?_⟩
  rw [serveAll_append]
  exact find?_serveAll_of_find? (sound'.serve r.wanted r.hint) after
    (find?_serve_self sound' r.wanted r.hint)

theorem renamesFor_append (imports : Imports) (rs ss : List Request) :
    imports.renamesFor (rs ++ ss) = imports.renamesFor ss ++ imports.renamesFor rs := by
  simp only [renamesFor, List.reverse_append, List.filterMap_append]

theorem renamesFor_singleton (imports : Imports) (r : Request) :
    imports.renamesFor [r] =
      (r.replaced.bind fun old => (imports.find? r.wanted).map (old, ·)).toList := by
  simp only [renamesFor, List.reverse_singleton, List.filterMap_cons, List.filterMap_nil]
  split <;> simp [*]

theorem renamesFor_congr {imports next : Imports} {rs : List Request}
    (same : ∀ r ∈ rs, next.find? r.wanted = imports.find? r.wanted) :
    next.renamesFor rs = imports.renamesFor rs := by
  apply List.filterMap_congr
  intro r mem
  rw [same r (List.mem_reverse.mp mem)]

end Imports

theorem Site.action_congr {site : Site} {imports next : Imports}
    (same : ∀ r ∈ site.requests, next.find? r.wanted = imports.find? r.wanted) :
    site.action next = site.action imports := by
  obtain ⟨b, source, pattern⟩ := site
  cases pattern with
  | member property =>
      have wanted := same _ List.mem_cons_self
      exact congrArg (fun v => v.elim SiteAction.remove SiteAction.replace) wanted
  | _ => rfl

theorem Site.action_of_member {site : Site} {imports : Imports} {property : String}
    {v : Variable} (pattern : site.pattern = .member property)
    (found : imports.find? ⟨site.specifier, some property⟩ = some v) :
    site.action imports = .replace v := by
  simp only [action, pattern, found]
  rfl

theorem Site.find?_of_action {site : Site} {imports : Imports} {v : Variable}
    (replaced : site.action imports = .replace v) : ∃ w, imports.find? w = some v := by
  simp only [action] at replaced
  split at replaced
  · next property _ =>
      refine ⟨⟨site.specifier, some property⟩, ?_⟩
      cases found : imports.find? ⟨site.specifier, some property⟩ with
      | none =>
          rw [found] at replaced
          cases replaced
      | some u =>
          rw [found] at replaced
          exact congrArg some (SiteAction.replace.inj replaced)
  · cases replaced

theorem Site.action_of_not_member {site : Site} (imports : Imports)
    (pattern : ∀ property, site.pattern ≠ .member property) : site.action imports = .remove := by
  rw [action]
  split
  · next property isMember => exact absurd isMember (pattern property)
  · rfl

namespace Progress

/-- Answers one request: the import, and the renaming of the alias that it replaces. -/
def serve (p : Progress) (r : Request) : Progress :=
  let (v, imports) := p.imports.serve r.wanted r.hint
  { p with imports := imports, renames := (r.replaced.map (·, v)).toList ++ p.renames }

variable {names : List String}

theorem consume_progress (p : Progress) (site : Site) :
    (p.consume site.specifier site.pattern).1 = site.requests.foldl serve p := by
  obtain ⟨b, source, pattern⟩ := site
  cases pattern with
  | destructure pairs =>
      simp only [Site.requests, List.foldl_map]
      rfl
  | _ => rfl

theorem foldl_serve_imports (p : Progress) (rs : List Request) :
    (rs.foldl serve p).imports = p.imports.serveAll rs := by
  induction rs generalizing p with
  | nil => rfl
  | cons r rest ih => exact ih (p.serve r)

theorem foldl_serve_actions (p : Progress) (rs : List Request) :
    (rs.foldl serve p).actions = p.actions := by
  induction rs generalizing p with
  | nil => rfl
  | cons r rest ih => exact ih (p.serve r)

theorem foldl_serve_registered (p : Progress) (rs : List Request) :
    (rs.foldl serve p).registered = p.registered := by
  induction rs generalizing p with
  | nil => rfl
  | cons r rest ih => exact ih (p.serve r)

theorem foldl_serve_renames (p : Progress) (sound : p.imports.Sound names)
    (rs : List Request) :
    (rs.foldl serve p).renames = (p.imports.serveAll rs).renamesFor rs ++ p.renames := by
  induction rs generalizing p with
  | nil => rfl
  | cons r rest ih =>
      have sound' := sound.serve r.wanted r.hint
      have found := Imports.find?_serveAll_of_find? sound' rest
        (Imports.find?_serve_self sound r.wanted r.hint)
      have last : (p.imports.serveAll (r :: rest)).renamesFor [r] =
          (r.replaced.map (·, (p.imports.serve r.wanted r.hint).1)).toList := by
        rw [Imports.renamesFor_singleton]
        cases r.replaced with
        | none => rfl
        | some old => exact congrArg (fun v => (v.map (old, ·)).toList) found
      rw [List.foldl_cons, ih (p.serve r) sound', ← List.singleton_append,
        Imports.renamesFor_append, List.append_assoc]
      exact congrArg (_ ++ ·) (congrArg (· ++ p.renames) last.symm)

theorem consume_action (p : Progress) (sound : p.imports.Sound names) (site : Site) :
    (p.consume site.specifier site.pattern).2 =
      site.action (p.imports.serveAll site.requests) := by
  obtain ⟨b, source, pattern⟩ := site
  cases pattern with
  | member property =>
      have found := Imports.find?_serve_self sound ⟨source, some property⟩ property
      exact (congrArg (fun v => v.elim SiteAction.remove SiteAction.replace) found).symm
  | _ => rfl

/-- Processing a site answers its requests and notes its action. -/
theorem step_spec (options : Options) (hasImport : Bool) (sites : List Site) (p : Progress)
    (sound : p.imports.Sound names) (i : Nat) (site : Site) (at_i : sites[i]? = some site) :
    let q := p.step options hasImport sites i
    q.imports = p.imports.serveAll site.requests ∧
      q.renames = q.imports.renamesFor site.requests ++ p.renames ∧
      q.actions = p.actions.set i (some (site.action q.imports)) := by
  have progress := p.consume_progress site
  have action := p.consume_action sound site
  have parts (r : Progress) (options : Options) :
      let q := if options.skipRegistration then r else r.register hasImport site.specifier
      q.imports = r.imports ∧ q.renames = r.renames ∧ q.actions = r.actions := by
    simp only [register]
    split <;> [skip; split] <;> exact ⟨rfl, rfl, rfl⟩
  simp only [step, at_i]
  obtain ⟨imports, renames, actions⟩ := parts
    { (p.consume site.specifier site.pattern).1 with
      actions := (p.consume site.specifier site.pattern).1.actions.set i
        (some (p.consume site.specifier site.pattern).2) } options
  rw [imports, renames, actions]
  simp only [progress, action, foldl_serve_imports, foldl_serve_actions,
    p.foldl_serve_renames sound, and_self]

theorem step_none (options : Options) (hasImport : Bool) (sites : List Site) (p : Progress)
    (i : Nat) (at_i : sites[i]? = none) : p.step options hasImport sites i = p := by
  simp only [step, at_i]

theorem find?_of_step {p q : Progress} {site : Site} (rs : List Request)
    (sound : p.imports.Sound names) (now : q.imports = p.imports.serveAll site.requests) :
    ∀ r ∈ site.requests, (q.imports.serveAll rs).find? r.wanted = q.imports.find? r.wanted := by
  intro r mem
  rw [now]
  obtain ⟨v, found⟩ := Imports.find?_serveAll_of_mem sound mem
  rw [found, Imports.find?_serveAll_of_find? (sound.serveAll _) rs found]

theorem foldl_step_spec (options : Options) (hasImport : Bool) (sites : List Site)
    (order : List Nat) (p : Progress) (sound : p.imports.Sound names) :
    let q := order.foldl (step options hasImport sites) p
    q.imports = p.imports.serveAll (requestsAt sites order) ∧
      q.renames = q.imports.renamesFor (requestsAt sites order) ++ p.renames ∧
      q.actions.length = p.actions.length ∧
      ∀ i : Nat, q.actions[i]? =
        if i ∈ order ∧ i < p.actions.length ∧ i < sites.length then
          sites[i]?.map fun site => some (site.action q.imports)
        else p.actions[i]? := by
  induction order generalizing p with
  | nil => simp [requestsAt, Imports.serveAll, Imports.renamesFor]
  | cons j rest ih =>
      cases at_j : sites[j]? with
      | none =>
          have outside : sites.length ≤ j := List.getElem?_eq_none_iff.mp at_j
          have split : requestsAt sites (j :: rest) = requestsAt sites rest := by
            simp [requestsAt, at_j]
          obtain ⟨imports, renames, length, actions⟩ := ih p sound
          rw [List.foldl_cons, step_none options hasImport sites p j at_j, split]
          refine ⟨imports, renames, length, fun i => ?_⟩
          rw [actions i]
          by_cases same : i = j
          · subst same
            have beyond : ¬ i < sites.length := by omega
            simp [beyond]
          · simp [same]
      | some site =>
          have split : requestsAt sites (j :: rest) =
              site.requests ++ requestsAt sites rest := by
            simp [requestsAt, at_j]
          obtain ⟨now, renamed, set⟩ := step_spec options hasImport sites p sound j site at_j
          obtain ⟨imports, renames, length, actions⟩ :=
            ih (p.step options hasImport sites j) (by rw [now]; exact sound.serveAll _)
          -- Later requests leave alone what this site has found, so the action and the
          -- renames noted for it are those of the final imports as well.
          have stable := find?_of_step (requestsAt sites rest) sound now
          rw [← imports] at stable
          rw [List.foldl_cons, split]
          refine ⟨?_, ?_, ?_, fun i => ?_⟩
          · rw [Imports.serveAll_append, ← now]
            exact imports
          · rw [Imports.renamesFor_append, List.append_assoc, renames, renamed,
              Imports.renamesFor_congr stable]
          · rw [length, set, List.length_set]
          · rw [actions i, set, List.length_set]
            by_cases same : i = j
            · subst same
              obtain ⟨within, rfl⟩ := List.getElem?_eq_some_iff.mp at_j
              by_cases known : i < p.actions.length
              · simp [known, within, Site.action_congr stable]
              · simp [known]
            · simp [same, Ne.symm same]

/-- The actions of all sites, in order. -/
def allActions (p : Progress) : List SiteAction := p.actions.filterMap id

end Progress

variable (plan : Plan) (options : Options) (hasImport : Bool)

theorem Plan.process_imports :
    (plan.process options hasImport).imports =
      (Imports.mk plan.bindings.rootCtxt plan.taken []).serveAll plan.requests :=
  (Progress.foldl_step_spec options hasImport plan.sites plan.order (.start plan)
    (.empty _ plan.taken)).1

theorem Plan.process_sound :
    (plan.process options hasImport).imports.Sound plan.taken := by
  rw [plan.process_imports]
  exact (Imports.Sound.empty _ _).serveAll _

theorem Plan.process_renames :
    (plan.process options hasImport).renames =
      (plan.process options hasImport).imports.renamesFor plan.requests := by
  have spec := (Progress.foldl_step_spec options hasImport plan.sites plan.order
    (.start plan) (.empty _ plan.taken)).2.1
  rw [process, spec]
  exact List.append_nil _

/-- Every site has its action once all are processed. -/
theorem Plan.process_actions (all : ∀ i < plan.sites.length, i ∈ plan.order) :
    (plan.process options hasImport).allActions =
      plan.sites.map (·.action (plan.process options hasImport).imports) := by
  obtain ⟨-, -, length, actions⟩ := Progress.foldl_step_spec options hasImport plan.sites
    plan.order (.start plan) (.empty _ plan.taken)
  have start : (Progress.start plan).actions.length = plan.sites.length := by
    simp [Progress.start]
  rw [start] at length actions
  have each : (plan.process options hasImport).actions =
      plan.sites.map fun site => some (site.action (plan.process options hasImport).imports) := by
    apply List.ext_getElem?
    intro i
    rw [List.getElem?_map, process, actions i]
    split
    · rfl
    · next out =>
        have beyond : plan.sites.length ≤ i := by
          by_contra within
          exact out ⟨all i (by omega), by omega, by omega⟩
        simp [Progress.start, beyond]
  rw [Progress.allActions, each, List.filterMap_map]
  exact congrFun List.filterMap_eq_map _

theorem Plan.find?_of_site (all : ∀ i < plan.sites.length, i ∈ plan.order) {site : Site}
    (mem : site ∈ plan.sites) {r : Request} (asked : r ∈ site.requests) :
    ∃ v, (plan.process options hasImport).imports.find? r.wanted = some v := by
  obtain ⟨i, within, rfl⟩ := List.getElem_of_mem mem
  have requested : r ∈ plan.requests :=
    List.mem_flatMap.mpr ⟨i, all i within, by rwa [List.getElem?_eq_getElem within]⟩
  rw [plan.process_imports]
  exact Imports.find?_serveAll_of_mem (.empty _ _) requested

/-- What has come of the call sites when the plan of a module is carried out. -/
def Module.progress (m : Module) (plan : Plan) (options : Options) : Progress :=
  plan.process options (m.body.any Tree.isImport)

end MockImport
