import Mathlib.Data.List.Pairwise
import MockImport.Proofs.Planning
import MockImport.Proofs.Processing

/-!
The renaming that an expansion carries out. An alias is redirected by the last request
that replaces it; the names it is redirected to are new to the module, so a redirected
identifier is never redirected again and no other identifier changes.
-/

namespace MockImport

/-- The last of some requests that replaces an alias. -/
def lastRequest? (rs : List Request) (v : Variable) : Option Request :=
  rs.reverse.find? (·.replaced = some v)

theorem lastRequest?_spec {rs : List Request} {v : Variable} {r : Request}
    (last : lastRequest? rs v = some r) : r ∈ rs ∧ r.replaced = some v :=
  ⟨List.mem_reverse.mp (List.mem_of_find?_eq_some last),
    of_decide_eq_true (List.find?_some (p := fun q : Request => q.replaced = some v) last)⟩

theorem lastRequest?_eq_none_iff (rs : List Request) (v : Variable) :
    lastRequest? rs v = none ↔ ∀ r ∈ rs, r.replaced ≠ some v := by
  simp only [lastRequest?, List.find?_eq_none, List.mem_reverse, decide_eq_true_eq, ne_eq]

namespace Imports

variable {imports : Imports} {names : List String}

/-- A renaming redirects an alias by the last request that replaces it. -/
theorem lookup_renamesFor {rs : List Request}
    (served : ∀ r ∈ rs, ∃ v, imports.find? r.wanted = some v) (v : Variable) :
    (imports.renamesFor rs).lookup v = (lastRequest? rs v).bind (imports.find? ·.wanted) := by
  have served' : ∀ r ∈ rs.reverse, ∃ v, imports.find? r.wanted = some v :=
    fun r mem => served r (List.mem_reverse.mp mem)
  simp only [renamesFor, lastRequest?]
  generalize rs.reverse = qs at served'
  induction qs with
  | nil => rfl
  | cons r rest ih =>
      obtain ⟨⟨new, found⟩, later⟩ := List.forall_mem_cons.mp served'
      rw [List.filterMap_cons, List.find?_cons]
      cases replaced : r.replaced with
      | none => exact ih later
      | some old =>
          simp only [found, Option.bind_some, Option.map_some, List.lookup_cons]
          by_cases same : v = old
          · subst same
            simp [found]
          · have apart : (v == old) = false := beq_eq_false_iff_ne.mpr same
            have differ : ¬ old = v := fun equal => same equal.symm
            simp only [apart, Option.some.injEq, differ, decide_false]
            exact ih later

theorem Sound.avoided_of_find? (sound : Sound names imports) {w : Wanted} {v : Variable}
    (found : imports.find? w = some v) : v.name ∉ names :=
  sound.avoided _ ((find?_eq_some_iff sound).mp found).2

end Imports

namespace Site

theorem filterMap_replaced_requests (site : Site) :
    site.requests.filterMap Request.replaced = site.aliases := by
  obtain ⟨b, source, pattern⟩ := site
  cases pattern with
  | destructure pairs =>
      simp only [requests, aliases, Pattern.aliases, List.filterMap_map]
      exact congrFun List.filterMap_eq_map pairs
  | _ => rfl

end Site

namespace Plan

/-- The variables that the sites of a plan declare. -/
def aliases (plan : Plan) : List Variable := plan.sites.flatMap Site.aliases

variable {plan : Plan}

theorem mem_requests_iff (all : ∀ i, i ∈ plan.order ↔ i < plan.sites.length) (r : Request) :
    r ∈ plan.requests ↔ ∃ site ∈ plan.sites, r ∈ site.requests := by
  simp only [requests, requestsAt, List.mem_flatMap, all]
  constructor
  · rintro ⟨i, within, asked⟩
    rw [List.getElem?_eq_getElem within] at asked
    exact ⟨plan.sites[i], List.getElem_mem within, asked⟩
  · rintro ⟨site, mem, asked⟩
    obtain ⟨i, within, rfl⟩ := List.getElem_of_mem mem
    exact ⟨i, within, by rwa [List.getElem?_eq_getElem within]⟩

theorem mem_aliases_iff (all : ∀ i, i ∈ plan.order ↔ i < plan.sites.length) (v : Variable) :
    v ∈ plan.aliases ↔ ∃ r ∈ plan.requests, r.replaced = some v := by
  simp only [mem_requests_iff all, aliases, List.mem_flatMap,
    ← Site.filterMap_replaced_requests, List.mem_filterMap]
  constructor
  · rintro ⟨site, mem, r, asked, replaced⟩
    exact ⟨r, ⟨site, mem, asked⟩, replaced⟩
  · rintro ⟨r, ⟨site, mem, asked⟩, replaced⟩
    exact ⟨site, mem, r, asked, replaced⟩

/-- If no alias is declared twice, one request replaces it. -/
theorem request_unique (once : plan.aliases.Nodup) {site other : Site} {r q : Request}
    {v : Variable} (mem : site ∈ plan.sites) (asked : r ∈ site.requests)
    (replaced : r.replaced = some v) (mem' : other ∈ plan.sites) (asked' : q ∈ other.requests)
    (replaced' : q.replaced = some v) : r = q := by
  have flat : (plan.sites.flatMap Site.requests).filterMap Request.replaced = plan.aliases := by
    rw [List.filterMap_flatMap]
    exact List.flatMap_congr fun site _ => site.filterMap_replaced_requests
  rw [← flat, List.Nodup, List.pairwise_filterMap] at once
  by_contra apart
  have : Std.Symm fun r q : Request => ∀ v, r.replaced = some v →
      ∀ u, q.replaced = some u → v ≠ u :=
    ⟨fun _ _ differ v isV u isU same => differ u isU v isV same.symm⟩
  exact once.forall (List.mem_flatMap.mpr ⟨site, mem, asked⟩)
    (List.mem_flatMap.mpr ⟨other, mem', asked'⟩) apart v replaced v replaced' rfl

end Plan

namespace Module

variable {m : Module} {source : Option String} {plan : Plan} {w : Wanted} {v : Variable}

theorem find?_of_request (m : Module) (options : Options) {r : Request}
    (mem : r ∈ plan.requests) :
    ∃ v, (m.progress plan options).imports.find? r.wanted = some v := by
  rw [progress, plan.process_imports]
  exact Imports.find?_serveAll_of_mem (.empty _ _) mem

theorem mem_wanted_iff (m : Module) (plan : Plan) (options : Options) (w : Wanted) :
    w ∈ (m.progress plan options).imports.entries.map Prod.fst ↔
      ∃ r ∈ plan.requests, r.wanted = w := by
  rw [progress, plan.process_imports, Imports.mem_wanted_serveAll, List.mem_map]
  exact or_iff_left List.not_mem_nil

theorem lookup_renames (m : Module) (plan : Plan) (options : Options) (v : Variable) :
    (m.progress plan options).renames.lookup v =
      (lastRequest? plan.requests v).bind
        ((m.progress plan options).imports.find? ·.wanted) := by
  rw [progress, plan.process_renames]
  exact Imports.lookup_renamesFor (fun r mem => m.find?_of_request options mem) v

section

variable (ok : Plan.ofModule m source = .ok plan) (options : Options)
include ok

theorem name_of_alias (mem : v ∈ plan.aliases) : v.name ∈ m.names := by
  obtain ⟨site, isSite, declared⟩ := List.mem_flatMap.mp mem
  exact Plan.names_of_ok ok isSite v declared

theorem progress_sound (sites : plan.sites ≠ []) :
    (m.progress plan options).imports.Sound m.names := by
  rw [← Plan.taken_of_ok ok sites]
  exact plan.process_sound options _

theorem lookup_renames_eq_none_iff (v : Variable) :
    (m.progress plan options).renames.lookup v = none ↔ v ∉ plan.aliases := by
  rw [lookup_renames, Plan.mem_aliases_iff (Plan.mem_order_of_ok ok)]
  constructor
  · rintro unknown ⟨r, mem, replaced⟩
    cases last : lastRequest? plan.requests v with
    | none => exact (lastRequest?_eq_none_iff _ v).mp last r mem replaced
    | some q =>
        obtain ⟨new, found⟩ := m.find?_of_request options (lastRequest?_spec last).1
        rw [last, Option.bind_some, found] at unknown
        cases unknown
  · intro apart
    have last : lastRequest? plan.requests v = none :=
      (lastRequest?_eq_none_iff _ v).mpr fun r mem replaced => apart ⟨r, mem, replaced⟩
    rw [last, Option.bind_none]

/-- No alias is what another one is redirected to. -/
theorem not_alias_of_find? (sites : plan.sites ≠ [])
    (found : (m.progress plan options).imports.find? w = some v) : v ∉ plan.aliases :=
  fun mem => (progress_sound ok options sites).avoided_of_find? found (name_of_alias ok mem)

theorem lookup_renames_of_find? (sites : plan.sites ≠ [])
    (found : (m.progress plan options).imports.find? w = some v) :
    (m.progress plan options).renames.lookup v = none :=
  (lookup_renames_eq_none_iff ok options v).mpr (not_alias_of_find? ok options sites found)

/-- An alias that is declared once is redirected to what its request imports. -/
theorem lookup_renames_of_request (once : plan.aliases.Nodup) {site : Site}
    (mem : site ∈ plan.sites) {r : Request} (asked : r ∈ site.requests)
    (replaced : r.replaced = some v) :
    (m.progress plan options).renames.lookup v =
      (m.progress plan options).imports.find? r.wanted := by
  have all := Plan.mem_order_of_ok ok
  rw [lookup_renames]
  cases last : lastRequest? plan.requests v with
  | none =>
      exact absurd replaced ((lastRequest?_eq_none_iff _ v).mp last r
        ((Plan.mem_requests_iff all r).mpr ⟨site, mem, asked⟩))
  | some q =>
      obtain ⟨requested, replaced'⟩ := lastRequest?_spec last
      obtain ⟨other, mem', asked'⟩ := (Plan.mem_requests_iff all q).mp requested
      rw [Option.bind_some, Plan.request_unique once mem asked replaced mem' asked' replaced']

end

end Module
end MockImport
