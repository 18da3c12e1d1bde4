import MockImport.Proofs.Origins
import MockImport.Proofs.Redirects
import MockImport.Proofs.UsageGrammar

/-!
Hygiene of an expansion. The generated imports bind names that no identifier of the
module has, one for each thing requested; an identifier of the module takes such a name
only as an alias, and then the one that the last request for the alias was served with.
-/

namespace MockImport

theorem GeneratedImport.vars_toTree (i : GeneratedImport) (ctxt : Nat) :
    (i.toTree ctxt).importSpecifiers.map ImportSpecifier.var =
      i.entries.map fun entry => ⟨entry.2, ctxt⟩ := by
  cases i with
  | named source entries =>
      simp only [toTree, toTree.declaration, Tree.importSpecifiers, List.map_map,
        GeneratedImport.entries]
      rfl
  | star source binding => rfl

theorem Imports.vars_declarations (imports : Imports) :
    (imports.declarations.flatMap Tree.importSpecifiers).map ImportSpecifier.var =
      imports.entries.map fun entry => ⟨entry.2, imports.ctxt⟩ := by
  simp only [declarations, entries, List.flatMap_map, List.map_flatMap]
  exact List.flatMap_congr fun i _ => i.vars_toTree imports.ctxt

theorem ImportSpecifier.var_rename (r : Renaming) (s : ImportSpecifier) :
    (s.rename r).var = (r.lookup s.var).getD s.var := by
  cases s <;> rfl

theorem Tree.vars_renameList (r : Renaming) (ts : List Tree) :
    ((renameList r ts).flatMap importSpecifiers).map ImportSpecifier.var =
      ((ts.flatMap importSpecifiers).map ImportSpecifier.var).map
        fun v => (r.lookup v).getD v := by
  have each (t : Tree) : (rename r t).importSpecifiers =
      t.importSpecifiers.map (ImportSpecifier.rename r) := by
    cases t with
    | exportNamed _ _ source _ _ => cases source <;> rfl
    | shorthand id =>
        cases found : r.lookup id.var <;>
          simp only [rename, Ident.renameShorthand, found] <;> rfl
    | _ => rfl
  simp only [renameList_eq_map, List.flatMap_map, List.map_flatMap, List.map_map, each]
  exact List.flatMap_congr fun t _ => List.map_congr_left fun s _ => s.var_rename r

namespace Module

/-- An expansion is hygienic: what it imports has names of its own, and the identifiers
that it inherits come from the module by one renaming of the aliases. -/
structure Hygienic (m m' : Module) (plan : Plan) (p : Progress) : Prop where
  body : m'.body = p.front ++ p.back plan.bindings m.body
  locals : (p.front.flatMap Tree.importSpecifiers).map ImportSpecifier.var =
    p.imports.entries.map fun entry => ⟨entry.2, p.imports.ctxt⟩
  /-- One import for each thing requested. -/
  wanted : (p.imports.entries.map Prod.fst).Nodup
  requested : ∀ w, w ∈ p.imports.entries.map Prod.fst ↔ ∃ r ∈ plan.requests, r.wanted = w
  distinct : (p.imports.entries.map Prod.snd).Nodup
  fresh : ∀ name ∈ p.imports.entries.map Prod.snd, name ∉ m.names
  marks : Tree.marksList (p.back plan.bindings m.body) =
    (p.origins plan.bindings m.body).flatMap (·.mark.renamed p.renames)
  inherited : (Origin.kept (p.origins plan.bindings m.body)).Sublist (Tree.marksList m.body)
  made : ∀ o ∈ p.origins plan.bindings m.body, o.inherited = false →
    ∃ standing v, o.mark = .ident standing .generated v ∧
      (v = ⟨registrar, 0⟩ ∨
        v.ctxt = p.imports.ctxt ∧ v.name ∈ p.imports.entries.map Prod.snd)
  /-- An inherited identifier keeps its variable, or it was an alias. -/
  redirected : ∀ o ∈ p.origins plan.bindings m.body, o.inherited = true →
    ∀ standing span v standing' span' v', o.mark = .ident standing span v →
      .ident standing' span' v' ∈ o.mark.renamed p.renames →
        v'.name ∉ p.imports.entries.map Prod.snd ∧ v' = v ∨
          v'.name ∈ p.imports.entries.map Prod.snd ∧ v ∈ plan.aliases ∧
            ∃ r, lastRequest? plan.requests v = some r ∧ p.imports.find? r.wanted = some v'

variable {m m' : Module} {source : Option String} {plan : Plan}

theorem name_of_mark {standing : Standing} {span : Span} {v : Variable}
    (mem : .ident standing span v ∈ Tree.marksList m.body) : v.name ∈ m.names := by
  have names : m.names = (Tree.marksList m.body).filterMap Mark.name? :=
    Tree.names_eq_marks (.items m.body)
  rw [names]
  exact List.mem_filterMap.mpr ⟨_, mem, rfl⟩

section

variable (ok : Plan.ofModule m source = .ok plan) (options : Options)
include ok

theorem apply_hygienic (sites : plan.sites ≠ []) :
    m.Hygienic (m.apply plan options) plan (m.progress plan options) := by
  have sound := progress_sound ok options sites
  have generated {w : Wanted} {v : Variable}
      (found : (m.progress plan options).imports.find? w = some v) :
      v.ctxt = (m.progress plan options).imports.ctxt ∧
        v.name ∈ (m.progress plan options).imports.entries.map Prod.snd := by
    obtain ⟨ctxt, listed⟩ := (Imports.find?_eq_some_iff sound).mp found
    exact ⟨ctxt, List.mem_map.mpr ⟨_, listed, rfl⟩⟩
  have fresh : ∀ name ∈ (m.progress plan options).imports.entries.map Prod.snd,
      name ∉ m.names := by
    rw [List.forall_mem_map]
    exact sound.avoided
  refine ⟨m.body_apply plan options, ?_, sound.wanted, m.mem_wanted_iff plan options,
    sound.locals, fresh, ?_, Progress.kept_origins_sublist _ _ _, ?_, ?_⟩
  · rw [Progress.front, Tree.vars_renameList, Imports.vars_declarations, List.map_map]
    apply List.map_congr_left
    intro entry mem
    have apart : ⟨entry.2, (m.progress plan options).imports.ctxt⟩ ∉ plan.aliases :=
      fun isAlias => sound.avoided entry mem (name_of_alias ok isAlias)
    rw [Function.comp_apply, (lookup_renames_eq_none_iff ok options _).mpr apart]
    rfl
  · rw [Progress.back, Tree.marksList_rename, Progress.marksList_below, List.flatMap_map]
  · intro o mem made
    obtain ⟨standing, v, same, registrar | used⟩ := Progress.made_of_origins _ _ _ mem made
    · exact ⟨standing, v, same, .inl registrar⟩
    · have all (i : Nat) (within : i < plan.sites.length) :=
        (Plan.mem_order_of_ok ok i).mpr within
      rw [progress, plan.process_actions options _ all] at used
      obtain ⟨site, -, replaced⟩ := List.mem_map.mp used
      obtain ⟨w, found⟩ := site.find?_of_action replaced
      exact ⟨standing, v, same, .inr (generated found)⟩
  · intro o mem inherited standing span v standing' span' v' same renamed
    have kept : .ident standing span v ∈ Tree.marksList m.body :=
      (Progress.kept_origins_sublist _ _ _).subset
        (List.mem_map.mpr ⟨o, List.mem_filter.mpr ⟨mem, inherited⟩, same⟩)
    rw [same] at renamed
    obtain ⟨rfl, -⟩ | redirected := Mark.renamed_cases renamed
    · exact .inl ⟨fun taken => fresh _ taken (name_of_mark kept), rfl⟩
    · have isAlias : v ∈ plan.aliases := by
        by_contra apart
        rw [(lookup_renames_eq_none_iff ok options v).mpr apart] at redirected
        cases redirected
      rw [lookup_renames] at redirected
      obtain ⟨r, last, found⟩ := Option.bind_eq_some_iff.mp redirected
      exact .inr ⟨(generated found).2, isAlias, r, last, found⟩

end

/-- Every expansion is hygienic. -/
theorem expand_hygienic {options : Options} {count : Nat}
    (expanded : m.expand source options = .ok (count, m')) :
    count = 0 ∧ m' = m ∨ ∃ plan, Plan.ofModule m source = .ok plan ∧
      m.Hygienic m' plan (m.progress plan options) := by
  obtain ⟨plan, ok, rfl, ⟨none, rfl⟩ | ⟨sites, rfl⟩⟩ := expand_cases expanded
  · exact .inl ⟨congrArg List.length none, rfl⟩
  · exact .inr ⟨plan, ok, apply_hygienic ok options sites⟩

theorem expand_hygienic_plain :
    ∃ m', Sample.plain.expand none {} = .ok (3, m') ∧
      ∃ plan, Plan.ofModule Sample.plain none = .ok plan ∧
        Sample.plain.Hygienic m' plan (Sample.plain.progress plan {}) := by
  obtain ⟨m', expanded⟩ : ∃ m', Sample.plain.expand none {} = .ok (3, m') := ⟨_, rfl⟩
  exact ⟨m', expanded, (expand_hygienic expanded).resolve_left fun empty => by cases empty.1⟩

end Module
end MockImport
