import Mathlib.Data.List.Induction
import MockImport.Binding
import MockImport.Proofs.Processing

/-!
The order of the generated imports, in closed form. All that is wanted by name from one
module shares a declaration and everything a module exports has one of its own; the
declarations come in the order of the first requests for them, the latest on top, and
list names in the order of the first requests too.
-/

namespace MockImport

section

variable {α : Type} [BEq α] [LawfulBEq α] {x : α} {xs : List α}

theorem eraseDups_concat_of_mem (mem : x ∈ xs) : (xs ++ [x]).eraseDups = xs.eraseDups := by
  have gone : [x].removeAll xs = [] := by simp [List.removeAll, mem]
  rw [List.eraseDups_append, gone, List.eraseDups_nil, List.append_nil]

theorem eraseDups_concat_of_not_mem (apart : x ∉ xs) :
    (xs ++ [x]).eraseDups = xs.eraseDups ++ [x] := by
  have stays : [x].removeAll xs = [x] := by simp [List.removeAll, apart]
  rw [List.eraseDups_append, stays]
  rfl

theorem nodup_eraseDups (xs : List α) : xs.eraseDups.Nodup := by
  induction xs using List.reverseRecOn with
  | nil => exact .nil
  | append_singleton xs x ih =>
      by_cases mem : x ∈ xs
      · rwa [eraseDups_concat_of_mem mem]
      · rw [eraseDups_concat_of_not_mem mem]
        refine ih.append (List.nodup_singleton x) ?_
        simpa using mem

end

/-- What is imported from one module, by name or as a whole, shares a declaration. -/
abbrev ImportGroup := String × BindingKind

def Wanted.group (w : Wanted) : ImportGroup :=
  (w.source, if w.imported.isSome then .named else .star)

/-- The name under which something is wanted from a module, if it is by name. -/
def Wanted.named? (source : String) (w : Wanted) : Option String :=
  if w.source = source then w.imported else none

/-- What is wanted by name from a module, in the order of the first requests. -/
def namesFrom (ws : List Wanted) (source : String) : List String :=
  (ws.filterMap (Wanted.named? source)).eraseDups

section

variable {ws : List Wanted} {w : Wanted} {source imported : String}

theorem Wanted.named?_eq_some_iff :
    w.named? source = some imported ↔ w = ⟨source, some imported⟩ := by
  obtain ⟨s, i⟩ := w
  rw [named?, Option.ite_none_right_eq_some, Wanted.mk.injEq]

theorem Wanted.group_of_named? (found : w.named? source = some imported) :
    w.group = (source, .named) := by
  rw [named?_eq_some_iff.mp found]
  rfl

theorem namesFrom_concat_of_none (unnamed : w.named? source = none) :
    namesFrom (ws ++ [w]) source = namesFrom ws source := by
  simp only [namesFrom, List.filterMap_append, List.filterMap_cons, unnamed, List.filterMap_nil,
    List.append_nil]

theorem namesFrom_concat_of_mem (mem : w ∈ ws) :
    namesFrom (ws ++ [w]) source = namesFrom ws source := by
  cases found : w.named? source with
  | none => exact namesFrom_concat_of_none found
  | some imported =>
      simp only [namesFrom, List.filterMap_append, List.filterMap_cons, found, List.filterMap_nil]
      exact eraseDups_concat_of_mem (List.mem_filterMap.mpr ⟨w, mem, found⟩)

theorem namesFrom_concat_of_not_mem (apart : ⟨source, some imported⟩ ∉ ws) :
    namesFrom (ws ++ [⟨source, some imported⟩]) source = namesFrom ws source ++ [imported] := by
  have found : Wanted.named? source ⟨source, some imported⟩ = some imported := if_pos rfl
  simp only [namesFrom, List.filterMap_append, List.filterMap_cons, found, List.filterMap_nil]
  refine eraseDups_concat_of_not_mem fun mem => ?_
  obtain ⟨w, listed, same⟩ := List.mem_filterMap.mp mem
  exact apart (Wanted.named?_eq_some_iff.mp same ▸ listed)

end

namespace GeneratedImport

def group : GeneratedImport → ImportGroup
  | .named source _ => (source, .named)
  | .star source _ => (source, .star)

/-- The declaration of a group. -/
def declare (name : Wanted → String) (ws : List Wanted) : ImportGroup → GeneratedImport
  | (source, .named) => .named source
      ((namesFrom ws source).map fun imported => (imported, name ⟨source, some imported⟩))
  | (source, .star) => .star source (name ⟨source, none⟩)

/-- The declarations for what is wanted, in the order of the first requests. -/
def listing (name : Wanted → String) (ws : List Wanted) : List GeneratedImport :=
  (ws.map Wanted.group).eraseDups.map (declare name ws)

/-- Enters what is wanted into the imports under a name. -/
def enter (w : Wanted) (name : String) (imports : List GeneratedImport) :
    List GeneratedImport :=
  match w.imported with
  | some imported => insertNamed w.source (imported, name) imports
  | none => .star w.source name :: imports

theorem group_declare (name : Wanted → String) (ws : List Wanted) (g : ImportGroup) :
    (declare name ws g).group = g := by
  obtain ⟨source, kind⟩ := g
  cases kind <;> rfl

theorem extend?_cons_of_ne {source : String} (entry : String × String) {i : GeneratedImport}
    (other : i.group ≠ (source, .named)) (rest : List GeneratedImport) :
    extend? source entry (i :: rest) = (extend? source entry rest).map (i :: ·) := by
  cases i with
  | named s entries => exact if_neg fun same : s = source => other (same ▸ rfl)
  | star s binding => rfl

/-- A new entry goes to the end of the named import of its source. -/
theorem extend?_of_mem {source : String} (entry : String × String)
    {entries : List (String × String)} {imports : List GeneratedImport}
    (once : (imports.map group).Nodup) (mem : .named source entries ∈ imports) :
    extend? source entry imports = some (imports.map fun i =>
      if i.group = (source, .named) then .named source (entries ++ [entry]) else i) := by
  induction imports with
  | nil => cases mem
  | cons i rest ih =>
      obtain ⟨apart, onceRest⟩ := List.nodup_cons.mp once
      obtain rfl | later := List.mem_cons.mp mem
      · have unchanged : (rest.map fun i => if i.group = (source, .named) then
            .named source (entries ++ [entry]) else i) = rest := by
          refine (List.map_congr_left fun i mem => if_neg fun same => ?_).trans (List.map_id' rest)
          exact apart (List.mem_map.mpr ⟨i, mem, same⟩)
        rw [extend?, if_pos rfl, List.map_cons, unchanged, group, if_pos rfl]
      · have other : i.group ≠ (source, .named) := fun same =>
          apart (List.mem_map.mpr ⟨_, later, same.symm⟩)
        rw [extend?_cons_of_ne entry other, ih onceRest later, List.map_cons, if_neg other]
        rfl

theorem extend?_of_not_mem {source : String} (entry : String × String)
    {imports : List GeneratedImport} (absent : (source, .named) ∉ imports.map group) :
    extend? source entry imports = none := by
  induction imports with
  | nil => rfl
  | cons i rest ih =>
      rw [List.map_cons, List.mem_cons, not_or] at absent
      rw [extend?_cons_of_ne entry fun same => absent.1 same.symm, ih absent.2]
      rfl

variable (name : Wanted → String) (ws : List Wanted)

theorem groups_listing : (listing name ws).map group = (ws.map Wanted.group).eraseDups := by
  rw [listing, List.map_map]
  exact (List.map_congr_left fun g _ => group_declare name ws g).trans (List.map_id' _)

variable {name ws} {w : Wanted} {source imported : String}

theorem declare_concat_of_mem (mem : w ∈ ws) (g : ImportGroup) :
    declare name (ws ++ [w]) g = declare name ws g := by
  obtain ⟨source, kind⟩ := g
  cases kind with
  | named => simp only [declare, namesFrom_concat_of_mem mem]
  | star => rfl

theorem declare_concat_of_ne {g : ImportGroup} (other : g ≠ w.group) :
    declare name (ws ++ [w]) g = declare name ws g := by
  obtain ⟨source, kind⟩ := g
  cases kind with
  | named =>
      have unnamed : w.named? source = none := by
        refine Option.eq_none_iff_forall_ne_some.mpr fun imported found => ?_
        exact other (Wanted.group_of_named? found).symm
      simp only [declare, namesFrom_concat_of_none unnamed]
  | star => rfl

theorem declare_concat_of_not_mem (apart : ⟨source, some imported⟩ ∉ ws) :
    declare name (ws ++ [⟨source, some imported⟩]) (source, .named) = .named source
      (((namesFrom ws source).map fun imported => (imported, name ⟨source, some imported⟩)) ++
        [(imported, name ⟨source, some imported⟩)]) := by
  rw [declare, namesFrom_concat_of_not_mem apart, List.map_append]
  rfl

theorem namesFrom_of_not_mem (absent : (source, .named) ∉ ws.map Wanted.group) :
    namesFrom ws source = [] := by
  have none : ws.filterMap (Wanted.named? source) = [] := by
    refine List.filterMap_eq_nil_iff.mpr fun w mem => ?_
    refine Option.eq_none_iff_forall_ne_some.mpr fun imported found => absent ?_
    exact List.mem_map.mpr ⟨w, mem, Wanted.group_of_named? found⟩
  rw [namesFrom, none, List.eraseDups_nil]

theorem groups_concat_of_mem (known : w.group ∈ ws.map Wanted.group) :
    ((ws ++ [w]).map Wanted.group).eraseDups = (ws.map Wanted.group).eraseDups := by
  rw [List.map_append]
  exact eraseDups_concat_of_mem known

/-- A further request for something that is wanted already changes nothing. -/
theorem listing_concat_of_mem (mem : w ∈ ws) :
    listing name (ws ++ [w]) = listing name ws := by
  rw [listing, groups_concat_of_mem (List.mem_map_of_mem mem)]
  exact List.map_congr_left fun g _ => declare_concat_of_mem mem g

/-- A further request of a group changes the declaration of the group only. -/
theorem listing_concat_of_old_group (known : w.group ∈ ws.map Wanted.group) :
    listing name (ws ++ [w]) = (listing name ws).map fun i =>
      if i.group = w.group then declare name (ws ++ [w]) w.group else i := by
  rw [listing, groups_concat_of_mem known, listing, List.map_map]
  refine List.map_congr_left fun g _ => ?_
  rw [Function.comp_apply, group_declare]
  split
  · next same => rw [same]
  · next other => exact declare_concat_of_ne other

/-- A first request of a group adds a declaration. -/
theorem listing_concat_of_new_group (absent : w.group ∉ ws.map Wanted.group) :
    listing name (ws ++ [w]) = listing name ws ++ [declare name (ws ++ [w]) w.group] := by
  have groups : ((ws ++ [w]).map Wanted.group).eraseDups =
      (ws.map Wanted.group).eraseDups ++ [w.group] := by
    rw [List.map_append]
    exact eraseDups_concat_of_not_mem absent
  rw [listing, groups, List.map_append]
  refine congrArg (· ++ _) (List.map_congr_left fun g mem => declare_concat_of_ne ?_)
  rintro rfl
  exact absent (List.mem_eraseDups.mp mem)

/-- A request for something that was not wanted before enters it at the top, or into the
declaration of its group. -/
theorem listing_concat_of_not_mem (apart : w ∉ ws) :
    (listing name (ws ++ [w])).reverse = enter w (name w) (listing name ws).reverse := by
  obtain ⟨source, imported⟩ := w
  cases imported with
  | none =>
      -- Everything that a module exports is the only thing of its group.
      have new : Wanted.group ⟨source, none⟩ ∉ ws.map Wanted.group := by
        intro mem
        obtain ⟨⟨s, imported⟩, listed, same⟩ := List.mem_map.mp mem
        cases imported with
        | none =>
            obtain rfl : s = source := (Prod.mk.inj same).1
            exact apart listed
        | some imported => cases (Prod.mk.inj same).2
      rw [listing_concat_of_new_group new, List.reverse_append, List.reverse_singleton]
      rfl
  | some imported =>
      have same : declare name (ws ++ [⟨source, some imported⟩]) (source, .named) = _ :=
        declare_concat_of_not_mem apart
      by_cases known : (source, .named) ∈ ws.map Wanted.group
      · have once : ((listing name ws).reverse.map group).Nodup := by
          rw [List.map_reverse, groups_listing, List.nodup_reverse]
          exact nodup_eraseDups _
        have mem : declare name ws (source, .named) ∈ (listing name ws).reverse :=
          List.mem_reverse.mpr (List.mem_map_of_mem (List.mem_eraseDups.mpr known))
        simp only [enter, insertNamed, extend?_of_mem _ once mem, Option.getD_some]
        rw [listing_concat_of_old_group known, ← List.map_reverse]
        exact List.map_congr_left fun i _ => by rw [← same]; rfl
      · have absent : (source, .named) ∉ (listing name ws).reverse.map group := by
          rwa [List.map_reverse, groups_listing, List.mem_reverse, List.mem_eraseDups]
        rw [namesFrom_of_not_mem known] at same
        rw [listing_concat_of_new_group known, List.reverse_append, List.reverse_singleton]
        simp only [enter, insertNamed, extend?_of_not_mem _ absent, Option.getD_none]
        exact congrArg (· :: _) same

end GeneratedImport

namespace Imports

/-- The local name for something wanted, once it is imported. -/
def nameOf (imports : Imports) (w : Wanted) : String :=
  (imports.find? w).elim "" Variable.name

variable {names : List String}

theorem serve_of_known {imports : Imports} {w : Wanted} {name hint : String}
    (known : imports.entries.lookup w = some name) : (imports.serve w hint).2 = imports := by
  obtain ⟨_, -, served⟩ | ⟨_, _, absent, -⟩ := serve_cases imports w hint
  · rw [served]
  · rw [known] at absent
    cases absent

theorem generated_serve (imports : Imports) (w : Wanted) (hint : String)
    (absent : imports.entries.lookup w = none) :
    (imports.serve w hint).2.generated =
      GeneratedImport.enter w (imports.serve w hint).1.name imports.generated := by
  obtain ⟨source, imported⟩ := w
  cases imported with
  | some imported => simp only [serve, addNamed, findSome?_named?, absent]; rfl
  | none => simp only [serve, addStar, findSome?_star?, absent]; rfl

/-- From imports that list what is wanted so far, requests come to imports that list what
is wanted in all, if the names are those of the final table. -/
theorem generated_serveAll {imports : Imports} (sound : imports.Sound names) (rs : List Request)
    (ws : List Wanted) (name : Wanted → String)
    (listed : imports.generated = (GeneratedImport.listing name ws).reverse)
    (wanted : ∀ w, w ∈ imports.entries.map Prod.fst ↔ w ∈ ws)
    (named : ∀ w v, (imports.serveAll rs).find? w = some v → name w = v.name) :
    (imports.serveAll rs).generated =
      (GeneratedImport.listing name (ws ++ rs.map Request.wanted)).reverse := by
  induction rs generalizing imports ws with
  | nil => rw [List.map_nil, List.append_nil]; exact listed
  | cons r rest ih =>
      have later := ih (sound.serve r.wanted r.hint) (ws ++ [r.wanted])
      rw [List.append_assoc] at later
      refine later ?_ ?_ named
      · cases known : imports.entries.lookup r.wanted with
        | some v =>
            have mem : r.wanted ∈ ws := by
              obtain ⟨_, _, split, -⟩ := List.lookup_eq_some_iff.mp known
              rw [← wanted, split]
              simp
            rw [serve_of_known known, listed, GeneratedImport.listing_concat_of_mem mem]
        | none =>
            have apart : r.wanted ∉ ws := by
              rw [← wanted]
              intro mem
              obtain ⟨entry, isEntry, same⟩ := List.mem_map.mp mem
              exact absurd (List.lookup_eq_none_iff.mp known entry isEntry) (by simp [same])
            have found := find?_serveAll_of_find? (sound.serve r.wanted r.hint) rest
              (find?_serve_self sound r.wanted r.hint)
            rw [generated_serve imports r.wanted r.hint known, listed,
              GeneratedImport.listing_concat_of_not_mem apart, named r.wanted _ found]
      · intro w
        rw [mem_wanted_serve, wanted, List.mem_append, List.mem_singleton]
        exact or_comm

end Imports

/-- What the call sites of a plan want to have imported, in processing order. -/
def Plan.wanted (plan : Plan) : List Wanted := plan.requests.map Request.wanted

theorem Plan.process_generated (plan : Plan) (options : Options) (hasImport : Bool) :
    (plan.process options hasImport).imports.generated =
      (GeneratedImport.listing (plan.process options hasImport).imports.nameOf
        plan.wanted).reverse := by
  rw [plan.process_imports]
  refine Imports.generated_serveAll (.empty _ plan.taken) plan.requests [] _ rfl (fun _ => .rfl) ?_
  intro w v found
  rw [Imports.nameOf, found]
  rfl

end MockImport
