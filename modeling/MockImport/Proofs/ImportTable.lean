import Mathlib.Data.List.Nodup
import Mathlib.Data.List.Perm.Basic
import Mathlib.Logic.Function.Basic
import MockImport.GeneratedImport
import MockImport.Proofs.FreshNames

/-!
The generated imports as a table from what was asked for to local names. Serving one
request either finds its entry or adds one under a name that is not taken; from this
follow the invariants of the table over any sequence of requests.
-/

namespace MockImport

/-- Changing keys one to one changes no answer of a table. -/
theorem lookup_map_of_injective {α β γ δ : Type} [BEq α] [LawfulBEq α] [BEq γ] [LawfulBEq γ]
    {f : α → γ} (inj : Function.Injective f) (g : β → δ) (table : List (α × β)) (k : α) :
    (table.map (Prod.map f g)).lookup (f k) = (table.lookup k).map g := by
  induction table with
  | nil => rfl
  | cons entry rest ih =>
      have same : (f k == f entry.1) = (k == entry.1) := by
        rw [Bool.eq_iff_iff, beq_iff_eq, beq_iff_eq, inj.eq_iff]
      rw [List.map_cons, Prod.map, List.lookup_cons, List.lookup_cons, same, ih]
      cases k == entry.1 <;> rfl

/-- What an import is generated for: one export of a module, or everything. -/
structure Wanted where
  source : String
  imported : Option String
  deriving DecidableEq

namespace GeneratedImport

def entries : GeneratedImport → List (Wanted × String)
  | .named source pairs => pairs.map fun (imported, name) => (⟨source, some imported⟩, name)
  | .star source binding => [(⟨source, none⟩, binding)]

private theorem lookup_named (source s imported : String) (pairs : List (String × String)) :
    (entries (.named s pairs)).lookup ⟨source, some imported⟩ =
      if s = source then pairs.lookup imported else none := by
  simp only [entries, List.lookup_eq_findSome?, List.findSome?_map]
  by_cases same : s = source
  · simp [same, Function.comp_def]
  · have apart : source ≠ s := fun equal => same equal.symm
    simp [same, apart, Function.comp_def]

theorem named?_eq_lookup (source imported : String) (i : GeneratedImport) :
    i.named? source imported = i.entries.lookup ⟨source, some imported⟩ := by
  cases i with
  | named s pairs => rw [lookup_named]; rfl
  | star s binding => simp [named?, entries, List.lookup_eq_findSome?]

theorem star?_eq_lookup (source : String) (i : GeneratedImport) :
    i.star? source = i.entries.lookup ⟨source, none⟩ := by
  simp only [List.lookup_eq_findSome?]
  cases i with
  | named s pairs =>
      symm
      rw [star?, List.findSome?_eq_none_iff]
      intro entry mem
      obtain ⟨pair, _, rfl⟩ := List.mem_map.mp mem
      simp
  | star s binding =>
      by_cases same : s = source
      · simp [star?, entries, same]
      · have apart : source ≠ s := fun equal => same equal.symm
        simp [star?, entries, same, apart]

/-- A new entry joins the named import of its source wherever that stands. -/
theorem entries_extend? {source : String} {entry : String × String}
    {imports extended : List GeneratedImport}
    (found : extend? source entry imports = some extended) :
    (extended.flatMap entries).Perm
      ((⟨source, some entry.1⟩, entry.2) :: imports.flatMap entries) := by
  induction imports generalizing extended with
  | nil => simp [extend?] at found
  | cons i rest ih =>
      cases i with
      | named s pairs =>
          simp only [extend?] at found
          split at found
          · next same =>
              obtain rfl := Option.some.inj found
              subst same
              simp only [List.flatMap_cons, entries, List.map_append, List.map_cons,
                List.map_nil, List.append_assoc, List.singleton_append]
              exact List.perm_middle
          · obtain ⟨rest', found', rfl⟩ := Option.map_eq_some_iff.mp found
            simp only [List.flatMap_cons]
            exact ((ih found').append_left _).trans List.perm_middle
      | star s binding =>
          obtain ⟨rest', found', rfl⟩ := Option.map_eq_some_iff.mp found
          simp only [List.flatMap_cons]
          exact ((ih found').append_left _).trans List.perm_middle

theorem entries_insertNamed (source : String) (entry : String × String)
    (imports : List GeneratedImport) :
    ((insertNamed source entry imports).flatMap entries).Perm
      ((⟨source, some entry.1⟩, entry.2) :: imports.flatMap entries) := by
  rw [insertNamed]
  cases found : extend? source entry imports with
  | none => exact .refl _
  | some extended => exact entries_extend? found

end GeneratedImport

namespace Imports

def entries (imports : Imports) : List (Wanted × String) :=
  imports.generated.flatMap GeneratedImport.entries

/-- The local variable for something wanted, once it is imported. -/
def find? (imports : Imports) (w : Wanted) : Option Variable :=
  (imports.entries.lookup w).map (⟨·, imports.ctxt⟩)

/-- Serves one request; a hint serves to name what is imported by name. -/
def serve (imports : Imports) (w : Wanted) (hint : String) : Variable × Imports :=
  match w.imported with
  | some imported => imports.addNamed imported w.source hint
  | none => imports.addStar w.source

private theorem findSome?_lookup (w : Wanted) (generated : List GeneratedImport) :
    generated.findSome? (·.entries.lookup w) =
      (generated.flatMap GeneratedImport.entries).lookup w := by
  induction generated with
  | nil => rfl
  | cons i rest ih =>
      simp only [List.findSome?_cons, List.flatMap_cons, List.lookup_append, ih]
      cases i.entries.lookup w <;> rfl

theorem findSome?_named? (imports : Imports) (source imported : String) :
    imports.generated.findSome? (·.named? source imported) =
      imports.entries.lookup ⟨source, some imported⟩ := by
  simp only [GeneratedImport.named?_eq_lookup, findSome?_lookup, entries]

theorem findSome?_star? (imports : Imports) (source : String) :
    imports.generated.findSome? (·.star? source) = imports.entries.lookup ⟨source, none⟩ := by
  simp only [GeneratedImport.star?_eq_lookup, findSome?_lookup, entries]

/-- All that serving a request can do: answer from the table, or add one entry under
a fresh name. -/
theorem serve_cases (imports : Imports) (w : Wanted) (hint : String) :
    (∃ name, imports.entries.lookup w = some name ∧
      imports.serve w hint = (⟨name, imports.ctxt⟩, imports)) ∨
    ∃ name next, imports.entries.lookup w = none ∧
      (∃ hinted, name = freshName imports.taken hinted) ∧
      imports.serve w hint = (⟨name, imports.ctxt⟩, next) ∧ next.ctxt = imports.ctxt ∧
      next.taken = name :: imports.taken ∧ next.entries.Perm ((w, name) :: imports.entries) := by
  obtain ⟨source, imported⟩ := w
  cases imported with
  | some imported =>
      simp only [serve, addNamed, findSome?_named?]
      cases known : imports.entries.lookup ⟨source, some imported⟩ with
      | some name => exact .inl ⟨name, rfl, rfl⟩
      | none =>
          refine .inr ⟨_, _, rfl, ⟨hint, rfl⟩, rfl, rfl, rfl, ?_⟩
          exact GeneratedImport.entries_insertNamed _ _ _
  | none =>
      simp only [serve, addStar, findSome?_star?]
      cases known : imports.entries.lookup ⟨source, none⟩ with
      | some name => exact .inl ⟨name, rfl, rfl⟩
      | none =>
          exact .inr ⟨_, _, rfl, ⟨source, rfl⟩, rfl, rfl, rfl, .refl _⟩

/-- What holds of the table over any sequence of requests: one entry for each thing
wanted, one name for each entry, and no name among those to avoid. -/
structure Sound (names : List String) (imports : Imports) : Prop where
  wanted : (imports.entries.map Prod.fst).Nodup
  locals : (imports.entries.map Prod.snd).Nodup
  covered : ∀ entry ∈ imports.entries, entry.2 ∈ imports.taken
  avoided : ∀ entry ∈ imports.entries, entry.2 ∉ names
  kept : names ⊆ imports.taken

variable {names : List String} {imports : Imports} {w u : Wanted} {v : Variable}

theorem Sound.empty (ctxt : Nat) (names : List String) : Sound names ⟨ctxt, names, []⟩ where
  wanted := .nil
  locals := .nil
  covered := List.forall_mem_nil _
  avoided := List.forall_mem_nil _
  kept := List.Subset.refl names

theorem Sound.serve (sound : Sound names imports) (w : Wanted) (hint : String) :
    Sound names (imports.serve w hint).2 := by
  obtain ⟨name, _, served⟩ | ⟨name, next, absent, ⟨hinted, fresh⟩, served, _, taken, entries⟩ :=
    serve_cases imports w hint
  · rwa [served]
  · have free : name ∉ imports.taken := fresh ▸ freshName_not_mem imports.taken hinted
    have unlisted : w ∉ imports.entries.map Prod.fst := by
      intro mem
      obtain ⟨entry, listed, rfl⟩ := List.mem_map.mp mem
      exact absurd (List.lookup_eq_none_iff.mp absent entry listed) (by simp)
    have unused : name ∉ imports.entries.map Prod.snd := by
      intro mem
      obtain ⟨entry, listed, rfl⟩ := List.mem_map.mp mem
      exact free (sound.covered entry listed)
    rw [served]
    constructor
    · exact (entries.map Prod.fst).nodup_iff.mpr (List.nodup_cons.mpr ⟨unlisted, sound.wanted⟩)
    · exact (entries.map Prod.snd).nodup_iff.mpr (List.nodup_cons.mpr ⟨unused, sound.locals⟩)
    · intro entry mem
      rw [taken]
      obtain rfl | old := List.mem_cons.mp (entries.mem_iff.mp mem)
      · exact List.mem_cons_self
      · exact List.mem_cons_of_mem _ (sound.covered entry old)
    · intro entry mem
      obtain rfl | old := List.mem_cons.mp (entries.mem_iff.mp mem)
      · exact fun avoid => free (sound.kept avoid)
      · exact sound.avoided entry old
    · rw [taken]
      exact fun n mem => List.mem_cons_of_mem _ (sound.kept mem)

/-- In a table with one entry for each key, looking up is membership. -/
theorem lookup_eq_some_iff_mem {α : Type} {table : List (Wanted × α)}
    (once : (table.map Prod.fst).Nodup) (w : Wanted) (name : α) :
    table.lookup w = some name ↔ (w, name) ∈ table := by
  induction table with
  | nil => simp
  | cons entry rest ih =>
      obtain ⟨key, value⟩ := entry
      rw [List.map_cons, List.nodup_cons] at once
      by_cases here : w = key
      · subst here
        have elsewhere : (w, name) ∉ rest := fun mem =>
          once.1 (List.mem_map.mpr ⟨_, mem, rfl⟩)
        simp [elsewhere, eq_comm]
      · have differ : (w == key) = false := by simpa using here
        simp [List.lookup_cons, differ, ih once.2, here]

theorem find?_eq_some_iff (sound : Sound names imports) :
    imports.find? w = some v ↔ v.ctxt = imports.ctxt ∧ (w, v.name) ∈ imports.entries := by
  rw [← lookup_eq_some_iff_mem sound.wanted, find?, Option.map_eq_some_iff]
  constructor
  · rintro ⟨name, found, rfl⟩
    exact ⟨rfl, found⟩
  · rintro ⟨ctxt, found⟩
    exact ⟨v.name, found, by rw [← ctxt]⟩

theorem serve_ctxt (imports : Imports) (w : Wanted) (hint : String) :
    (imports.serve w hint).2.ctxt = imports.ctxt := by
  obtain ⟨name, _, served⟩ | ⟨name, next, _, _, served, ctxt, _, _⟩ := serve_cases imports w hint
  · rw [served]
  · rw [served, ← ctxt]

theorem find?_serve_self (sound : Sound names imports) (w : Wanted) (hint : String) :
    (imports.serve w hint).2.find? w = some (imports.serve w hint).1 := by
  rw [find?_eq_some_iff (sound.serve w hint), serve_ctxt]
  obtain ⟨name, found, served⟩ | ⟨name, next, _, _, served, _, _, entries⟩ :=
    serve_cases imports w hint
  · rw [served]
    exact ⟨rfl, (lookup_eq_some_iff_mem sound.wanted w name).mp found⟩
  · rw [served]
    exact ⟨rfl, entries.mem_iff.mpr List.mem_cons_self⟩

/-- No later request changes what the table holds. -/
theorem find?_serve_of_find? (sound : Sound names imports) (u : Wanted) (hint : String)
    (found : imports.find? w = some v) : (imports.serve u hint).2.find? w = some v := by
  rw [find?_eq_some_iff sound] at found
  rw [find?_eq_some_iff (sound.serve u hint), serve_ctxt]
  refine ⟨found.1, ?_⟩
  obtain ⟨name, _, served⟩ | ⟨name, next, _, _, served, _, _, entries⟩ :=
    serve_cases imports u hint
  · rw [served]
    exact found.2
  · rw [served]
    exact entries.mem_iff.mpr (List.mem_cons_of_mem _ found.2)

theorem mem_wanted_serve (imports : Imports) (w u : Wanted) (hint : String) :
    w ∈ (imports.serve u hint).2.entries.map Prod.fst ↔
      w = u ∨ w ∈ imports.entries.map Prod.fst := by
  obtain ⟨name, found, served⟩ | ⟨name, next, _, _, served, _, _, entries⟩ :=
    serve_cases imports u hint
  · have listed : u ∈ imports.entries.map Prod.fst := by
      obtain ⟨before, after, split, _⟩ := List.lookup_eq_some_iff.mp found
      simp [split]
    rw [served]
    exact ⟨.inr, fun h => h.elim (fun same => same ▸ listed) id⟩
  · rw [served, (entries.map Prod.fst).mem_iff, List.map_cons, List.mem_cons]

theorem isEmpty_generated_of_mem (mem : w ∈ imports.entries.map Prod.fst) :
    imports.generated.isEmpty = false := by
  rw [List.isEmpty_eq_false_iff]
  intro none
  rw [entries, none] at mem
  cases mem

/-- What holds of all fresh names holds of all names in the table. -/
theorem forall_name_serve {P : String → Prop} (fresh : ∀ taken hint, P (freshName taken hint))
    (u : Wanted) (hint : String) (all : ∀ entry ∈ imports.entries, P entry.2) :
    ∀ entry ∈ (imports.serve u hint).2.entries, P entry.2 := by
  obtain ⟨_, _, served⟩ | ⟨_, next, _, ⟨hinted, rfl⟩, served, _, _, entries⟩ :=
    serve_cases imports u hint
  · rwa [served]
  · rw [served]
    intro entry mem
    obtain rfl | old := List.mem_cons.mp (entries.mem_iff.mp mem)
    · exact fresh _ _
    · exact all entry old

end Imports

/-- What a specifier imports at run time, and the variable it binds to that. -/
def ImportSpecifier.imported? (source : String) : ImportSpecifier → Option (Wanted × Variable)
  | .named _ binding imported false =>
      some (⟨source, some ((imported.map ExportName.text).getD binding.var.name)⟩, binding.var)
  | .named _ _ _ true => none
  | .default _ binding => some (⟨source, some "default"⟩, binding.var)
  | .star _ binding => some (⟨source, none⟩, binding.var)

/-- What a module item imports at run time, and the variables it binds to that. -/
def Tree.importEntries : Tree → List (Wanted × Variable)
  | .importDecl _ specifiers source false _ _ => specifiers.filterMap (·.imported? source.value)
  | _ => []

/-- One of the items imports what is wanted as the given variable. -/
def Tree.Import (items : List Tree) (w : Wanted) (v : Variable) : Prop :=
  (w, v) ∈ items.flatMap Tree.importEntries

theorem GeneratedImport.importEntries_toTree (i : GeneratedImport) (ctxt : Nat) :
    (i.toTree ctxt).importEntries = i.entries.map fun entry => (entry.1, ⟨entry.2, ctxt⟩) := by
  cases i with
  | named source pairs =>
      simp only [toTree, toTree.declaration, Tree.importEntries, entries, List.map_map,
        List.filterMap_map]
      exact congrFun List.filterMap_eq_map pairs
  | star source binding => rfl

theorem Imports.import_declarations_iff {names : List String} {imports : Imports}
    (sound : imports.Sound names) (w : Wanted) (v : Variable) :
    Tree.Import imports.declarations w v ↔ imports.find? w = some v := by
  have listed : imports.declarations.flatMap Tree.importEntries =
      imports.entries.map fun entry => (entry.1, ⟨entry.2, imports.ctxt⟩) := by
    simp only [declarations, entries, List.flatMap_map, List.map_flatMap]
    exact List.flatMap_congr fun i _ => i.importEntries_toTree imports.ctxt
  rw [Tree.Import, listed, find?_eq_some_iff sound, List.mem_map]
  constructor
  · rintro ⟨entry, mem, same⟩
    obtain ⟨rfl, rfl⟩ := Prod.mk.inj same
    exact ⟨rfl, mem⟩
  · rintro ⟨ctxt, mem⟩
    exact ⟨_, mem, by rw [← ctxt]⟩

end MockImport
