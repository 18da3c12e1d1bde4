import MockImport.Proofs.OwnActions
import MockImport.Proofs.Processing

/-!
The module items of an expansion before its call sites are settled: those of the
module, with the generated imports on top and the registrations after the last import.
What is generated holds no call site, so settling meets the sites of the module itself.
-/

namespace MockImport

/-- A module without call sites stays as it is; any other is its plan carried out. -/
theorem Module.expand_cases {m m' : Module} {source : Option String} {options : Options}
    {count : Nat} (expanded : m.expand source options = .ok (count, m')) :
    ∃ plan, Plan.ofModule m source = .ok plan ∧ count = plan.sites.length ∧
      (plan.sites = [] ∧ m' = m ∨ plan.sites ≠ [] ∧ m' = m.apply plan options) := by
  cases planned : Plan.ofModule m source with
  | error failure =>
      rw [expand, planned] at expanded
      cases expanded
  | ok plan =>
      rw [expand, planned] at expanded
      change (if plan.sites.isEmpty then _ else _) = _ at expanded
      refine ⟨plan, rfl, ?_⟩
      split at expanded
      · next empty =>
          obtain ⟨rfl, rfl⟩ := Prod.mk.inj (Except.ok.inj expanded)
          have none := List.isEmpty_iff.mp empty
          exact ⟨by rw [none]; rfl, .inl ⟨none, rfl⟩⟩
      · next sites =>
          obtain ⟨rfl, rfl⟩ := Prod.mk.inj (Except.ok.inj expanded)
          exact ⟨rfl, .inr ⟨fun none => sites (List.isEmpty_iff.mpr none), rfl⟩⟩

theorem splitAtImports_append (body : List Tree) :
    (splitAtImports body).1 ++ (splitAtImports body).2 = body := by
  induction body with
  | nil => rfl
  | cons t rest ih =>
      simp only [splitAtImports]
      split
      · exact congrArg (t :: ·) ih
      · next bare =>
          simp only [Bool.or_eq_true, not_or, Bool.not_eq_true, Bool.not_eq_false',
            List.isEmpty_iff] at bare
          rw [bare.2] at ih
          exact congrArg (t :: ·) ih

/-- What is split off is nothing or ends with an import, and no import is left. -/
theorem splitAtImports_cases (body : List Tree) :
    ((splitAtImports body).1 = [] ∨ ∃ before last, last.isImport = true ∧
        (splitAtImports body).1 = before ++ [last]) ∧
      ∀ t ∈ (splitAtImports body).2, t.isImport = false := by
  induction body with
  | nil => exact ⟨.inl rfl, List.forall_mem_nil _⟩
  | cons t rest ih =>
      obtain ⟨upTo, after⟩ := ih
      simp only [splitAtImports]
      split
      · next some =>
          refine ⟨.inr ?_, after⟩
          obtain none | ⟨before, last, isImport, same⟩ := upTo
          · have here : t.isImport = true := by simpa [none] using some
            exact ⟨[], t, here, by rw [none]; rfl⟩
          · exact ⟨t :: before, last, isImport, by rw [same]; rfl⟩
      · next none =>
          simp only [Bool.or_eq_true, not_or, Bool.not_eq_true] at none
          exact ⟨.inl rfl, List.forall_mem_cons.mpr ⟨none.1, after⟩⟩

/-- A module that imports something is split behind an import. -/
theorem splitAtImports_last {body : List Tree} (imports : body.any Tree.isImport = true) :
    ∃ before last, last.isImport = true ∧ (splitAtImports body).1 = before ++ [last] := by
  obtain ⟨none | some, after⟩ := splitAtImports_cases body
  · obtain ⟨t, mem, isImport⟩ := List.any_eq_true.mp imports
    rw [← splitAtImports_append body, none, List.nil_append] at mem
    rw [after t mem] at isImport
    cases isImport
  · exact some

namespace Tree

section

variable {r : Renaming}

theorem renameList_append (r : Renaming) (ts us : List Tree) :
    renameList r (ts ++ us) = renameList r ts ++ renameList r us := by
  simp only [renameList_eq_map, List.map_append]

theorem renameList_eq_self {items : List Tree} (stays : ∀ t ∈ items, rename r t = t) :
    renameList r items = items := by
  rw [renameList_eq_map, List.map_congr_left stays, List.map_id']

/-- A generated import keeps its names if neither the locals nor the imported names, which
are in no syntax context, are renamed. -/
theorem rename_toTree (i : GeneratedImport) (ctxt : Nat)
    (imported : ∀ name, r.lookup ⟨name, 0⟩ = none)
    (locals : ∀ entry ∈ i.entries, r.lookup ⟨entry.2, ctxt⟩ = none) :
    rename r (i.toTree ctxt) = i.toTree ctxt := by
  have same (v : Variable) (unknown : r.lookup v = none) :
      (Ident.generated v).rename r = .generated v := by
    rw [Ident.rename, Ident.generated, unknown]
    rfl
  cases i with
  | named source pairs =>
      simp only [GeneratedImport.toTree, GeneratedImport.toTree.declaration, rename,
        List.map_map]
      congr 1
      apply List.map_congr_left
      intro pair mem
      have local_ := locals (⟨source, some pair.1⟩, pair.2) (List.mem_map.mpr ⟨pair, mem, rfl⟩)
      simp only [Function.comp_apply, ImportSpecifier.rename, Option.map_some,
        ExportName.rename, same _ local_, same _ (imported pair.1)]
  | star source binding =>
      have local_ := locals (⟨source, none⟩, binding) (List.mem_singleton_self _)
      simp only [GeneratedImport.toTree, GeneratedImport.toTree.declaration, rename,
        List.map_cons, List.map_nil, ImportSpecifier.rename, same _ local_]

theorem rename_registration (specifier : String) (unknown : r.lookup ⟨registrar, 0⟩ = none) :
    rename r (registration specifier) = registration specifier := by
  simp only [registration, rename, renameList, Ident.rename, Ident.generated, unknown,
    Option.getD_none]

end

section

variable (bs : Bindings) (own : Option Site → SiteAction)

theorem settleItemsBy_eq_self {items : List Tree}
    (stays : ∀ t ∈ items, settleBy bs own t = t ∧ t.isEmptied = false) :
    settleItemsBy bs own items = items := by
  rw [settleItemsBy, settleListBy_eq_map, List.map_congr_left fun t mem => (stays t mem).1,
    List.map_id', List.filter_eq_self]
  intro t mem
  rw [(stays t mem).2]
  rfl

theorem settleItemsBy_declarations (imports : Imports) :
    settleItemsBy bs own imports.declarations = imports.declarations := by
  apply settleItemsBy_eq_self
  intro t mem
  obtain ⟨i, -, rfl⟩ := List.mem_map.mp mem
  cases i <;> exact ⟨rfl, rfl⟩

theorem settleItemsBy_registrations (specifiers : List String) :
    settleItemsBy bs own (specifiers.map registration) = specifiers.map registration := by
  apply settleItemsBy_eq_self
  intro t mem
  obtain ⟨specifier, -, rfl⟩ := List.mem_map.mp mem
  exact ⟨rfl, rfl⟩

end

variable (bs : Bindings)

/-- Settling comes across nothing but identifiers that stay. -/
def Inert (t : Tree) : Prop := slots bs t = (marks t).map .mark

theorem inert_toTree (i : GeneratedImport) (ctxt : Nat) : Inert bs (i.toTree ctxt) := by
  cases i <;> exact (List.append_nil _).trans (congrArg (List.map _) (List.append_nil _).symm)

theorem inert_registration (specifier : String) : Inert bs (registration specifier) := rfl

theorem slotsList_inert {ts : List Tree} (inert : ∀ t ∈ ts, Inert bs t) :
    slotsList bs ts = (marksList ts).map .mark := by
  induction ts with
  | nil => rfl
  | cons t rest ih =>
      rw [slotsList, marksList, List.map_append, inert t List.mem_cons_self,
        ih fun u mem => inert u (List.mem_cons_of_mem t mem)]

theorem metList_inert {ts : List Tree} (inert : ∀ t ∈ ts, Inert bs t) : metList bs ts = [] := by
  rw [metList, slotsList_inert bs inert, Slot.filterMap_site?_marks]

theorem inert_declarations (imports : Imports) : ∀ t ∈ imports.declarations, Inert bs t := by
  intro t mem
  obtain ⟨i, -, rfl⟩ := List.mem_map.mp mem
  exact inert_toTree bs i imports.ctxt

theorem settleList_append (ts us : List Tree) : settleList bs (ts ++ us) =
    (do return (← settleList bs ts) ++ (← settleList bs us)) := by
  induction ts with
  | nil => simp only [List.nil_append, settleList, pure_bind, bind_pure]
  | cons t rest ih =>
      simp only [List.cons_append, settleList, ih, bind_assoc, pure_bind]

theorem settleItems_append (ts us : List Tree) : settleItems bs (ts ++ us) =
    (do return (← settleItems bs ts) ++ (← settleItems bs us)) := by
  simp only [settleItems, settleList_append, bind_assoc, pure_bind, List.filter_append]

/-- Items that settling leaves alone use up no action. -/
theorem settleItems_eq_pure {items : List Tree}
    (stays : ∀ t ∈ items, settle bs t = pure t ∧ t.isEmptied = false) :
    settleItems bs items = pure items := by
  induction items with
  | nil => rfl
  | cons t rest ih =>
      obtain ⟨⟨settled, declares⟩, later⟩ := List.forall_mem_cons.mp stays
      have alone : settleItems bs [t] = pure [t] := by
        simp only [settleItems, settleList, settled, pure_bind]
        exact congrArg pure (List.filter_cons_of_pos (by rw [declares]; rfl))
      rw [← List.singleton_append, settleItems_append, alone, ih later]
      rfl

theorem settleItems_declarations (imports : Imports) :
    settleItems bs imports.declarations = pure imports.declarations := by
  apply settleItems_eq_pure
  intro t mem
  obtain ⟨i, -, rfl⟩ := List.mem_map.mp mem
  cases i <;> exact ⟨rfl, rfl⟩

theorem settleItems_registrations (specifiers : List String) :
    settleItems bs (specifiers.map registration) = pure (specifiers.map registration) := by
  apply settleItems_eq_pure
  intro t mem
  obtain ⟨specifier, -, rfl⟩ := List.mem_map.mp mem
  exact ⟨rfl, rfl⟩

theorem inert_registrations (specifiers : List String) :
    ∀ t ∈ specifiers.map registration, Inert bs t := by
  intro t mem
  obtain ⟨specifier, -, rfl⟩ := List.mem_map.mp mem
  exact inert_registration bs specifier

end Tree

namespace Progress

open MockImport.Tree

/-- The assembled items below the generated imports. -/
def below (p : Progress) (body : List Tree) : List Tree :=
  (splitAtImports body).1 ++ (p.registered.map registration ++ (splitAtImports body).2)

theorem assemble_eq (p : Progress) (body : List Tree) :
    p.assemble body = p.imports.declarations ++ p.below body := by
  simp only [assemble, below, List.append_assoc]

/-- The generated imports of an expansion. -/
def front (p : Progress) : List Tree := Tree.renameList p.renames p.imports.declarations

/-- The rest of an expansion. -/
def back (p : Progress) (bs : Bindings) (body : List Tree) : List Tree :=
  Tree.renameList p.renames ((Tree.settleItems bs (p.below body)).run p.allActions).1

/-- What holds of all that an expansion generates holds of the assembled module items if it
holds of those of the module. -/
theorem forall_assemble_iff (p : Progress) (body : List Tree) {P : Tree → Prop}
    (declarations : ∀ i ∈ p.imports.generated, P (i.toTree p.imports.ctxt))
    (registrations : ∀ specifier ∈ p.registered, P (registration specifier)) :
    (∀ t ∈ p.assemble body, P t) ↔ ∀ t ∈ body, P t := by
  conv => rhs; rw [← splitAtImports_append body]
  rw [← List.forall_mem_map] at declarations registrations
  simp only [assemble, List.forall_mem_append, and_assoc]
  exact (and_iff_right declarations).trans (and_congr_right fun _ => and_iff_right registrations)

/-- Settling an assembled module meets the call sites of the module. -/
theorem metList_assemble (bs : Bindings) (p : Progress) (body : List Tree) :
    metList bs (p.assemble body) = metList bs body := by
  conv => rhs; rw [← splitAtImports_append body]
  simp only [assemble, metList_append, metList_inert bs (inert_declarations bs p.imports),
    metList_inert bs (inert_registrations bs p.registered), List.nil_append, List.append_nil]

/-- The items of a module up to its last import, and the rest, with call sites settled and
aliases renamed. The rest is handed the actions that the first part leaves. -/
def carried (p : Progress) (bs : Bindings) (body : List Tree) : List Tree × List Tree :=
  let upTo := (Tree.settleItems bs (splitAtImports body).1).run p.allActions
  let after := (Tree.settleItems bs (splitAtImports body).2).run upTo.2
  (Tree.renameList p.renames upTo.1, Tree.renameList p.renames after.1)

theorem settle_assemble (p : Progress) (bs : Bindings) (body : List Tree) :
    let upTo := (Tree.settleItems bs (splitAtImports body).1).run p.allActions
    ((Tree.settleItems bs (p.assemble body)).run p.allActions).1 =
      p.imports.declarations ++ upTo.1 ++ p.registered.map registration ++
        ((Tree.settleItems bs (splitAtImports body).2).run upTo.2).1 := by
  simp only [assemble, Tree.settleItems_append, Tree.settleItems_declarations,
    Tree.settleItems_registrations, pure_bind, bind_assoc]
  rfl

end Progress

/-- The items of an expansion before its aliases are renamed. -/
def Module.settled (m : Module) (plan : Plan) (options : Options) : List Tree :=
  ((Tree.settleItems plan.bindings ((m.progress plan options).assemble m.body)).run
    (m.progress plan options).allActions).1

theorem Module.body_apply (m : Module) (plan : Plan) (options : Options) :
    (m.apply plan options).body =
      (m.progress plan options).front ++ (m.progress plan options).back plan.bindings m.body := by
  have settled : m.settled plan options = (m.progress plan options).imports.declarations ++
      ((Tree.settleItems plan.bindings ((m.progress plan options).below m.body)).run
        (m.progress plan options).allActions).1 := by
    rw [settled, Progress.assemble_eq, Tree.settleItems_append, Tree.settleItems_declarations,
      pure_bind]
    rfl
  rw [Progress.front, Progress.back, ← Tree.renameList_append]
  exact congrArg (Tree.renameList _) settled

end MockImport
