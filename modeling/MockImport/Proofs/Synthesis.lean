import MockImport.Draft
import MockImport.Proofs.Assembly
import MockImport.Proofs.GeneratedItems

/-!
Generating imports into the items of a module, one call after another. Items, tables, count
and taken names agree after every call: the generated declarations are on top, newest first,
and say what the tables say; the items of the module stay below them in their order, with
the registrations behind the last import. This is also what putting everything together at
the end comes to.
-/

namespace MockImport

namespace GeneratedImport

theorem importsFrom_toTree (i : GeneratedImport) (ctxt : Nat) (source : String)
    (kind : BindingKind) :
    (i.toTree ctxt).importsFrom source kind = decide (i.group = (source, kind)) := by
  cases i <;>
    simp [toTree, toTree.declaration, Tree.importsFrom, importKind, group,
      StringLiteral.generated, Prod.ext_iff]

theorem withSpecifier_toTree (source : String) (pairs : List (String × String))
    (entry : String × String) (ctxt : Nat) :
    (toTree ctxt (.named source pairs)).withSpecifier
        (Draft.specifier entry.1 (.generated ⟨entry.2, ctxt⟩)) =
      toTree ctxt (.named source (pairs ++ [entry])) := by
  simp [toTree, toTree.declaration, Tree.withSpecifier, Draft.specifier]

/-- Extending an import among the items on top extends it among the imports that these
items declare, and their number stays. -/
theorem extendImport?_declarations (source : String) (entry : String × String) (ctxt : Nat)
    (imports : List GeneratedImport) (below : List Tree) :
    Tree.extendImport? source (Draft.specifier entry.1 (.generated ⟨entry.2, ctxt⟩))
        imports.length (imports.map (·.toTree ctxt) ++ below) =
      (extend? source entry imports).map (fun extended =>
        extended.map (·.toTree ctxt) ++ below) ∧
    ∀ extended, extend? source entry imports = some extended →
      extended.length = imports.length := by
  induction imports with
  | nil => exact ⟨rfl, fun _ found => nomatch found⟩
  | cons i rest ih =>
      obtain ⟨extends_, length⟩ := ih
      rw [List.length_cons, List.map_cons, List.cons_append, Tree.extendImport?,
        importsFrom_toTree, extends_]
      by_cases same : i.group = (source, .named)
      · cases i with
        | named s pairs =>
            obtain rfl : s = source := (Prod.mk.inj same).1
            simp [extend?, group, withSpecifier_toTree]
        | star s binding => cases (Prod.mk.inj same).2
      · rw [extend?_cons_of_ne entry same]
        refine ⟨by simp [same, Function.comp_def], fun extended found => ?_⟩
        obtain ⟨later, isLater, rfl⟩ := Option.map_eq_some_iff.mp found
        exact congrArg (· + 1) (length later isLater)

end GeneratedImport

namespace Tree

theorem insertAfterImports?_eq_none (item : Tree) {ts : List Tree}
    (none : ∀ t ∈ ts, t.isImport = false) : insertAfterImports? item ts = .none := by
  induction ts with
  | nil => rfl
  | cons t rest ih =>
      obtain ⟨here, later⟩ := List.forall_mem_cons.mp none
      simp [insertAfterImports?, ih later, here]

theorem insertAfterImports?_last (item : Tree) {last : Tree} (isImport : last.isImport = true)
    (before : List Tree) {after : List Tree} (none : ∀ t ∈ after, t.isImport = false) :
    insertAfterImports? item (before ++ last :: after) =
      some (before ++ last :: item :: after) := by
  induction before with
  | nil => simp [insertAfterImports?, insertAfterImports?_eq_none item none, isImport]
  | cons t rest ih => simp [insertAfterImports?, ih]

end Tree

namespace Draft

/-- The local name for something wanted; a hint serves to name what is imported by name. -/
def add (d : Draft) (w : Wanted) (hint : String) : Ident × Draft :=
  match w.imported with
  | some imported => d.addNamed imported w.source hint
  | none => d.addStar w.source

inductive Call where
  | add (w : Wanted) (hint : String)
  | register (source : String)

def perform (d : Draft) : Call → Draft
  | .add w hint => (d.add w hint).2
  | .register source => d.register source

def run (d : Draft) (calls : List Call) : Draft := calls.foldl perform d

/-- Both tables as one. -/
def entries (d : Draft) : List (Wanted × Ident) :=
  d.named.map (fun ((source, imported), id) => (⟨source, some imported⟩, id)) ++
    d.stars.map fun (source, id) => (⟨source, none⟩, id)

/-- What is imported by name from a module, and its local names. -/
def entriesFrom (d : Draft) (source : String) : List (String × Ident) :=
  d.named.filterMap fun ((s, imported), id) => if s = source then some (imported, id) else none

/-- What a call asks the imports for; no alias is replaced. -/
def Call.request? : Call → Option Request
  | .add w hint => some ⟨w, hint, none⟩
  | .register _ => none

/-- What a call wants to have imported. -/
def Call.wanted? : Call → Option Wanted
  | .add w _ => some w
  | .register _ => none

def wanted (calls : List Call) : List Wanted := calls.filterMap Call.wanted?

/-- The declarations that calls give rise to, in the order of the first requests. -/
def groups (calls : List Call) : List ImportGroup := ((wanted calls).map Wanted.group).eraseDups

/-- What the tables say of a declaration. -/
def declaration (d : Draft) : ImportGroup → Tree
  | (source, .named) => .importOf source
      ((d.entriesFrom source).map fun (imported, id) => .naming imported id)
  | (source, .star) => .importOf source ((d.stars.lookup source).toList.map (.star ⟨0, 0⟩))

/-- The modules that calls register, if there is an import to begin with or once there is. -/
def registered (hasImport : Bool) : List Call → List String
  | [] => []
  | .add _ _ :: rest => registered true rest
  | .register source :: rest =>
      if hasImport then source :: registered hasImport rest else registered hasImport rest

/-- One call, with everything left to be put together at the end. -/
def Call.defer (hasImport : Bool) (p : Progress) : Call → Progress
  | .add w hint => { p with imports := (p.imports.serve w hint).2 }
  | .register source => p.register hasImport source

def deferAll (hasImport : Bool) (p : Progress) (calls : List Call) : Progress :=
  calls.foldl (fun p call => call.defer hasImport p) p

/-- A draft is what putting everything together at the end comes to. -/
structure Realizes (names : List String) (items : List Tree) (ws : List Wanted) (p : Progress)
    (d : Draft) : Prop where
  ctxt : d.ctxt = p.imports.ctxt
  taken : d.taken = p.imports.taken
  created : d.created = p.imports.generated.length
  body : d.body = p.assemble items
  table : d.entries.Perm
    (p.imports.entries.map fun entry => (entry.1, .generated ⟨entry.2, p.imports.ctxt⟩))
  keys : ∀ source, (d.entriesFrom source).map Prod.fst = namesFrom ws source
  sound : p.imports.Sound names
  wanted : ∀ w, w ∈ p.imports.entries.map Prod.fst ↔ w ∈ ws

variable {names : List String} {items : List Tree} {ws : List Wanted} {p : Progress} {d : Draft}

theorem lookup_named (d : Draft) (source imported : String) :
    d.named.lookup (source, imported) = d.entries.lookup ⟨source, some imported⟩ := by
  have named := lookup_map_of_injective (f := fun key : String × String =>
    (⟨key.1, some key.2⟩ : Wanted)) (fun _ _ same => by simpa [Prod.ext_iff] using same) id
    d.named (source, imported)
  have stars : (d.stars.map fun (s, id) => ((⟨s, none⟩ : Wanted), id)).lookup
      ⟨source, some imported⟩ = none := by
    rw [List.lookup_eq_none_iff]
    intro entry mem
    obtain ⟨star, -, rfl⟩ := List.mem_map.mp mem
    simp
  rw [entries, List.lookup_append, stars, Option.or_none]
  exact (Option.map_id' ▸ named).symm

theorem lookup_stars (d : Draft) (source : String) :
    d.stars.lookup source = d.entries.lookup ⟨source, none⟩ := by
  have stars := lookup_map_of_injective (f := fun source : String => (⟨source, none⟩ : Wanted))
    (fun _ _ same => congrArg Wanted.source same) id d.stars source
  have named : (d.named.map fun ((s, i), id) => ((⟨s, some i⟩ : Wanted), id)).lookup
      ⟨source, none⟩ = none := by
    rw [List.lookup_eq_none_iff]
    intro entry mem
    obtain ⟨star, -, rfl⟩ := List.mem_map.mp mem
    simp
  rw [entries, List.lookup_append, named, Option.none_or]
  exact (Option.map_id' ▸ stars).symm

theorem add_of_known {w : Wanted} {id : Ident} (known : d.entries.lookup w = some id)
    (hint : String) : d.add w hint = (id, d) := by
  obtain ⟨source, imported⟩ := w
  cases imported with
  | some imported => simp only [add, addNamed, lookup_named, known]
  | none => simp only [add, addStar, lookup_stars, known]

namespace Realizes

theorem body_eq (realizes : d.Realizes names items ws p) :
    d.body = p.imports.generated.map (·.toTree d.ctxt) ++ p.below items := by
  rw [realizes.body, realizes.ctxt, Progress.assemble_eq]
  rfl

theorem keys_perm (realizes : d.Realizes names items ws p) :
    (d.entries.map Prod.fst).Perm (p.imports.entries.map Prod.fst) := by
  have same := realizes.table.map Prod.fst
  rwa [List.map_map] at same

/-- Nothing is entered twice. -/
theorem once (realizes : d.Realizes names items ws p) : (d.entries.map Prod.fst).Nodup :=
  realizes.keys_perm.nodup_iff.mpr realizes.sound.wanted

/-- The tables answer as the imports do. -/
theorem lookup (realizes : d.Realizes names items ws p) (w : Wanted) :
    d.entries.lookup w = (p.imports.find? w).map .generated := by
  refine Option.ext fun id => ?_
  rw [Imports.lookup_eq_some_iff_mem realizes.once, realizes.table.mem_iff, List.mem_map,
    Option.map_eq_some_iff]
  constructor
  · rintro ⟨⟨_, name⟩, mem, same⟩
    obtain ⟨rfl, rfl⟩ := Prod.mk.inj same
    exact ⟨⟨name, p.imports.ctxt⟩, (Imports.find?_eq_some_iff realizes.sound).mpr ⟨rfl, mem⟩, rfl⟩
  · rintro ⟨v, found, rfl⟩
    obtain ⟨ctxt, mem⟩ := (Imports.find?_eq_some_iff realizes.sound).mp found
    exact ⟨_, mem, by rw [← ctxt]⟩

end Realizes

/-- Adding to the import from a module by name that is on top, or putting it there. -/
theorem declareNamed_spec (d : Draft) (imports : List GeneratedImport) (below : List Tree)
    (body : d.body = imports.map (·.toTree d.ctxt) ++ below) (created : d.created = imports.length)
    (source imported name : String) :
    d.declareNamed source (specifier imported (.generated ⟨name, d.ctxt⟩)) =
      { d with
        body := (GeneratedImport.insertNamed source (imported, name) imports).map
          (·.toTree d.ctxt) ++ below
        created := (GeneratedImport.insertNamed source (imported, name) imports).length } := by
  obtain ⟨extends_, length⟩ := GeneratedImport.extendImport?_declarations source (imported, name)
    d.ctxt imports below
  rw [declareNamed, body, created, extends_, GeneratedImport.insertNamed]
  cases found : GeneratedImport.extend? source (imported, name) imports with
  | some extended =>
      simp only [Option.map_some, Option.getD_some, length extended found, ← created]
  | none =>
      simp only [Option.map_none, Option.getD_none, declare, body, created, List.length_cons]
      rfl

theorem entries_concat_named (d : Draft) (source imported : String) (id : Ident) :
    { d with named := d.named ++ [((source, imported), id)] }.entries.Perm
      ((⟨source, some imported⟩, id) :: d.entries) := by
  simp only [entries, List.map_append, List.map_cons, List.map_nil, List.append_assoc,
    List.singleton_append]
  exact List.perm_middle

theorem entries_concat_stars (d : Draft) (source : String) (id : Ident) :
    { d with stars := d.stars ++ [(source, id)] }.entries.Perm
      ((⟨source, none⟩, id) :: d.entries) := by
  simp only [entries, List.map_append, List.map_cons, List.map_nil, ← List.append_assoc]
  exact List.perm_append_singleton _ _

theorem Realizes.keys_concat (realizes : d.Realizes names items ws p) {source imported : String}
    (id : Ident) (new : ⟨source, some imported⟩ ∉ ws) (s : String) :
    ({ d with named := d.named ++ [((source, imported), id)] }.entriesFrom s).map Prod.fst =
      namesFrom (ws ++ [⟨source, some imported⟩]) s := by
  have old := realizes.keys s
  by_cases same : source = s
  · subst same
    rw [namesFrom_concat_of_not_mem new, ← old]
    simp [entriesFrom]
  · have other : Wanted.named? s ⟨source, some imported⟩ = none := if_neg same
    rw [namesFrom_concat_of_none other, ← old]
    simp [entriesFrom, same]

theorem Realizes.table_cons (realizes : d.Realizes names items ws p) {w : Wanted} {name : String}
    {imports : Imports} {d' : Draft} (ctxt : imports.ctxt = p.imports.ctxt)
    (entered : imports.entries.Perm ((w, name) :: p.imports.entries))
    (added : d'.entries.Perm ((w, .generated ⟨name, d.ctxt⟩) :: d.entries)) :
    d'.entries.Perm
      (imports.entries.map fun entry => (entry.1, .generated ⟨entry.2, imports.ctxt⟩)) := by
  have listed := entered.map fun entry => (entry.1, Ident.generated ⟨entry.2, p.imports.ctxt⟩)
  refine added.trans ((realizes.table.cons _).trans ?_)
  rw [ctxt, realizes.ctxt]
  exact listed.symm

theorem Realizes.wanted_concat (realizes : d.Realizes names items ws p) (w : Wanted)
    (hint : String) (u : Wanted) :
    u ∈ (p.imports.serve w hint).2.entries.map Prod.fst ↔ u ∈ ws ++ [w] := by
  rw [Imports.mem_wanted_serve, realizes.wanted, List.mem_append, List.mem_singleton, or_comm]

/-- What is wanted for the first time is added to items and tables as it is to the imports. -/
theorem Realizes.add_new (realizes : d.Realizes names items ws p) {w : Wanted}
    (absent : p.imports.entries.lookup w = none) (unknown : d.entries.lookup w = none)
    (new : w ∉ ws) (hint : String) :
    (d.add w hint).1 = .generated (p.imports.serve w hint).1 ∧
      (d.add w hint).2.Realizes names items (ws ++ [w])
        { p with imports := (p.imports.serve w hint).2 } := by
  have sound := realizes.sound.serve w hint
  have wanted := realizes.wanted_concat w hint
  obtain ⟨source, imported⟩ := w
  cases imported with
  | some imported =>
      rw [← lookup_named] at unknown
      have served : p.imports.serve ⟨source, some imported⟩ hint =
          (⟨freshName d.taken hint, d.ctxt⟩, { p.imports with
            taken := freshName d.taken hint :: p.imports.taken
            generated := GeneratedImport.insertNamed source
              (imported, freshName d.taken hint) p.imports.generated }) := by
        simp only [Imports.serve, Imports.addNamed, Imports.findSome?_named?, absent,
          realizes.taken, realizes.ctxt]
      have declared := declareNamed_spec { d with taken := freshName d.taken hint :: d.taken }
        p.imports.generated (p.below items) realizes.body_eq realizes.created source imported
        (freshName d.taken hint)
      rw [served] at sound wanted
      simp only [add, addNamed, unknown, fresh, declared, served, true_and]
      exact {
        ctxt := realizes.ctxt
        taken := congrArg _ realizes.taken
        created := rfl
        body := by rw [Progress.assemble_eq, realizes.ctxt]; rfl
        table := realizes.table_cons rfl (GeneratedImport.entries_insertNamed _ _ _)
          (entries_concat_named d source imported _)
        keys := realizes.keys_concat _ new
        sound := sound
        wanted := wanted }
  | none =>
      rw [← lookup_stars] at unknown
      have served : p.imports.serve ⟨source, none⟩ hint =
          (⟨freshName d.taken source, d.ctxt⟩, { p.imports with
            taken := freshName d.taken source :: p.imports.taken
            generated := .star source (freshName d.taken source) :: p.imports.generated }) := by
        simp only [Imports.serve, Imports.addStar, Imports.findSome?_star?, absent,
          realizes.taken, realizes.ctxt]
      have unnamed (s : String) : Wanted.named? s ⟨source, none⟩ = none := ite_self none
      rw [served] at sound wanted
      simp only [add, addStar, unknown, fresh, declare, served, true_and]
      exact {
        ctxt := realizes.ctxt
        taken := congrArg _ realizes.taken
        created := congrArg (· + 1) realizes.created
        body := by rw [realizes.body, realizes.ctxt]; rfl
        table := realizes.table_cons rfl (.refl _) (entries_concat_stars d source _)
        keys := fun s => (realizes.keys s).trans (namesFrom_concat_of_none (unnamed s)).symm
        sound := sound
        wanted := wanted }

/-- Whatever is asked for, and whatever the hint: the answer is that of the imports. -/
theorem Realizes.add (realizes : d.Realizes names items ws p) (w : Wanted) (hint : String) :
    (d.add w hint).1 = .generated (p.imports.serve w hint).1 ∧
      (d.add w hint).2.Realizes names items (ws ++ [w])
        { p with imports := (p.imports.serve w hint).2 } := by
  have found := realizes.lookup w
  obtain ⟨name, known, served⟩ | ⟨_, _, absent, -⟩ := Imports.serve_cases p.imports w hint
  · have mem : w ∈ ws := by
      obtain ⟨_, _, split, -⟩ := List.lookup_eq_some_iff.mp known
      rw [← realizes.wanted, split]
      simp
    rw [Imports.find?, known] at found
    rw [add_of_known found hint, served]
    exact ⟨rfl, { realizes with
      keys := fun source => (realizes.keys source).trans (namesFrom_concat_of_mem mem).symm
      wanted := fun u => by
        rw [realizes.wanted u, List.mem_append, List.mem_singleton]
        exact ⟨.inl, fun either => either.elim id fun same => same ▸ mem⟩ }⟩
  · have new : w ∉ ws := by
      rw [← realizes.wanted]
      intro mem
      obtain ⟨entry, isEntry, same⟩ := List.mem_map.mp mem
      exact absurd (List.lookup_eq_none_iff.mp absent entry isEntry) (by simp [same])
    rw [Imports.find?, absent] at found
    exact realizes.add_new absent found new hint

/-- The last import is the last of the module or, if it has none, of those generated. -/
theorem front_cases (p : Progress) (items : List Tree) :
    (items.any Tree.isImport || !p.imports.generated.isEmpty) = false ∧
      p.imports.declarations ++ (splitAtImports items).1 = [] ∨
    (items.any Tree.isImport || !p.imports.generated.isEmpty) = true ∧
      ∃ before last, last.isImport = true ∧
        p.imports.declarations ++ (splitAtImports items).1 = before ++ [last] := by
  cases has : items.any Tree.isImport with
  | true =>
      obtain ⟨before, last, isImport, ends⟩ := splitAtImports_last has
      exact .inr ⟨rfl, p.imports.declarations ++ before, last, isImport,
        by rw [ends, List.append_assoc]⟩
  | false =>
      have none : (splitAtImports items).1 = [] := by
        obtain none | ⟨before, last, isImport, ends⟩ := (splitAtImports_cases items).1
        · exact none
        · have mem : last ∈ items := by
            rw [← splitAtImports_append items, ends]
            simp
          exact absurd (List.any_eq_false.mp has last mem) (not_not_intro isImport)
      rw [none, List.append_nil, Imports.declarations]
      obtain empty | ⟨before, last, ends⟩ := List.eq_nil_or_concat p.imports.generated
      · exact .inl (by simp [empty])
      · refine .inr ⟨by simp [ends], before.map (·.toTree p.imports.ctxt),
          last.toTree p.imports.ctxt, ?_, by simp [ends]⟩
        cases last <;> rfl

theorem Realizes.register (realizes : d.Realizes names items ws p) (source : String) :
    (d.register source).Realizes names items ws (p.register (items.any Tree.isImport) source) := by
  have none : ∀ t ∈ p.registered.map registration ++ (splitAtImports items).2,
      t.isImport = false := by
    rw [List.forall_mem_append, List.forall_mem_map]
    exact ⟨fun _ _ => rfl, (splitAtImports_cases items).2⟩
  have body : d.body = (p.imports.declarations ++ (splitAtImports items).1) ++
      (p.registered.map registration ++ (splitAtImports items).2) := by
    simp only [realizes.body, Progress.assemble, List.append_assoc]
  obtain ⟨bare, empty⟩ | ⟨some, before, last, isImport, ends⟩ := front_cases p items
  · have unchanged : d.register source = d := by
      rw [empty, List.nil_append] at body
      rw [Draft.register, body, Tree.insertAfterImports?_eq_none _ none, Option.getD_none, ← body]
    rw [unchanged, Progress.register, bare]
    exact realizes
  · have inserted : (d.register source).body = before ++ last :: registration source ::
        (p.registered.map registration ++ (splitAtImports items).2) := by
      rw [ends, List.append_assoc, List.singleton_append] at body
      rw [Draft.register, body, Tree.insertAfterImports?_last _ isImport _ none, Option.getD_some]
    rw [Progress.register, if_pos some]
    exact {
      ctxt := realizes.ctxt
      taken := realizes.taken
      created := realizes.created
      body := by
        rw [inserted]
        simp only [Progress.assemble, ends, List.append_assoc, List.map_cons, List.cons_append,
          List.nil_append]
      table := realizes.table
      keys := realizes.keys
      sound := realizes.sound
      wanted := realizes.wanted }

theorem Realizes.perform (realizes : d.Realizes names items ws p) (call : Call) :
    (d.perform call).Realizes names items (ws ++ call.wanted?.toList)
      (call.defer (items.any Tree.isImport) p) := by
  cases call with
  | add w hint => exact (realizes.add w hint).2
  | register source =>
      rw [Call.wanted?, Option.toList_none, List.append_nil]
      exact realizes.register source

theorem Realizes.run (realizes : d.Realizes names items ws p) (calls : List Call) :
    (d.run calls).Realizes names items (ws ++ Draft.wanted calls)
      (deferAll (items.any Tree.isImport) p calls) := by
  induction calls generalizing d ws p with
  | nil => rwa [Draft.wanted, List.filterMap_nil, List.append_nil]
  | cons call rest ih =>
      have split : Draft.wanted (call :: rest) = call.wanted?.toList ++ Draft.wanted rest := by
        cases call <;> rfl
      rw [split, ← List.append_assoc]
      exact ih (realizes.perform call)

theorem Realizes.start (ctxt : Nat) (taken : List String) (items : List Tree)
    (actions : List (Option SiteAction)) :
    Realizes taken items [] { imports := ⟨ctxt, taken, []⟩, actions := actions }
      { ctxt := ctxt, taken := taken, body := items } where
  ctxt := rfl
  taken := rfl
  created := rfl
  body := by
    simp only [Progress.assemble, Imports.declarations, List.map_nil, List.nil_append,
      List.append_nil, splitAtImports_append]
  table := .refl _
  keys := fun _ => rfl
  sound := .empty ctxt taken
  wanted := fun _ => .rfl

theorem deferAll_cons (hasImport : Bool) (p : Progress) (call : Call) (rest : List Call) :
    deferAll hasImport p (call :: rest) = deferAll hasImport (call.defer hasImport p) rest :=
  rfl

theorem deferAll_append (hasImport : Bool) (p : Progress) (calls more : List Call) :
    deferAll hasImport p (calls ++ more) = deferAll hasImport (deferAll hasImport p calls) more :=
  List.foldl_append

theorem deferAll_imports (hasImport : Bool) (p : Progress) (calls : List Call) :
    (deferAll hasImport p calls).imports =
      p.imports.serveAll (calls.filterMap Call.request?) := by
  induction calls generalizing p with
  | nil => rfl
  | cons call rest ih =>
      rw [deferAll_cons, ih]
      cases call with
      | add w hint => rfl
      | register source =>
          have unchanged : (p.register hasImport source).imports = p.imports := by
            rw [Progress.register]
            split <;> rfl
          rw [Call.defer, unchanged]
          rfl

theorem deferAll_registered (hasImport : Bool) (p : Progress) (calls : List Call) :
    (deferAll hasImport p calls).registered =
      (registered (hasImport || !p.imports.generated.isEmpty) calls).reverse ++ p.registered := by
  induction calls generalizing p with
  | nil => rfl
  | cons call rest ih =>
      rw [deferAll_cons, ih]
      cases call with
      | add w hint =>
          have some := Imports.isEmpty_generated_of_mem
            ((Imports.mem_wanted_serve p.imports w w hint).mpr (.inl rfl))
          rw [Call.defer, some, Bool.not_false, Bool.or_true]
          rfl
      | register source =>
          rw [Call.defer, Progress.register, registered]
          split
          · rw [List.reverse_cons, List.append_assoc]
            rfl
          · rfl

theorem Realizes.take_body (realizes : d.Realizes names items ws p) :
    d.body.take d.created = p.imports.generated.map (·.toTree d.ctxt) := by
  rw [realizes.body_eq, realizes.created]
  exact List.take_left' (List.length_map _)

theorem Realizes.drop_body (realizes : d.Realizes names items ws p) :
    d.body.drop d.created = p.below items := by
  rw [realizes.body_eq, realizes.created]
  exact List.drop_left' (List.length_map _)

theorem mem_entriesFrom {source imported : String} {id : Ident} :
    (imported, id) ∈ d.entriesFrom source ↔ (⟨source, some imported⟩, id) ∈ d.entries := by
  simp [entriesFrom, entries]

/-- The local of whatever is wanted is the one that the imports have for it. -/
theorem Realizes.lookup_of_mem (realizes : d.Realizes names items ws p) {w : Wanted}
    (known : w ∈ ws) :
    d.entries.lookup w = some (.generated ⟨p.imports.nameOf w, d.ctxt⟩) := by
  obtain ⟨⟨_, name⟩, listed, rfl⟩ := List.mem_map.mp ((realizes.wanted w).mpr known)
  have found := (Imports.find?_eq_some_iff (v := ⟨name, p.imports.ctxt⟩) realizes.sound).mpr
    ⟨rfl, listed⟩
  rw [realizes.lookup, Imports.nameOf, found, realizes.ctxt]
  rfl

theorem Realizes.entriesFrom_eq (realizes : d.Realizes names items ws p) (source : String) :
    d.entriesFrom source = (namesFrom ws source).map fun imported =>
      (imported, .generated ⟨p.imports.nameOf ⟨source, some imported⟩, d.ctxt⟩) := by
  rw [← realizes.keys source, List.map_map]
  refine (List.map_id'' (fun _ => rfl) _).symm.trans (List.map_congr_left fun entry mem => ?_)
  have listed := mem_entriesFrom.mp mem
  have known := (realizes.wanted _).mp
    (realizes.keys_perm.mem_iff.mp (List.mem_map_of_mem (f := Prod.fst) listed))
  have found := (Imports.lookup_eq_some_iff_mem realizes.once _ _).mpr listed
  rw [realizes.lookup_of_mem known] at found
  exact Prod.ext rfl (Option.some.inj found).symm

/-- What the tables say of a declaration is how the imports declare it. -/
theorem Realizes.declaration_eq (realizes : d.Realizes names items ws p) {g : ImportGroup}
    (mem : g ∈ ws.map Wanted.group) :
    d.declaration g = (GeneratedImport.declare p.imports.nameOf ws g).toTree d.ctxt := by
  obtain ⟨source, kind⟩ := g
  cases kind with
  | named =>
      simp only [declaration, realizes.entriesFrom_eq, GeneratedImport.declare,
        GeneratedImport.toTree, List.map_map]
      rfl
  | star =>
      obtain ⟨⟨s, imported⟩, known, same⟩ := List.mem_map.mp mem
      obtain ⟨rfl, star⟩ := Prod.mk.inj same
      cases imported with
      | some imported => cases star
      | none =>
          rw [declaration, lookup_stars, realizes.lookup_of_mem known]
          rfl

theorem Realizes.once_on_top (realizes : d.Realizes names items ws p)
    (groups : (p.imports.generated.map GeneratedImport.group).Nodup) (source : String)
    (kind : BindingKind) :
    (d.body.take d.created).countP (Tree.importsFrom source kind) ≤ 1 := by
  have count : (d.body.take d.created).countP (Tree.importsFrom source kind) =
      (p.imports.generated.map GeneratedImport.group).count (source, kind) := by
    rw [realizes.take_body, List.countP_map, List.count, List.countP_map]
    refine congrArg (List.countP · p.imports.generated) (funext fun i => ?_)
    exact (i.importsFrom_toTree d.ctxt source kind).trans (beq_eq_decide ..).symm
  rw [count]
  exact List.nodup_iff_count_le_one.mp groups _

variable (ctxt : Nat) (taken : List String) (items : List Tree)

/-- The items of a module before anything is generated. -/
def start : Draft := { ctxt := ctxt, taken := taken, body := items }

/-- What calls on the items of a module come to if everything is put together at the end. -/
def deferred (calls : List Call) : Progress :=
  deferAll (items.any Tree.isImport) { imports := ⟨ctxt, taken, []⟩, actions := [] } calls

theorem realizes_run (calls : List Call) :
    ((start ctxt taken items).run calls).Realizes taken items (wanted calls)
      (deferred ctxt taken items calls) :=
  (Realizes.start ctxt taken items []).run calls

theorem generated_deferred (calls : List Call) :
    (deferred ctxt taken items calls).imports.generated =
      (GeneratedImport.listing (deferred ctxt taken items calls).imports.nameOf
        (wanted calls)).reverse := by
  have asked : wanted calls = (calls.filterMap Call.request?).map Request.wanted := by
    rw [wanted, List.map_filterMap]
    refine List.filterMap_congr fun call _ => ?_
    cases call <;> rfl
  rw [deferred, deferAll_imports, asked]
  refine Imports.generated_serveAll (.empty _ taken) _ [] _ rfl (fun _ => .rfl) ?_
  intro w v found
  rw [Imports.nameOf, found]
  rfl

theorem groups_deferred (calls : List Call) :
    (deferred ctxt taken items calls).imports.generated.map GeneratedImport.group =
      (groups calls).reverse := by
  rw [generated_deferred, List.map_reverse, GeneratedImport.groups_listing, groups]

theorem registered_deferred (calls : List Call) :
    (deferred ctxt taken items calls).registered =
      (registered (items.any Tree.isImport) calls).reverse := by
  refine (deferAll_registered _ _ calls).trans ?_
  simp only [List.isEmpty_nil, Bool.not_true, Bool.or_false, List.append_nil]

theorem ctxt_run (calls : List Call) : ((start ctxt taken items).run calls).ctxt = ctxt := by
  rw [(realizes_run ctxt taken items calls).ctxt, deferred, deferAll_imports,
    Imports.serveAll_ctxt]

/-- What has been asked for is in the tables from then on, as it was answered. -/
theorem lookup_run (before after : List Call) (w : Wanted) (hint : String) :
    ((start ctxt taken items).run (before ++ .add w hint :: after)).entries.lookup w =
      some (((start ctxt taken items).run before).add w hint).1 := by
  have now := realizes_run ctxt taken items before
  obtain ⟨answer, next⟩ := now.add w hint
  have later := (next.run after).lookup w
  have found := Imports.find?_serve_self now.sound w hint
  rw [deferAll_imports, Imports.find?_serveAll_of_find? next.sound _ found] at later
  have split : (start ctxt taken items).run (before ++ .add w hint :: after) =
      (((start ctxt taken items).run before).add w hint).2.run after :=
    List.foldl_append
  rw [split, answer]
  exact later

/-- What holds of a draft after calls on it. -/
structure Consistent (calls : List Call) (d : Draft) : Prop where
  created : d.created = (groups calls).length
  /-- On top are the declarations that the calls give rise to, the newest first. -/
  top : d.body.take d.created = (groups calls).reverse.map d.declaration
  /-- A module is imported by name at most once there, and as a whole at most once. -/
  single : ∀ source kind, (d.body.take d.created).countP (Tree.importsFrom source kind) ≤ 1
  apart : (groups calls).Nodup
  /-- What is imported by name is listed in the order of the first requests. -/
  order : ∀ source, (d.entriesFrom source).map Prod.fst = namesFrom (wanted calls) source
  once : (d.entries.map Prod.fst).Nodup
  known : ∀ w, w ∈ d.entries.map Prod.fst ↔ w ∈ wanted calls
  /-- Below are the items of the module, with registrations behind the last import. -/
  below : ∃ upTo after, upTo ++ after = items ∧
    (upTo = [] ∨ ∃ before last, last.importing?.isSome = true ∧ upTo = before ++ [last]) ∧
    (∀ t ∈ after, t.importing?.isSome = false) ∧
    d.body.drop d.created = upTo ++
      (registered (items.any (·.importing?.isSome)) calls).reverse.map Tree.jestMock ++ after
  locals : ∀ entry ∈ d.entries, ∃ name, entry.2 = ⟨⟨0, 0⟩, ⟨name, ctxt⟩, false⟩
  distinct : (d.entries.map (·.2.var.name)).Nodup
  avoided : ∀ entry ∈ d.entries, entry.2.var.name ∉ taken
  covered : ∀ entry ∈ d.entries, entry.2.var.name ∈ d.taken
  kept : taken ⊆ d.taken
  /-- The tables hold what was answered. -/
  answered : ∀ before w hint after, calls = before ++ .add w hint :: after →
    (w, (((start ctxt taken items).run before).add w hint).1) ∈ d.entries
  /-- What has been asked for is answered alike from then on, whatever the hint. -/
  again : ∀ before w hint after, calls = before ++ .add w hint :: after → ∀ hint',
    d.add w hint' = ((((start ctxt taken items).run before).add w hint).1, d)

theorem mem_entries_iff {ws : List Wanted} {p : Progress} {d : Draft}
    (realizes : d.Realizes taken items ws p) (entry : Wanted × Ident) :
    entry ∈ d.entries ↔ ∃ name, (entry.1, name) ∈ p.imports.entries ∧
      entry.2 = .generated ⟨name, d.ctxt⟩ := by
  rw [realizes.table.mem_iff, List.mem_map, realizes.ctxt]
  constructor
  · rintro ⟨e, mem, rfl⟩
    exact ⟨e.2, mem, rfl⟩
  · rintro ⟨name, mem, same⟩
    exact ⟨_, mem, Prod.ext rfl same.symm⟩

/-- Whatever the calls, items, tables, count and taken names agree after them. -/
theorem consistent_run (calls : List Call) :
    Consistent ctxt taken items calls ((start ctxt taken items).run calls) := by
  have realizes := realizes_run ctxt taken items calls
  have listed := groups_deferred ctxt taken items calls
  have apart : (groups calls).Nodup := nodup_eraseDups _
  have stamped := ctxt_run ctxt taken items calls
  have generated := generated_deferred ctxt taken items calls
  have named := mem_entries_iff taken items realizes
  exact {
    created := by rw [realizes.created, ← List.length_map, listed, List.length_reverse]
    top := by
      rw [realizes.take_body, generated, GeneratedImport.listing, ← List.map_reverse, List.map_map]
      exact List.map_congr_left fun g mem => (realizes.declaration_eq
        (List.mem_eraseDups.mp (List.mem_reverse.mp mem))).symm
    single := realizes.once_on_top <| by rwa [listed, List.nodup_reverse]
    apart := apart
    order := realizes.keys
    once := realizes.once
    known := fun w => by rw [realizes.keys_perm.mem_iff, realizes.wanted]
    below := by
      obtain ⟨upTo, after⟩ := splitAtImports_cases items
      simp only [Tree.isImport_eq_importing?] at upTo after
      refine ⟨_, _, splitAtImports_append items, upTo, after, ?_⟩
      rw [realizes.drop_body, Progress.below, registered_deferred, List.append_assoc,
        funext Tree.isImport_eq_importing?, registration_eq_jestMock]
    locals := fun entry mem => by
      obtain ⟨name, -, same⟩ := (named entry).mp mem
      exact ⟨name, stamped ▸ same⟩
    distinct := by
      have listed := realizes.table.map (·.2.var.name)
      rw [List.map_map] at listed
      exact listed.nodup_iff.mpr realizes.sound.locals
    avoided := fun entry mem => by
      obtain ⟨name, listed, same⟩ := (named entry).mp mem
      exact same ▸ realizes.sound.avoided _ listed
    covered := fun entry mem => by
      obtain ⟨name, listed, same⟩ := (named entry).mp mem
      rw [realizes.taken, same]
      exact realizes.sound.covered _ listed
    kept := realizes.taken ▸ realizes.sound.kept
    answered := fun before w hint after split =>
      (Imports.lookup_eq_some_iff_mem realizes.once _ _).mp
        (split ▸ lookup_run ctxt taken items before after w hint)
    again := fun before w hint after split hint' =>
      add_of_known (split ▸ lookup_run ctxt taken items before after w hint) hint' }

end Draft

/-- What processing a site asks of a draft. -/
def Site.calls (options : Options) (site : Site) : List Draft.Call :=
  site.requests.map (fun r => .add r.wanted r.hint) ++
    if options.skipRegistration then [] else [.register site.specifier]

def Plan.calls (plan : Plan) (options : Options) : List Draft.Call :=
  (plan.order.filterMap (plan.sites[·]?)).flatMap (Site.calls options)

namespace Progress

/-- The items that two states put together are the same. -/
def Alike (p q : Progress) : Prop := p.imports = q.imports ∧ p.registered = q.registered

variable {p q : Progress}

theorem Alike.assemble (alike : p.Alike q) (items : List Tree) :
    p.assemble items = q.assemble items := by
  rw [Progress.assemble, Progress.assemble, alike.1, alike.2]

theorem Alike.serve (alike : p.Alike q) (hasImport : Bool) (rs : List Request) :
    (rs.foldl Progress.serve p).Alike
      (Draft.deferAll hasImport q (rs.map fun r => .add r.wanted r.hint)) := by
  induction rs generalizing p q with
  | nil => exact alike
  | cons r rest ih =>
      refine ih ⟨?_, alike.2⟩
      rw [Progress.serve, alike.1]
      rfl

theorem Alike.register (alike : p.Alike q) (hasImport : Bool) (source : String) :
    (p.register hasImport source).Alike (q.register hasImport source) := by
  rw [Progress.register, Progress.register, alike.1]
  split
  · exact ⟨rfl, congrArg (source :: ·) alike.2⟩
  · exact alike

/-- Processing a site is what its calls come to. -/
theorem Alike.step (alike : p.Alike q) (options : Options) (hasImport : Bool)
    {sites : List Site} {i : Nat} {site : Site} (at_i : sites[i]? = some site) :
    (p.step options hasImport sites i).Alike
      (Draft.deferAll hasImport q (site.calls options)) := by
  have served := alike.serve hasImport site.requests
  rw [← consume_progress] at served
  have noted : Alike { (p.consume site.specifier site.pattern).1 with
      actions := (p.consume site.specifier site.pattern).1.actions.set i
        (some (p.consume site.specifier site.pattern).2) } _ := ⟨served.1, served.2⟩
  rw [Site.calls, Draft.deferAll_append]
  simp only [Progress.step, at_i]
  split
  · exact noted
  · exact noted.register hasImport site.specifier

theorem Alike.foldl_step (alike : p.Alike q) (options : Options) (hasImport : Bool)
    (sites : List Site) (order : List Nat) :
    (order.foldl (Progress.step options hasImport sites) p).Alike (Draft.deferAll hasImport q
      ((order.filterMap (sites[·]?)).flatMap (Site.calls options))) := by
  induction order generalizing p q with
  | nil => exact alike
  | cons i rest ih =>
      rw [List.foldl_cons]
      cases at_i : sites[i]? with
      | none =>
          rw [step_none options hasImport sites p i at_i, List.filterMap_cons_none at_i]
          exact ih alike
      | some site =>
          rw [List.filterMap_cons_some at_i, List.flatMap_cons, Draft.deferAll_append]
          exact ih (alike.step options hasImport at_i)

end Progress

theorem Plan.wanted_calls (plan : Plan) (options : Options) :
    Draft.wanted (plan.calls options) = plan.wanted := by
  rw [Plan.wanted, Plan.requests_eq_flatMap, Draft.wanted, Plan.calls, List.filterMap_flatMap,
    List.map_flatMap]
  refine List.flatMap_congr fun site _ => ?_
  have asked : (site.requests.map fun r => Draft.Call.add r.wanted r.hint).filterMap
      Draft.Call.wanted? = site.requests.map Request.wanted := by
    rw [List.filterMap_map]
    exact congrFun List.filterMap_eq_map _
  rw [Site.calls, List.filterMap_append, asked]
  cases options.skipRegistration <;> exact List.append_nil _

namespace Module

variable (m : Module) (plan : Plan) (options : Options)

/-- The items of a module with imports and registrations generated into them one by one, as the
sites of a plan are processed. -/
def draft : Draft :=
  (Draft.start plan.bindings.rootCtxt plan.taken m.body).run (plan.calls options)

theorem progress_alike : (m.progress plan options).Alike
    (Draft.deferred plan.bindings.rootCtxt plan.taken m.body (plan.calls options)) := by
  have start : (Progress.start plan).Alike
      { imports := ⟨plan.bindings.rootCtxt, plan.taken, []⟩, actions := [] } := ⟨rfl, rfl⟩
  exact start.foldl_step options _ plan.sites plan.order

/-- Generating imports into the items as sites are processed comes to putting everything
together at the end. -/
theorem body_draft : (m.draft plan options).body = (m.progress plan options).assemble m.body := by
  rw [draft, (Draft.realizes_run _ _ _ _).body, (m.progress_alike plan options).assemble]

/-- So do the local names. -/
theorem lookup_draft {w : Wanted} (wanted : w ∈ plan.wanted) :
    (m.draft plan options).entries.lookup w = some
      (.generated ⟨(m.progress plan options).imports.nameOf w, plan.bindings.rootCtxt⟩) := by
  rw [← plan.wanted_calls options] at wanted
  rw [draft, (Draft.realizes_run _ _ _ _).lookup_of_mem wanted, Draft.ctxt_run,
    (m.progress_alike plan options).1]

end Module

end MockImport
