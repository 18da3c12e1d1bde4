import MockImport.Proofs.PlainModules

/-!
Settling leaves no reference. In a plain tree all of whose references are call sites, what
is left once these are settled and the aliases renamed holds no reference to the mock
function, as long as nothing that comes in is bound to it.
-/

namespace MockImport

namespace Bindings

variable {bs : Bindings}

theorem named?_eq_none_iff {v : Variable} : bs.named? v = none ↔ ⟨v, .named⟩ ∉ bs := by
  rw [← named?_isSome_iff, Option.not_isSome_iff_eq_none]

theorem member?_eq_none_iff (span : Span) {object property : Tree} :
    bs.member? object property = none ↔
      ¬ (Tree.member .expr span object property).Refers bs := by
  rw [refers_member_iff, Option.not_isSome_iff_eq_none]

end Bindings

namespace ExportSpecifier

/-- The specifier exports a binding under its own or another name. -/
def mentions (bs : Bindings) : ExportSpecifier → Bool
  | .named _ (.ident subject) _ _ => (bs.named? subject.var).isSome
  | _ => false

theorem references_eq_nil_iff {bs : Bindings} (c : Context) (s : ExportSpecifier) :
    s.references bs c = [] ↔ s.mentions bs = false := by
  cases s with
  | named span subject exported typeOnly =>
      cases subject with
      | string _ => exact iff_of_true rfl rfl
      | ident subject =>
          cases named : bs.named? subject.var with
          | none => exact iff_of_true (by simp only [references, named]) (by simp [mentions, named])
          | some b =>
              refine iff_of_false ?_ ?_
              · simp only [references, named]
                exact List.cons_ne_nil _ _
              · simp [mentions, named]
  | _ => exact iff_of_true rfl rfl

end ExportSpecifier

namespace Tree

/-- A mention of the mock function in an expression or a list of exports. -/
def isRead (bs : Bindings) : Tree → Bool
  | .ident .expr id | .shorthand id => (bs.named? id.var).isSome
  | .member .expr _ object property => (bs.member? object property).isSome
  | .exportNamed _ specifiers none _ _ => specifiers.any (·.mentions bs)
  | _ => false

variable {bs : Bindings}

theorem reference?_of_references_eq_nil {t : Tree} {c : Context} (none : references bs c t = []) :
    bs.reference? t = .none := by
  cases t with
  | ident role id =>
      cases role with
      | expr =>
          cases named : bs.named? id.var with
          | none => exact named
          | some b =>
              simp only [references, named] at none
              cases none
      | _ => rfl
  | member role span object property =>
      cases role with
      | expr =>
          cases star : bs.member? object property with
          | none => exact star
          | some b =>
              simp only [references, star] at none
              cases none
      | _ => rfl
  | _ => rfl

/-- Without references in it, an expression is no mock call. -/
theorem call?_of_references_eq_nil {t : Tree} {c : Context} (none : references bs c t = []) :
    bs.call? t = .none := by
  fun_induction Bindings.call? bs t generalizing c with
  | case1 role span inner ih =>
      cases call : bs.call? inner with
      | none => rfl
      | some m =>
          cases role with
          | expr =>
              simp only [references, call] at none
              cases none
          | _ => rw [← call]; exact ih none
  | case2 span ctxt callee args typeArgs =>
      cases isCallee : bs.callee? callee with
      | none => rfl
      | some b =>
          simp only [references, isCallee] at none
          cases none
  | case3 => rfl

theorem callee?_of_references_eq_nil {t : Tree} {c : Context} (none : references bs c t = []) :
    bs.callee? t = .none := by
  fun_induction Bindings.callee? bs t generalizing c with
  | case1 role span inner ih =>
      cases role with
      | expr =>
          cases call : bs.call? inner with
          | none =>
              simp only [references, call] at none
              exact ih none
          | some m =>
              simp only [references, call] at none
              cases none
      | _ => exact ih none
  | case2 => exact reference?_of_references_eq_nil none

section

variable (c : Context)

theorem references_ident_eq_nil_iff (role : Role) (id : Ident) :
    references bs c (.ident role id) = [] ↔ (Tree.ident role id).isRead bs = false := by
  cases role with
  | expr =>
      cases named : bs.named? id.var with
      | none => exact iff_of_true (by simp only [references, named]) (by simp [isRead, named])
      | some b => exact iff_of_false (by simp [references, named]) (by simp [isRead, named])
  | _ => exact iff_of_true rfl rfl

theorem references_shorthand_eq_nil_iff (id : Ident) :
    references bs c (.shorthand id) = [] ↔ (Tree.shorthand id).isRead bs = false := by
  cases named : bs.named? id.var with
  | none => exact iff_of_true (by simp only [references, named]) (by simp [isRead, named])
  | some b => exact iff_of_false (by simp [references, named]) (by simp [isRead, named])

theorem references_exportNamed_eq_nil_iff (span : Span) (specifiers : List ExportSpecifier)
    (source : Option StringLiteral) (typeOnly : Bool) (attributes : Tree) :
    references bs c (.exportNamed span specifiers source typeOnly attributes) = [] ↔
      (Tree.exportNamed span specifiers source typeOnly attributes).isRead bs = false := by
  cases source with
  | some _ => exact iff_of_true rfl rfl
  | none =>
      simp only [references, isRead, Option.isSome_none, Bool.false_eq_true, if_false,
        List.flatMap_eq_nil_iff, List.any_eq_false, ExportSpecifier.references_eq_nil_iff,
        Bool.not_eq_true]

theorem references_paren_eq_nil_iff (role : Role) (span : Span) (inner : Tree) :
    references bs c (.paren role span inner) = [] ↔
      references bs (c.enter role span) inner = [] := by
  cases role with
  | expr =>
      cases call : bs.call? inner with
      | none =>
          simp only [references, call]
          rfl
      | some m =>
          refine iff_of_false ?_ fun none => ?_
          · simp only [references, call]
            exact List.cons_ne_nil _ _
          · exact Option.some_ne_none m (call.symm.trans (call?_of_references_eq_nil none))
  | _ => rfl

theorem references_member_eq_nil_iff (role : Role) (span : Span) (object property : Tree) :
    references bs c (.member role span object property) = [] ↔
      (Tree.member role span object property).isRead bs = false ∧
        references bs (c.enter role span) object = [] ∧
          references bs (c.enter role span) property = [] := by
  cases role with
  | expr =>
      cases star : bs.member? object property with
      | some b => exact iff_of_false (by simp [references, star]) (by simp [isRead, star])
      | none =>
          cases call : bs.call? object with
          | none =>
              simp only [references, star, call, isRead, Option.isSome_none, true_and,
                List.append_eq_nil_iff]
              rfl
          | some m =>
              refine iff_of_false (by simp [references, star, call]) fun both => ?_
              exact Option.some_ne_none m (call.symm.trans (call?_of_references_eq_nil both.2.1))
  | _ => simp only [references, isRead, true_and, List.append_eq_nil_iff]

theorem references_call_eq_nil_iff (span : Span) (ctxt : Nat) (callee : Tree) (args : List Tree)
    (typeArgs : Tree) :
    references bs c (.call span ctxt callee args typeArgs) = [] ↔
      references bs (c.within span) callee = [] ∧ referencesList bs (c.within span) args = [] ∧
        references bs (c.within span) typeArgs = [] := by
  cases isCallee : bs.callee? callee with
  | none => simp only [references, isCallee, List.append_eq_nil_iff, and_assoc]
  | some b =>
      refine iff_of_false (by simp [references, isCallee]) fun all => ?_
      exact Option.some_ne_none b (isCallee.symm.trans (callee?_of_references_eq_nil all.1))

theorem references_declarator_eq_nil_iff (span : Span) (target init : Tree) (definite : Bool) :
    references bs c (.declarator span target init definite) = [] ↔
      references bs (c.within span) target = [] ∧ references bs (c.within span) init = [] := by
  cases call : bs.call? init with
  | none => simp only [references, call, List.append_eq_nil_iff]
  | some m =>
      refine iff_of_false (by simp [references, call]) fun both => ?_
      exact Option.some_ne_none m (call.symm.trans (call?_of_references_eq_nil both.2))

end

/-- The tree holds no reference to the mock function. -/
def Clear (bs : Bindings) (t : Tree) : Prop := ∀ c, references bs c t = []

namespace Clear

variable {t u : Tree}

theorem list {ts : List Tree} (clear : ∀ t ∈ ts, Clear bs t) (c : Context) :
    referencesList bs c ts = [] := by
  induction ts with
  | nil => rfl
  | cons t rest ih =>
      obtain ⟨here, later⟩ := List.forall_mem_cons.mp clear
      rw [referencesList, here c, ih later, List.append_nil]

theorem append (first : Clear bs t) (second : Clear bs u) (c d : Context) :
    references bs c t ++ references bs d u = [] := by
  rw [first c, second d, List.append_nil]

theorem ident {id : Ident} (unbound : bs.named? id.var = none) : Clear bs (.ident .expr id) := by
  intro c
  rw [references_ident_eq_nil_iff, isRead, unbound]
  rfl

theorem shorthand {id : Ident} (unbound : bs.named? id.var = none) : Clear bs (.shorthand id) := by
  intro c
  rw [references_shorthand_eq_nil_iff, isRead, unbound]
  rfl

theorem paren (clear : Clear bs t) (role : Role) (span : Span) :
    Clear bs (.paren role span t) := by
  intro c
  rw [references_paren_eq_nil_iff]
  exact clear _

theorem member (object : Clear bs t) (property : Clear bs u) (span : Span)
    (star : bs.member? t u = none) : Clear bs (.member .expr span t u) := by
  intro c
  rw [references_member_eq_nil_iff, isRead, star]
  exact ⟨rfl, object _, property _⟩

theorem call {callee typeArgs : Tree} {args : List Tree} (function : Clear bs callee)
    (arguments : ∀ t ∈ args, Clear bs t) (types : Clear bs typeArgs) (span : Span) (ctxt : Nat) :
    Clear bs (.call span ctxt callee args typeArgs) := by
  intro c
  rw [references_call_eq_nil_iff]
  exact ⟨function _, list arguments _, types _⟩

theorem declarator (target : Clear bs t) (init : Clear bs u) (span : Span) (definite : Bool) :
    Clear bs (.declarator span t u definite) := by
  intro c
  rw [references_declarator_eq_nil_iff]
  exact ⟨target _, init _⟩

end Clear

/-- The references are call sites, all of them among the given ones. -/
def Served (sites : List Site) (rs : List Reference) : Prop :=
  ∀ r ∈ rs, ∃ site ∈ sites, r.site? = some site

namespace Served

variable {sites : List Site} {rs ss : List Reference} {c : Context}

theorem of_append (served : Served sites (rs ++ ss)) : Served sites rs ∧ Served sites ss :=
  List.forall_mem_append.mp served

theorem not_error {b : Nat} {span at_ : Span} :
    ¬ Served sites (c.record b span (.error at_) :: rs) := by
  intro served
  obtain ⟨_, -, made⟩ := served _ List.mem_cons_self
  cases made

theorem not_uncalled {b : Nat} {span : Span} : ¬ Served sites (c.uncalled b span :: rs) :=
  not_error

theorem not_unconsumed {call : MockCall} : ¬ Served sites (c.unconsumed call :: rs) := by
  intro served
  obtain ⟨_, -, made⟩ := served _ List.mem_cons_self
  rw [Context.unconsumed, Reference.site?_record_usage] at made
  cases named : call.specifier? <;> rw [named] at made <;> cases made

theorem list_iff {bs : Bindings} {ts : List Tree} :
    Served sites (referencesList bs c ts) ↔ ∀ t ∈ ts, Served sites (references bs c t) := by
  induction ts with
  | nil => exact iff_of_true (List.forall_mem_nil _) (List.forall_mem_nil _)
  | cons t rest ih => rw [List.forall_mem_cons, ← ih]; exact List.forall_mem_append

end Served

theorem settleDeclaratorsBy_eq_map (bs : Bindings) (own : Option Site → SiteAction)
    (ts : List Tree) : settleDeclaratorsBy bs own ts =
      (ts.filter (!·.isDeclaratorSite bs)).map (settleBy bs own) := by
  induction ts with
  | nil => rfl
  | cons t rest ih =>
      cases site : t.isDeclaratorSite bs <;>
        simp [settleDeclaratorsBy, site, ih]

theorem isDeclaratorSite_of_isPlain (bs : Bindings) {t : Tree} (plain : t.isPlain false = true) :
    t.isDeclaratorSite bs = false := by
  cases t with
  | declarator _ _ _ _ => cases plain
  | _ => rfl

end Tree

/-- How call sites are replaced and variables renamed, and to which bindings the outcome is
held: those are among the old ones, and they bind nothing that comes in. -/
structure Discharge where
  bindings : Bindings
  left : Bindings
  own : Option Site → SiteAction
  renames : Renaming
  sites : List Site
  known : ∀ b ∈ left, b ∈ bindings
  renamed : ∀ v new, renames.lookup v = some new → ∀ b ∈ left, b.var ≠ new
  replaced : ∀ site ∈ sites, ∀ property, site.pattern = .member property →
    ∃ v, own (some site) = .replace v ∧ ∀ b ∈ left, b.var ≠ (renames.lookup v).getD v

namespace Discharge

open MockImport.Tree

variable (d : Discharge)

def expand (t : Tree) : Tree := rename d.renames (settleBy d.bindings d.own t)

/-- Wherever the tree stands, no reference is left of it if all its references are served. -/
def Clears (t : Tree) : Prop :=
  ∀ c, Served d.sites (references d.bindings c t) → Clear d.left (d.expand t)

/-- A variable that is not bound is not bound under its new name. -/
theorem not_bound {v : Variable} {kind : BindingKind} (unbound : ⟨v, kind⟩ ∉ d.bindings) :
    ⟨(d.renames.lookup v).getD v, kind⟩ ∉ d.left := by
  intro bound
  cases found : d.renames.lookup v with
  | none =>
      rw [found] at bound
      exact unbound (d.known _ bound)
  | some new =>
      rw [found] at bound
      exact d.renamed v new found _ bound rfl

theorem named?_rename {v : Variable} (unbound : d.bindings.named? v = none) :
    d.left.named? ((d.renames.lookup v).getD v) = none := by
  rw [Bindings.named?_eq_none_iff] at unbound ⊢
  exact d.not_bound unbound

variable {d}

/-- A member access that is a call site becomes an identifier that is not bound. -/
theorem replaced_access {c : Context} {span : Span} {object property : Tree}
    (served : Served d.sites (references d.bindings c (.member .expr span object property)))
    (called : (d.bindings.call? object).isSome) :
    ∃ v, d.own (d.bindings.accessedSite? object property) = .replace v ∧
      ∀ b ∈ d.left, b.var ≠ (d.renames.lookup v).getD v := by
  obtain ⟨call, isCall⟩ := Option.isSome_iff_exists.mp called
  cases star : d.bindings.member? object property with
  | some b =>
      simp only [references, star] at served
      exact absurd served Served.not_uncalled
  | none =>
      simp only [references, star, isCall] at served
      obtain ⟨site, isSite, made⟩ := served.of_append.1 _ List.mem_cons_self
      rw [Reference.site?_record_usage] at made
      have accessed : d.bindings.accessedSite? object property = some site := by
        rw [Bindings.accessedSite?, isCall]
        exact made
      obtain ⟨name, pattern⟩ := Bindings.pattern_of_accessedSite? accessed
      rw [accessed]
      exact d.replaced site isSite name pattern

theorem expand_site {span : Span} {object property : Tree} {v : Variable}
    (called : (d.bindings.call? object).isSome)
    (replaced : d.own (d.bindings.accessedSite? object property) = .replace v) :
    d.expand (.member .expr span object property) =
      .ident .expr ((Ident.generated v).rename d.renames) := by
  simp only [expand, settleBy, called, and_self, if_true, replaced, rename]

theorem expand_member {role : Role} {span : Span} {object property : Tree}
    (other : ¬ (role = .expr ∧ (d.bindings.call? object).isSome)) :
    d.expand (.member role span object property) =
      .member role span (d.expand object) (d.expand property) := by
  simp only [expand, settleBy, other, if_false, rename]

/-- An identifier comes of an identifier or of a call site. -/
theorem of_expand_ident {t : Tree} {id : Ident} (same : d.expand t = .ident .expr id) :
    (∃ old, t = .ident .expr old ∧ id = old.rename d.renames) ∨
      ∃ span object property v, t = .member .expr span object property ∧
        (d.bindings.call? object).isSome ∧
          d.own (d.bindings.accessedSite? object property) = .replace v ∧
            id = (Ident.generated v).rename d.renames := by
  cases t with
  | ident role old =>
      cases same
      exact .inl ⟨old, rfl, rfl⟩
  | member role span object property =>
      by_cases site : role = .expr ∧ (d.bindings.call? object).isSome
      · obtain ⟨rfl, called⟩ := site
        cases action : d.own (d.bindings.accessedSite? object property) with
        | remove =>
            simp only [expand, settleBy, called, and_self, if_true, action, rename] at same
            cases same
        | replace v =>
            rw [expand_site called action] at same
            cases same
            exact .inr ⟨span, object, property, v, rfl, called, action, rfl⟩
      · rw [expand_member site] at same
        cases same
  | shorthand old =>
      simp only [expand, settleBy, rename, Ident.renameShorthand] at same
      split at same <;> cases same
  | exportNamed _ _ source _ _ => cases source <;> cases same
  | _ => cases same

theorem of_expand_name {t : Tree} {span : Span} {text : String}
    (same : d.expand t = .name span text) : t = .name span text := by
  cases t with
  | name _ _ => exact same
  | member role _ object property =>
      simp only [expand, settleBy] at same
      split at same
      · split at same <;> cases same
      · cases same
  | shorthand old =>
      simp only [expand, settleBy, rename, Ident.renameShorthand] at same
      split at same <;> cases same
  | exportNamed _ _ source _ _ => cases source <;> cases same
  | _ => cases same

theorem member?_expand {c : Context} {object property : Tree}
    (served : Served d.sites (references d.bindings c object))
    (star : d.bindings.member? object property = none) :
    d.left.member? (d.expand object) (d.expand property) = none := by
  rw [Bindings.member?_eq_none_iff .generated] at star ⊢
  intro refers
  generalize toObject : d.expand object = object' at refers
  generalize toProperty : d.expand property = property' at refers
  cases refers with
  | member _ nameSpan id bound =>
      obtain rfl := of_expand_name toProperty
      obtain ⟨old, rfl, rfl⟩ | ⟨_, _, _, v, rfl, called, replaced, rfl⟩ := of_expand_ident toObject
      · exact d.not_bound (fun bound => star (.member _ _ _ bound)) bound
      · obtain ⟨v', replaced', unbound⟩ := replaced_access served called
        obtain rfl := SiteAction.replace.inj (replaced.symm.trans replaced')
        exact unbound _ bound rfl

theorem clear_list {ts : List Tree} {c : Context} (clears : ∀ t ∈ ts, d.Clears t)
    (served : Served d.sites (referencesList d.bindings c ts)) :
    ∀ u ∈ renameList d.renames (settleListBy d.bindings d.own ts), Clear d.left u := by
  rw [settleListBy_eq_map, renameList_eq_map, List.map_map, List.forall_mem_map]
  exact fun t mem => clears t mem c (Served.list_iff.mp served t mem)

/-- A list that loses some of its trees after they are expanded. -/
theorem clear_filter {ts : List Tree} {c : Context} (clears : ∀ t ∈ ts, d.Clears t)
    (served : Served d.sites (referencesList d.bindings c ts)) (keep : Tree → Bool) :
    ∀ u ∈ renameList d.renames ((settleListBy d.bindings d.own ts).filter keep),
      Clear d.left u := by
  rw [renameList_eq_map]
  intro u mem
  obtain ⟨t, kept, rfl⟩ := List.mem_map.mp mem
  refine clear_list clears served _ ?_
  rw [renameList_eq_map]
  exact List.mem_map_of_mem (List.mem_filter.mp kept).1

theorem clear_declarators {ts : List Tree} {c : Context}
    (clears : ∀ t ∈ ts, t.isDeclaratorSite d.bindings = false → d.Clears t)
    (served : Served d.sites (referencesList d.bindings c ts)) :
    ∀ u ∈ renameList d.renames (settleDeclaratorsBy d.bindings d.own ts), Clear d.left u := by
  rw [settleDeclaratorsBy_eq_map, renameList_eq_map, List.map_map, List.forall_mem_map]
  intro t kept
  obtain ⟨mem, noSite⟩ := List.mem_filter.mp kept
  exact clears t mem (by simpa using noSite) c (Served.list_iff.mp served t mem)

namespace Clears

variable {t u : Tree}

theorem of_clear (clear : Clear d.left (d.expand t)) : d.Clears t := fun _ _ => clear

theorem ident (id : Ident) : d.Clears (.ident .expr id) := by
  intro c served
  cases named : d.bindings.named? id.var with
  | none => exact .ident (d.named?_rename named)
  | some b =>
      simp only [references, named] at served
      exact absurd served Served.not_uncalled

theorem shorthand (id : Ident) : d.Clears (.shorthand id) := by
  intro c served
  cases named : d.bindings.named? id.var with
  | none =>
      have unbound := d.named?_rename named
      simp only [expand, settleBy, rename, Ident.renameShorthand]
      cases found : d.renames.lookup id.var with
      | none =>
          rw [found] at unbound
          exact .shorthand unbound
      | some new =>
          rw [found] at unbound
          exact fun c => Clear.append (fun _ => rfl) (.ident unbound) _ _
  | some b =>
      simp only [references, named] at served
      exact absurd served Served.not_error

theorem exportSpecifier {s : ExportSpecifier} {c : Context}
    (served : Served d.sites (s.references d.bindings c)) (c' : Context) :
    (s.rename d.renames).references d.left c' = [] := by
  cases s with
  | named span subject exported typeOnly =>
      cases subject with
      | string _ => rfl
      | ident subject =>
          cases named : d.bindings.named? subject.var with
          | none =>
              have unbound := d.named?_rename named
              simp only [ExportSpecifier.rename]
              cases found : d.renames.lookup subject.var with
              | none =>
                  rw [found, Option.getD_none] at unbound
                  simp only [ExportSpecifier.references, unbound]
              | some new =>
                  rw [found, Option.getD_some] at unbound
                  simp only [ExportSpecifier.references, unbound]
          | some b =>
              simp only [ExportSpecifier.references, named] at served
              exact absurd served Served.not_error
  | _ => rfl

theorem exportNamed (span : Span) (specifiers : List ExportSpecifier)
    (source : Option StringLiteral) (typeOnly : Bool) (attributes : Tree) :
    d.Clears (.exportNamed span specifiers source typeOnly attributes) := by
  intro c served c'
  cases source with
  | some source => rfl
  | none =>
      refine List.flatMap_eq_nil_iff.mpr (List.forall_mem_map.mpr fun s mem => ?_)
      exact exportSpecifier (fun r isReference =>
        served r (List.mem_flatMap.mpr ⟨s, mem, isReference⟩)) c'

theorem paren (clears : d.Clears t) (role : Role) (span : Span) :
    d.Clears (.paren role span t) := by
  intro c served
  refine Clear.paren ?_ role span
  cases role with
  | expr =>
      cases call : d.bindings.call? t with
      | none =>
          simp only [references, call] at served
          exact clears _ served
      | some m =>
          simp only [references, call] at served
          exact absurd served Served.not_unconsumed
  | _ => exact clears _ served

theorem member (object : d.Clears t) (property : d.Clears u) (role : Role) (span : Span) :
    d.Clears (.member role span t u) := by
  intro c served
  by_cases site : role = .expr ∧ (d.bindings.call? t).isSome
  · -- The call site is replaced as a whole, so what it holds does not matter.
    obtain ⟨rfl, called⟩ := site
    obtain ⟨v, replaced, unbound⟩ := replaced_access served called
    rw [expand_site called replaced]
    exact .ident (Bindings.named?_eq_none_iff.mpr fun bound => unbound _ bound rfl)
  · rw [expand_member site]
    cases role with
    | expr =>
        have uncalled : d.bindings.call? t = none := by simpa using site
        cases star : d.bindings.member? t u with
        | some b =>
            simp only [references, star] at served
            exact absurd served Served.not_uncalled
        | none =>
            simp only [references, star, uncalled] at served
            obtain ⟨first, second⟩ := served.of_append
            exact (object _ first).member (property _ second) span (member?_expand first star)
    | _ =>
        obtain ⟨first, second⟩ := Served.of_append served
        exact fun c => (object _ first).append (property _ second) _ _

theorem call {callee typeArgs : Tree} {args : List Tree} (function : d.Clears callee)
    (arguments : ∀ t ∈ args, d.Clears t) (types : d.Clears typeArgs) (span : Span) (ctxt : Nat) :
    d.Clears (.call span ctxt callee args typeArgs) := by
  intro c served
  cases isCallee : d.bindings.callee? callee with
  | none =>
      simp only [references, isCallee] at served
      obtain ⟨first, third⟩ := served.of_append
      obtain ⟨first, second⟩ := first.of_append
      exact (function _ first).call (clear_list arguments second) (types _ third) span ctxt
  | some b =>
      simp only [references, isCallee] at served
      exact absurd served Served.not_unconsumed

theorem declarator (target : d.Clears t) (init : d.Clears u) (span : Span) (definite : Bool)
    (noSite : (Tree.declarator span t u definite).isDeclaratorSite d.bindings = false) :
    d.Clears (.declarator span t u definite) := by
  intro c served
  have uncalled : d.bindings.call? u = none := by simpa [isDeclaratorSite] using noSite
  simp only [references, uncalled] at served
  obtain ⟨first, second⟩ := served.of_append
  exact (target _ first).declarator (init _ second) span definite

end Clears

/-- In a plain tree declarators stand in declarations only, which drop those that are call
sites, so none is left to hold a mock call. -/
theorem clears_of_isPlain (t : Tree) (declared : Bool) (plain : t.isPlain declared = true)
    (noSite : t.isDeclaratorSite d.bindings = false) : d.Clears t := by
  have all {ts : List Tree} (plain : arePlain false ts = true)
      (ih : ∀ t ∈ ts, ∀ declared, t.isPlain declared = true →
        t.isDeclaratorSite d.bindings = false → d.Clears t) :
      ∀ t ∈ ts, d.Clears t :=
    fun t mem =>
      have plainTree := arePlain_iff.mp plain t mem
      ih t mem false plainTree (isDeclaratorSite_of_isPlain _ plainTree)
  have part {t : Tree} (plain : t.isPlain false = true)
      (ih : ∀ declared, t.isPlain declared = true →
        t.isDeclaratorSite d.bindings = false → d.Clears t) : d.Clears t :=
    ih false plain (isDeclaratorSite_of_isPlain _ plain)
  have absent {t : Tree} (absent : t.isAbsent = true) : d.Clears t := by
    obtain rfl := isAbsent_iff.mp absent
    exact .of_clear fun _ => rfl
  induction t generalizing declared with
  | absent | leaf _ | context _ | name _ _ | string _ => exact .of_clear fun _ => rfl
  | ident role id =>
      cases role with
      | expr => exact .ident id
      | _ => exact .of_clear fun _ => rfl
  | shorthand id => exact .shorthand id
  | items trees ih => exact fun c served => Clear.list (clear_list (all plain ih) served)
  | binding id typing _ =>
      have noType : typing.isAbsent = true := plain
      exact fun c served c' => absent noType c served c'
  | paren role span inner ih => exact (part plain ih).paren role span
  | member role span object property ihObject ihProperty =>
      simp only [isPlain, Bool.and_eq_true] at plain
      exact (part plain.1 ihObject).member (part plain.2 ihProperty) role span
  | call span ctxt callee args typeArgs ihCallee ihArgs _ =>
      simp only [isPlain, Bool.and_eq_true] at plain
      obtain ⟨⟨plainCallee, plainArgs⟩, noTypes⟩ := plain
      exact (part plainCallee ihCallee).call (all plainArgs ihArgs) (absent noTypes) span ctxt
  | arg _ value ih =>
      have plainValue : value.isPlain false = true := plain
      exact fun c served c' => part plainValue ih c served c'
  | declaration role span _ _ _ ts ih =>
      exact fun c served d => Clear.list (clear_declarators
        (fun t mem => ih t mem true (arePlain_iff.mp plain t mem)) served) _
  | declarator span target init definite ihTarget ihInit =>
      simp only [isPlain, Bool.and_eq_true] at plain
      exact (part plain.1.2 ihTarget).declarator (part plain.2 ihInit) span definite noSite
  | objectPattern _ properties _ typing ihProperties _ =>
      simp only [isPlain, Bool.and_eq_true] at plain
      intro c served c'
      obtain ⟨first, second⟩ := Served.of_append served
      exact List.append_eq_nil_iff.mpr
        ⟨Clear.list (clear_list (all plain.1 ihProperties) first) c', absent plain.2 _ second c'⟩
  | patternShorthand _ _ typing value _ ihValue =>
      simp only [isPlain, Bool.and_eq_true] at plain
      intro c served c'
      obtain ⟨first, second⟩ := Served.of_append served
      exact (absent plain.1 _ first).append (part plain.2 ihValue _ second) c' c'
  | patternPair _ _ ihKey ihValue =>
      simp only [isPlain, Bool.and_eq_true] at plain
      intro c served c'
      obtain ⟨first, second⟩ := Served.of_append served
      exact (part plain.1 ihKey _ first).append (part plain.2 ihValue _ second) c' c'
  | pair _ _ ihKey ihValue =>
      simp only [isPlain, Bool.and_eq_true] at plain
      intro c served c'
      obtain ⟨first, second⟩ := Served.of_append served
      exact (part plain.1 ihKey _ first).append (part plain.2 ihValue _ second) _ _
  | getter span key typing body ihKey _ ihBody =>
      simp only [isPlain, Bool.and_eq_true] at plain
      intro c served c'
      obtain ⟨first, second⟩ := Served.of_append served
      exact (part plain.1.1 ihKey _ first).append (part plain.2 ihBody _ second) _ _
  | importDecl _ _ _ _ attributes _ _ =>
      have noAttributes : attributes.isAbsent = true := plain
      exact fun c served c' => absent noAttributes _ served _
  | exportNamed span specifiers source typeOnly attributes _ =>
      exact .exportNamed span specifiers source typeOnly attributes
  | exportDecl _ declaration ih =>
      have plainDeclaration : declaration.isPlain false = true := plain
      exact fun c served c' => part plainDeclaration ih _ served _
  | scope _ _ _ outer inner ihOuter ihInner =>
      simp only [isPlain, Bool.and_eq_true] at plain
      intro c served c'
      obtain ⟨first, second⟩ := Served.of_append served
      exact List.append_eq_nil_iff.mpr ⟨Clear.list (clear_list (all plain.1 ihOuter) first) _,
        Clear.list (clear_list (all plain.2 ihInner) second) _⟩
  | moduleBlock _ body ih =>
      have plainBody : arePlain false body = true := plain
      exact fun c served c' => Clear.list (clear_filter (all plainBody ih) served _) _
  | node _ _ _ fields ih =>
      simp only [isPlain, Bool.and_eq_true] at plain
      exact fun c served c' => Clear.list (clear_list (all plain.1 ih) served) _

theorem clear_items {items : List Tree} (plain : ∀ t ∈ items, t.isPlain false = true)
    (served : ∀ t ∈ items, Served d.sites (references d.bindings .root t)) :
    ∀ u ∈ renameList d.renames (settleItemsBy d.bindings d.own items), Clear d.left u :=
  clear_filter (fun t mem => clears_of_isPlain t false (plain t mem)
    (isDeclaratorSite_of_isPlain _ (plain t mem))) (Served.list_iff.mpr served) _

end Discharge

end MockImport
