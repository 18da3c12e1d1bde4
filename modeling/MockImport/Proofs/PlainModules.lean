import MockImport.Proofs.Acceptance
import MockImport.Proofs.InStep

/-!
Plain modules are in step: once every reference is accepted, nothing that only one of
the two traversals enters is left to hold a call site.
-/

namespace MockImport

namespace Tree

variable {bs : Bindings}

theorem sitePlaces_absent {t : Tree} (absent : t.isAbsent = true) : sitePlaces bs t = [] := by
  cases t with
  | absent => rfl
  | _ => cases absent

theorem sitePlacesList_eq_nil {ts : List Tree} (none : ∀ t ∈ ts, sitePlaces bs t = []) :
    sitePlacesList bs ts = [] := by
  induction ts with
  | nil => rfl
  | cons t rest ih =>
      rw [sitePlacesList, none t List.mem_cons_self,
        ih fun u mem => none u (List.mem_cons_of_mem t mem), List.append_nil]

theorem sitePlaces_of_dynamicImport? {t : Tree} (names : t.dynamicImport?.isSome)
    (plain : t.isPlain false = true) : sitePlaces bs t = [] := by
  fun_induction dynamicImport? t with
  | case1 role span inner ih => exact ih names plain
  | case2 span ctxt role keyword fields literal typeArgs =>
      simp only [isPlain, arePlain, Bool.and_eq_true, ne_eq, not_true_eq_false, decide_false,
        Bool.false_or] at plain
      have leaves : sitePlacesList bs fields = [] :=
        sitePlacesList_eq_nil fun f mem => by
          have isLeaf := List.all_eq_true.mp plain.1.1.2 f mem
          cases f with
          | leaf _ => rfl
          | _ => cases isLeaf
      simp only [sitePlaces, sitePlacesList, leaves, sitePlaces_absent plain.2, List.append_nil]
  | case3 => cases names

theorem argumentPlaces_of_call? {t : Tree} {m : MockCall} (isCall : bs.call? t = some m)
    (names : m.specifier?.isSome) (plain : t.isPlain false = true) :
    argumentPlaces bs t = [] := by
  fun_induction Bindings.call? bs t with
  | case1 role span inner ih => exact ih isCall plain
  | case2 span ctxt callee args typeArgs =>
      obtain ⟨b, -, rfl⟩ := Option.map_eq_some_iff.mp isCall
      obtain ⟨source, named⟩ := Option.isSome_iff_exists.mp names
      obtain ⟨t, only, imports⟩ := MockCall.specifier?_eq_some_iff.mp named
      obtain rfl : args = [.arg none t] := only
      simp only [isPlain, arePlain, Bool.and_eq_true, Bool.and_true] at plain
      simp only [argumentPlaces, sitePlacesList, sitePlaces, List.append_nil]
      exact sitePlaces_of_dynamicImport? (Option.isSome_of_eq_some imports) plain.1.2
  | case3 => cases isCall

theorem sitePlaces_of_destructuredPair? {t : Tree} (isPair : t.destructuredPair?.isSome)
    (plain : t.isPlain false = true) : sitePlaces bs t = [] := by
  obtain ⟨pair, found⟩ := Option.isSome_iff_exists.mp isPair
  obtain ⟨_, _, _, rfl, -⟩ | ⟨_, _, _, _, rfl, -⟩ :=
    destructuredPair?_eq_some_iff.mp found
  · simp only [isPlain, Bool.and_eq_true] at plain
    simp only [sitePlaces, sitePlaces_absent plain.1, List.append_nil]
  · simp only [isPlain, Bool.true_and] at plain
    simp only [sitePlaces, sitePlaces_absent plain, List.append_nil]

theorem sitePlaces_of_targetPattern? {t : Tree} (isTarget : t.targetPattern?.isSome)
    (plain : t.isPlain false = true) : sitePlaces bs t = [] := by
  obtain ⟨pattern, found⟩ := Option.isSome_iff_exists.mp isTarget
  obtain ⟨_, _, rfl, -⟩ | ⟨_, properties, _, typing, pairs, rfl, made, -⟩ :=
    targetPattern?_eq_some_iff.mp found
  · simp only [isPlain] at plain
    rw [sitePlaces, sitePlaces_absent plain]
  · have pair := (isSome_mapM_iff _ properties).mp (Option.isSome_of_eq_some made)
    simp only [isPlain, Bool.and_eq_true] at plain
    have each : ∀ p ∈ properties, p.isPlain false = true := arePlain_iff.mp plain.1
    rw [sitePlaces, sitePlaces_absent plain.2, List.append_nil]
    exact sitePlacesList_eq_nil fun p mem =>
      sitePlaces_of_destructuredPair? (pair p mem) (each p mem)

/-- Planning and settling come to the same places. -/
def Even (ps : List SitePlace) : Prop := ∀ p ∈ ps, p.planned = p.settled

theorem Even.nil : Even [] := List.forall_mem_nil _

theorem Even.append {ps qs : List SitePlace} (first : Even ps) (second : Even qs) :
    Even (ps ++ qs) :=
  List.forall_mem_append.mpr ⟨first, second⟩

/-- A place that both traversals come to, with nothing below it. -/
theorem Even.site (site : Option Site) {below : List SitePlace} (none : below = []) :
    Even (⟨site, true, true⟩ :: below.map .planOnly) := by
  obtain rfl := none
  exact List.forall_mem_singleton.mpr rfl

/-- Wherever the tree stands, its places are even once no reference in it is at fault. -/
def Steady (bs : Bindings) (t : Tree) : Prop :=
  ∀ c : Context, (∀ r ∈ references bs c t, r.fault? = none) → Even (sitePlaces bs t)

/-- The same of a tree that may be declared: the places are those in a declaration of it. -/
def SteadyDeclared (bs : Bindings) (t : Tree) : Prop :=
  ∀ c : Context, (∀ r ∈ references bs c t, r.fault? = none) → Even (declaratorPlaces bs [t])

theorem SteadyDeclared.steady {t : Tree} (steady : SteadyDeclared bs t)
    (plain : t.isPlain false = true) : Steady bs t := by
  intro c faultless
  have even := steady c faultless
  obtain ⟨_, _, _, _, rfl, -⟩ | ⟨-, places⟩ := declaratorPlaces_cons bs t []
  · cases plain
  · rw [places] at even
    exact fun p mem => even p (List.mem_append_left _ mem)

theorem SteadyDeclared.declarators {ts : List Tree} (steady : ∀ t ∈ ts, SteadyDeclared bs t)
    {c : Context} (faultless : ∀ r ∈ referencesList bs c ts, r.fault? = none) :
    Even (declaratorPlaces bs ts) := by
  induction ts with
  | nil => exact .nil
  | cons t rest ih =>
      obtain ⟨here, later⟩ := List.forall_mem_cons.mp steady
      obtain ⟨first, others⟩ := List.forall_mem_append.mp faultless
      have parts : declaratorPlaces bs (t :: rest) =
          declaratorPlaces bs [t] ++ declaratorPlaces bs rest := by
        cases t <;> simp only [declaratorPlaces, List.append_nil]
      rw [parts]
      exact (here c first).append (ih later others)

theorem usage_of_faultless {c : Context} {m : MockCall} {consumer : Span}
    {pattern : Option Pattern}
    (faultless : (c.record m.binding m.span (m.usage consumer pattern)).fault? = none) :
    m.specifier?.isSome ∧ pattern.isSome := by
  obtain ⟨source, p, names, isPattern, -⟩ | ⟨_, -, usage⟩ := m.usage_cases consumer pattern
  · exact ⟨Option.isSome_of_eq_some names, Option.isSome_of_eq_some isPattern⟩
  · rw [usage] at faultless
    cases faultless

namespace Steady

variable {t u : Tree}

theorem of_nil (none : sitePlaces bs t = []) : Steady bs t := fun _ _ => none ▸ .nil

theorem list {ts : List Tree} (steady : ∀ t ∈ ts, Steady bs t) {c : Context}
    (faultless : ∀ r ∈ referencesList bs c ts, r.fault? = none) :
    Even (sitePlacesList bs ts) := by
  induction ts with
  | nil => exact .nil
  | cons t rest ih =>
      obtain ⟨here, later⟩ := List.forall_mem_cons.mp steady
      obtain ⟨first, others⟩ := List.forall_mem_append.mp faultless
      exact (here c first).append (ih later others)

theorem append {c d : Context} (first : Steady bs t) (second : Steady bs u)
    (faultless : ∀ r ∈ references bs c t ++ references bs d u, r.fault? = none) :
    Even (sitePlaces bs t ++ sitePlaces bs u) := by
  obtain ⟨here, later⟩ := List.forall_mem_append.mp faultless
  exact (first c here).append (second d later)

theorem paren {role : Role} {span : Span} (steady : Steady bs t) :
    Steady bs (.paren role span t) := by
  intro c faultless
  cases role with
  | expr =>
      cases call : bs.call? t with
      | none =>
          simp only [references, call] at faultless
          exact steady _ faultless
      | some m =>
          simp only [references, call, List.forall_mem_cons] at faultless
          exact (Reference.fault?_unconsumed c m faultless.1).elim
  | _ => exact steady _ faultless

theorem member {role : Role} {span : Span} (object : Steady bs t) (property : Steady bs u)
    (plain : t.isPlain false = true) : Steady bs (.member role span t u) := by
  intro c faultless
  cases role with
  | expr =>
      cases star : bs.member? t u with
      | some b =>
          simp only [references, star, List.forall_mem_singleton] at faultless
          cases faultless
      | none =>
          cases call : bs.call? t with
          | none =>
              simp only [references, star, call] at faultless
              simp only [sitePlaces, call, Option.isSome_none, Bool.false_eq_true, and_false,
                if_false]
              exact object.append property faultless
          | some m =>
              simp only [references, star, call, List.forall_mem_append, List.forall_mem_cons]
                at faultless
              obtain ⟨names, isName⟩ := usage_of_faultless faultless.1.1
              obtain ⟨nameSpan, text, rfl⟩ := (propertyPattern?_isSome_iff _).mp isName
              simp only [sitePlaces, call, Option.isSome_some, and_self, if_true]
              exact .site _ (by rw [argumentPlaces_of_call? call names plain, List.append_nil])
  | _ => exact object.append property faultless

theorem call {span : Span} {ctxt : Nat} {callee : Tree} {args : List Tree}
    (function : Steady bs callee) (arguments : ∀ t ∈ args, Steady bs t) :
    Steady bs (.call span ctxt callee args .absent) := by
  intro c faultless
  cases isCallee : bs.callee? callee with
  | none =>
      simp only [references, isCallee, List.forall_mem_append] at faultless
      simp only [sitePlaces, List.append_nil]
      exact (function _ faultless.1.1).append (list arguments faultless.1.2)
  | some b =>
      simp only [references, isCallee, List.forall_mem_cons] at faultless
      exact (Reference.fault?_unconsumed c _ faultless.1).elim

theorem declarator {span : Span} {definite : Bool} (target : Steady bs t) (init : Steady bs u)
    (plainTarget : t.isPlain false = true) (plainInit : u.isPlain false = true) :
    SteadyDeclared bs (.declarator span t u definite) := by
  intro c faultless
  cases call : bs.call? u with
  | none =>
      simp only [references, call] at faultless
      simp only [declaratorPlaces, call, Option.isSome_none, Bool.false_eq_true, if_false,
        List.append_nil]
      exact target.append init faultless
  | some m =>
      simp only [references, call, List.forall_mem_cons] at faultless
      obtain ⟨names, isTarget⟩ := usage_of_faultless faultless.1
      simp only [declaratorPlaces, call, Option.isSome_some, if_true, List.append_nil]
      exact .site _ (by
        rw [sitePlaces_of_targetPattern? isTarget plainTarget,
          argumentPlaces_of_call? call names plainInit, List.append_nil])

end Steady

theorem steady_of_isPlain (t : Tree) (declared : Bool) (plain : t.isPlain declared = true) :
    SteadyDeclared bs t := by
  have alone {t : Tree} (steady : Steady bs t)
      (same : declaratorPlaces bs [t] = sitePlaces bs t ++ [] := by rfl) :
      SteadyDeclared bs t := by
    intro c faultless
    rw [same, List.append_nil]
    exact steady c faultless
  have all {ts : List Tree} (plain : arePlain false ts = true)
      (ih : ∀ t ∈ ts, ∀ declared, t.isPlain declared = true → SteadyDeclared bs t) :
      ∀ t ∈ ts, Steady bs t :=
    fun t mem =>
      have plainTree := arePlain_iff.mp plain t mem
      (ih t mem false plainTree).steady plainTree
  induction t generalizing declared with
  | absent | leaf _ | context _ | name _ _ | string _ | ident _ _ | shorthand _ =>
      exact alone (.of_nil rfl)
  | items trees ih => exact alone fun _ => Steady.list (all plain ih)
  | binding id typing _ =>
      have none : sitePlaces bs typing = [] := sitePlaces_absent plain
      exact alone (.of_nil none)
  | arg _ _ ih => exact alone fun _ => (ih false plain).steady plain _
  | exportDecl _ _ ih => exact alone fun _ => (ih false plain).steady plain _
  | importDecl _ _ _ _ attributes _ _ =>
      have none : sitePlaces bs attributes = [] := sitePlaces_absent plain
      exact alone (.of_nil none)
  | exportNamed _ _ _ _ attributes _ =>
      have none : sitePlaces bs attributes = [] := sitePlaces_absent plain
      exact alone (.of_nil (by rw [sitePlaces, none, List.map_nil]))
  | paren role span inner ih => exact alone ((ih false plain).steady plain).paren
  | member role span object property ihObject ihProperty =>
      simp only [isPlain, Bool.and_eq_true] at plain
      exact alone (((ihObject false plain.1).steady plain.1).member
        ((ihProperty false plain.2).steady plain.2) plain.1)
  | call span ctxt callee args typeArgs ihCallee ihArgs _ =>
      simp only [isPlain, Bool.and_eq_true] at plain
      obtain ⟨⟨plainCallee, plainArgs⟩, absent⟩ := plain
      obtain rfl := isAbsent_iff.mp absent
      exact alone (((ihCallee false plainCallee).steady plainCallee).call (all plainArgs ihArgs))
  | declaration role span _ _ _ ts ih =>
      exact alone fun _ => SteadyDeclared.declarators fun t mem =>
        ih t mem true (arePlain_iff.mp plain t mem)
  | declarator span target init definite ihTarget ihInit =>
      simp only [isPlain, Bool.and_eq_true] at plain
      obtain ⟨⟨-, plainTarget⟩, plainInit⟩ := plain
      exact ((ihTarget false plainTarget).steady plainTarget).declarator
        ((ihInit false plainInit).steady plainInit) plainTarget plainInit
  | objectPattern _ properties _ typing ihProperties _ =>
      simp only [isPlain, Bool.and_eq_true] at plain
      obtain ⟨plainProperties, absent⟩ := plain
      refine alone fun c faultless => ?_
      rw [sitePlaces, sitePlaces_absent absent, List.append_nil]
      exact Steady.list (all plainProperties ihProperties)
        (List.forall_mem_append.mp faultless).1
  | patternShorthand _ _ typing value _ ihValue =>
      simp only [isPlain, Bool.and_eq_true] at plain
      obtain ⟨absent, plainValue⟩ := plain
      refine alone fun c faultless => ?_
      rw [sitePlaces, sitePlaces_absent absent, List.nil_append]
      exact (ihValue false plainValue).steady plainValue _
        (List.forall_mem_append.mp faultless).2
  | patternPair _ _ ihKey ihValue | pair _ _ ihKey ihValue =>
      simp only [isPlain, Bool.and_eq_true] at plain
      exact alone fun _ => ((ihKey false plain.1).steady plain.1).append
        ((ihValue false plain.2).steady plain.2)
  | getter span key typing body ihKey _ ihBody =>
      simp only [isPlain, Bool.and_eq_true] at plain
      obtain ⟨⟨plainKey, absent⟩, plainBody⟩ := plain
      refine alone fun c faultless => ?_
      rw [sitePlaces, sitePlaces_absent absent, List.map_nil, List.append_nil]
      exact ((ihKey false plainKey).steady plainKey).append
        ((ihBody false plainBody).steady plainBody) faultless
  | scope _ _ _ outer inner ihOuter ihInner =>
      simp only [isPlain, Bool.and_eq_true] at plain
      refine alone fun c faultless => ?_
      obtain ⟨first, second⟩ := List.forall_mem_append.mp faultless
      exact (Steady.list (all plain.1 ihOuter) first).append
        (Steady.list (all plain.2 ihInner) second)
  | moduleBlock _ body ih => exact alone fun _ => Steady.list (all plain ih)
  | node _ _ _ fields ih =>
      simp only [isPlain, Bool.and_eq_true] at plain
      exact alone fun _ => Steady.list (all plain.1 ih)

end Tree

/-- A plain module that has a plan is in step. -/
theorem Module.inStep_of_isPlain {m : Module} {source : Option String} {plan : Plan}
    (plain : m.isPlain = true) (ok : Plan.ofModule m source = .ok plan) :
    m.InStep plan.bindings := by
  have faultless : ∀ r ∈ m.references plan.bindings, r.fault? = none :=
    fun r mem => (Plan.accepted_of_ok ok r mem).2
  have steady : ∀ t ∈ m.body, t.Steady plan.bindings := fun t mem =>
    have plainTree := Tree.arePlain_iff.mp plain t mem
    (t.steady_of_isPlain false plainTree).steady plainTree
  exact Tree.Steady.list steady faultless

end MockImport
