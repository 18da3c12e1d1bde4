import MockImport.Plan
import MockImport.Proofs.Patterns
import MockImport.Proofs.TreeInduction

/-!
When a module has a plan, and what the plan holds. Every reference goes back to a
binding of the module, so the processing order reaches all of them, and a module is
refused just when some reference is below the root or badly used.
-/

namespace MockImport

namespace Bindings

variable {bs : Bindings} {i : Nat}

theorem lt_of_named? {v : Variable} (found : bs.named? v = some i) : i < bs.length :=
  (List.findIdx?_eq_some_iff_getElem.mp found).1

theorem lt_of_member? {object property : Tree} (found : bs.member? object property = some i) :
    i < bs.length := by
  simp only [member?] at found
  split at found
  · split at found
    · exact (List.findIdx?_eq_some_iff_getElem.mp found).1
    · cases found
  · cases found

theorem lt_of_reference? {t : Tree} (found : bs.reference? t = some i) : i < bs.length := by
  simp only [reference?] at found
  split at found
  · exact lt_of_named? found
  · exact lt_of_member? found
  · cases found

theorem lt_of_callee? {t : Tree} (found : bs.callee? t = some i) : i < bs.length := by
  fun_induction callee? bs t with
  | case1 _ _ _ ih => exact ih found
  | case2 t _ => exact lt_of_reference? found

theorem lt_of_call? {t : Tree} {call : MockCall} (found : bs.call? t = some call) :
    call.binding < bs.length := by
  fun_induction call? bs t with
  | case1 _ _ _ ih => exact ih found
  | case2 _ _ callee _ _ =>
      obtain ⟨b, isCallee, rfl⟩ := Option.map_eq_some_iff.mp found
      exact lt_of_callee? isCallee
  | case3 => cases found

end Bindings

/-- An export list refers to a binding by a plain name only, and always badly. -/
theorem ExportSpecifier.mem_references {bs : Bindings} {c : Context} {s : ExportSpecifier}
    {r : Reference} (mem : r ∈ s.references bs c) :
    ∃ span subject exported typeOnly b, s = .named span (.ident subject) exported typeOnly ∧
      bs.named? subject.var = some b ∧ r = c.record b subject.span (.error span) := by
  simp only [references] at mem
  split at mem
  · split at mem
    · next found => exact ⟨_, _, _, _, _, rfl, found, List.mem_singleton.mp mem⟩
    · cases mem
  · cases mem

/-- The variables that a pattern declares. -/
def Pattern.aliases : Pattern → List Variable
  | .destructure pairs => pairs.map Prod.snd
  | .alias v => [v]
  | .member _ => []

/-- The variables that a call site declares. -/
def Site.aliases (site : Site) : List Variable := site.pattern.aliases

namespace Reference

/-- The variables that a well used reference declares. -/
def aliases (r : Reference) : List Variable :=
  match r.usage with
  | .ok (_, pattern) => pattern.aliases
  | .error _ => []

/-- The reference is to a binding that there is, and declares known names only. -/
structure Held (bs : Bindings) (known : List String) (r : Reference) : Prop where
  bound : r.binding < bs.length
  named : ∀ v ∈ r.aliases, v.name ∈ known

variable {bs : Bindings} {known : List String}

theorem held_error (c : Context) {b : Nat} (span at_ : Span) (bound : b < bs.length) :
    (c.record b span (.error at_)).Held bs known :=
  ⟨bound, List.forall_mem_nil _⟩

theorem held_usage (c : Context) {call : MockCall} (consumer : Span) {pattern : Option Pattern}
    (bound : call.binding < bs.length)
    (named : ∀ p, pattern = some p → ∀ v ∈ p.aliases, v.name ∈ known) :
    (c.record call.binding call.span (call.usage consumer pattern)).Held bs known := by
  obtain ⟨source, p, -, isPattern, usage⟩ | ⟨at_, -, usage⟩ := call.usage_cases consumer pattern
  · rw [usage]
    exact ⟨bound, named p isPattern⟩
  · rw [usage]
    exact held_error c call.span at_ bound

/-- A call whose result goes nowhere declares nothing. -/
theorem held_unconsumed (c : Context) (call : MockCall) (bound : call.binding < bs.length) :
    (c.unconsumed call).Held bs known :=
  held_usage c _ bound fun _ found => (Option.some_ne_none _ found.symm).elim

end Reference

namespace Tree

theorem aliases_of_propertyPattern? {t : Tree} {p : Pattern} (found : t.propertyPattern? = some p) :
    p.aliases = [] := by
  obtain ⟨_, _, -, rfl⟩ := propertyPattern?_eq_some_iff.mp found
  rfl

theorem name_of_destructuredPair? {t : Tree} {pair : String × Variable}
    (found : t.destructuredPair? = some pair) : pair.2.name ∈ names t := by
  obtain ⟨_, _, _, rfl, rfl⟩ | ⟨_, _, _, _, rfl, rfl⟩ :=
    destructuredPair?_eq_some_iff.mp found <;> exact List.mem_cons_self

/-- The aliases that a target declares are identifiers of the target. -/
theorem names_of_targetPattern? {t : Tree} {p : Pattern} (found : t.targetPattern? = some p) :
    ∀ v ∈ p.aliases, v.name ∈ names t := by
  intro v mem
  obtain ⟨_, _, rfl, rfl⟩ | ⟨_, properties, _, _, pairs, rfl, made, rfl⟩ :=
    targetPattern?_eq_some_iff.mp found
  · exact List.mem_singleton.mp mem ▸ List.mem_cons_self
  · obtain ⟨pair, isPair, rfl⟩ := List.mem_map.mp mem
    obtain ⟨property, isProperty, taken⟩ := mem_of_mapM_eq_some made isPair
    exact List.mem_append_left _
      ((mem_namesList _ _).mpr ⟨property, isProperty, name_of_destructuredPair? taken⟩)

/-- A tree holds the bindings and the aliases of its references. The second half is for
the arguments of a call that a declarator or a member access takes up. -/
structure HoldsReferences (bs : Bindings) (known : List String) (t : Tree) : Prop where
  all : ∀ c, ∀ r ∈ references bs c t, r.Held bs known
  arguments : ∀ c, ∀ r ∈ argReferences bs c t, r.Held bs known

variable {bs : Bindings} {known : List String}

namespace HoldsReferences

open Bindings Reference

attribute [local simp] references

theorem list {ts : List Tree} (held : ∀ t ∈ ts, HoldsReferences bs known t) (c : Context) :
    ∀ r ∈ referencesList bs c ts, r.Held bs known := by
  induction ts with
  | nil => exact List.forall_mem_nil _
  | cons t rest ih =>
      obtain ⟨here, later⟩ := List.forall_mem_cons.mp held
      rw [referencesList, List.forall_mem_append]
      exact ⟨here.all c, ih later⟩

theorem ident (id : Ident) : HoldsReferences bs known (.ident .expr id) := by
  refine ⟨fun c => ?_, fun _ => List.forall_mem_nil _⟩
  cases named : bs.named? id.var with
  | none => simp [named]
  | some b =>
      simp only [references, named, List.forall_mem_singleton]
      exact held_error c _ _ (lt_of_named? named)

theorem shorthand (id : Ident) : HoldsReferences bs known (.shorthand id) := by
  refine ⟨fun c => ?_, fun _ => List.forall_mem_nil _⟩
  cases named : bs.named? id.var with
  | none => simp [named]
  | some b =>
      simp only [references, named, List.forall_mem_singleton]
      exact held_error c _ _ (lt_of_named? named)

theorem paren {inner : Tree} (held : HoldsReferences bs known inner) (role : Role)
    (span : Span) : HoldsReferences bs known (.paren role span inner) := by
  refine ⟨fun c => ?_, held.arguments⟩
  cases role with
  | expr =>
      cases call : bs.call? inner with
      | none =>
          simp only [references, call]
          exact held.all _
      | some m =>
          simp only [references, call, List.forall_mem_cons]
          exact ⟨held_unconsumed c m (lt_of_call? call), held.arguments _⟩
  | _ => exact held.all _

theorem member {object property : Tree} (heldObject : HoldsReferences bs known object)
    (heldProperty : HoldsReferences bs known property) (role : Role) (span : Span) :
    HoldsReferences bs known (.member role span object property) := by
  refine ⟨fun c => ?_, fun _ => List.forall_mem_nil _⟩
  cases role with
  | expr =>
      cases star : bs.member? object property with
      | some b =>
          simp only [references, star, List.forall_mem_singleton]
          exact held_error c _ _ (lt_of_member? star)
      | none =>
          cases call : bs.call? object with
          | none =>
              simp only [references, star, call, List.forall_mem_append]
              exact ⟨heldObject.all _, heldProperty.all _⟩
          | some m =>
              simp only [references, star, call, List.forall_mem_append, List.forall_mem_cons]
              refine ⟨⟨held_usage c _ (lt_of_call? call) fun p found => ?_,
                heldObject.arguments _⟩, heldProperty.all _⟩
              rw [aliases_of_propertyPattern? found]
              exact List.forall_mem_nil _
  | _ =>
      simp only [references, List.forall_mem_append]
      exact ⟨heldObject.all _, heldProperty.all _⟩

theorem call {callee typeArgs : Tree} {args : List Tree}
    (heldCallee : HoldsReferences bs known callee)
    (heldArgs : ∀ t ∈ args, HoldsReferences bs known t)
    (heldType : HoldsReferences bs known typeArgs) (span : Span) (ctxt : Nat) :
    HoldsReferences bs known (.call span ctxt callee args typeArgs) := by
  refine ⟨fun c => ?_, list heldArgs⟩
  cases isCallee : bs.callee? callee with
  | none =>
      simp only [references, isCallee, List.forall_mem_append]
      exact ⟨⟨heldCallee.all _, list heldArgs _⟩, heldType.all _⟩
  | some b =>
      simp only [references, isCallee, List.forall_mem_cons]
      exact ⟨held_unconsumed c ⟨b, span, args⟩ (lt_of_callee? isCallee), list heldArgs _⟩

theorem declarator {target init : Tree} (within : ∀ n ∈ names target, n ∈ known)
    (heldTarget : HoldsReferences bs known target) (heldInit : HoldsReferences bs known init)
    (span : Span) (definite : Bool) :
    HoldsReferences bs known (.declarator span target init definite) := by
  refine ⟨fun c => ?_, fun _ => List.forall_mem_nil _⟩
  cases call : bs.call? init with
  | none =>
      simp only [references, call, List.forall_mem_append]
      exact ⟨heldTarget.all _, heldInit.all _⟩
  | some m =>
      simp only [references, call, List.forall_mem_cons, List.forall_mem_append]
      have named (p : Pattern) (found : target.targetPattern? = some p) :
          ∀ v ∈ p.aliases, v.name ∈ known :=
        fun v mem => within _ (names_of_targetPattern? found v mem)
      exact ⟨held_usage c _ (lt_of_call? call) named, heldTarget.all _, heldInit.arguments _⟩

theorem exportNamed (span : Span) (specifiers : List ExportSpecifier)
    (source : Option StringLiteral) (typeOnly : Bool) (attributes : Tree) :
    HoldsReferences bs known (.exportNamed span specifiers source typeOnly attributes) := by
  refine ⟨fun c r mem => ?_, fun _ => List.forall_mem_nil _⟩
  simp only [references] at mem
  split at mem
  · cases mem
  · obtain ⟨s, -, mem⟩ := List.mem_flatMap.mp mem
    obtain ⟨_, _, _, _, b, -, found, rfl⟩ := ExportSpecifier.mem_references mem
    exact held_error c _ _ (lt_of_named? found)

end HoldsReferences

open List in
theorem holdsReferences (t : Tree) (within : ∀ n ∈ names t, n ∈ known) :
    HoldsReferences bs known t := by
  have nothing (c : Context) : ∀ r ∈ ([] : List Reference), r.Held bs known :=
    List.forall_mem_nil _
  have each {ts : List Tree} (within : ∀ n ∈ namesList ts, n ∈ known)
      (ih : ∀ t ∈ ts, (∀ n ∈ names t, n ∈ known) → HoldsReferences bs known t) :
      ∀ t ∈ ts, HoldsReferences bs known t :=
    fun t mem => ih t mem fun n isName => within n ((mem_namesList n ts).mpr ⟨t, mem, isName⟩)
  have list {ts : List Tree} (within : ∀ n ∈ namesList ts, n ∈ known)
      (ih : ∀ t ∈ ts, (∀ n ∈ names t, n ∈ known) → HoldsReferences bs known t) (c : Context) :
      ∀ r ∈ referencesList bs c ts, r.Held bs known :=
    HoldsReferences.list (each within ih) c
  induction t with
  | absent | leaf _ | context _ | name _ _ | string _ => exact ⟨nothing, nothing⟩
  | ident role id =>
      cases role with
      | expr => exact .ident id
      | _ => exact ⟨nothing, nothing⟩
  | shorthand id => exact .shorthand id
  | items trees ih => exact ⟨list within ih, nothing⟩
  | binding id _ ih => exact ⟨(ih (forall_mem_cons.mp within).2).all, nothing⟩
  | arg _ _ ih => exact ⟨(ih within).all, nothing⟩
  | exportDecl span _ ih => exact ⟨fun c => (ih within).all (c.within span), nothing⟩
  | importDecl span _ _ _ _ _ ih =>
      exact ⟨fun c => (ih (forall_mem_append.mp within).2).all (c.within span), nothing⟩
  | exportNamed span specifiers source typeOnly attributes _ =>
      exact .exportNamed span specifiers source typeOnly attributes
  | paren role span _ ih => exact (ih within).paren role span
  | member role span _ _ ihObject ihProperty =>
      obtain ⟨ofObject, ofProperty⟩ := forall_mem_append.mp within
      exact (ihObject ofObject).member (ihProperty ofProperty) role span
  | call span ctxt _ args _ ihCallee ihArgs ihType =>
      simp only [names, forall_mem_append] at within
      obtain ⟨⟨ofCallee, ofArgs⟩, ofType⟩ := within
      exact (ihCallee ofCallee).call (each ofArgs ihArgs) (ihType ofType) span ctxt
  | declaration _ _ _ _ _ ts ih => exact ⟨fun c => list within ih _, nothing⟩
  | declarator span _ _ definite ihTarget ihInit =>
      obtain ⟨ofTarget, ofInit⟩ := forall_mem_append.mp within
      exact .declarator ofTarget (ihTarget ofTarget) (ihInit ofInit) span definite
  | objectPattern _ properties _ _ ihProperties ihType =>
      refine ⟨fun c => ?_, nothing⟩
      obtain ⟨ofProperties, ofType⟩ := forall_mem_append.mp within
      simp only [references, forall_mem_append]
      exact ⟨list ofProperties ihProperties c, (ihType ofType).all c⟩
  | patternShorthand _ _ _ _ ihType ihValue =>
      refine ⟨fun c => ?_, nothing⟩
      obtain ⟨ofType, ofValue⟩ := forall_mem_append.mp (forall_mem_cons.mp within).2
      simp only [references, forall_mem_append]
      exact ⟨(ihType ofType).all _, (ihValue ofValue).all _⟩
  | patternPair _ _ ihKey ihValue | pair _ _ ihKey ihValue =>
      refine ⟨fun c => ?_, nothing⟩
      obtain ⟨ofKey, ofValue⟩ := forall_mem_append.mp within
      simp only [references, forall_mem_append]
      exact ⟨(ihKey ofKey).all _, (ihValue ofValue).all _⟩
  | getter span _ _ _ ihKey _ ihBody =>
      refine ⟨fun c => ?_, nothing⟩
      simp only [names, forall_mem_append] at within
      simp only [references, forall_mem_append]
      exact ⟨(ihKey within.1.1).all _, (ihBody within.2).all _⟩
  | scope _ _ _ outer inner ihOuter ihInner =>
      refine ⟨fun c => ?_, nothing⟩
      obtain ⟨ofOuter, ofInner⟩ := forall_mem_append.mp within
      simp only [references, forall_mem_append]
      exact ⟨list ofOuter ihOuter _, list ofInner ihInner _⟩
  | moduleBlock _ body ih => exact ⟨fun c => list within ih _, nothing⟩
  | node _ _ _ fields ih => exact ⟨fun c => list within ih _, nothing⟩

end Tree

/-- The reference stands at the root and is well used. -/
def Reference.Accepted (r : Reference) : Prop := r.atRoot = true ∧ r.fault? = none

namespace Reference

/-- The site of a reference is that of its call and what takes the result up. -/
theorem site?_record_usage (c : Context) (call : MockCall) (consumer : Span)
    (pattern : Option Pattern) :
    (c.record call.binding call.span (call.usage consumer pattern)).site? =
      call.specifier?.bind fun source => pattern.map fun p => ⟨call.binding, source, p⟩ := by
  obtain ⟨source, p, names, rfl, usage⟩ | ⟨_, unnamed | rfl, usage⟩ :=
    call.usage_cases consumer pattern
  · rw [usage, names]
    rfl
  · rw [usage, unnamed]
    rfl
  · rw [usage]
    cases call.specifier? <;> rfl

theorem fault?_unconsumed (c : Context) (call : MockCall) :
    (c.unconsumed call).fault? ≠ none := by
  obtain ⟨_, _, -, isPattern, -⟩ | ⟨at_, -, usage⟩ := call.usage_cases (c.cited call.span) none
  · cases isPattern
  · rw [Context.unconsumed, usage]
    exact Option.some_ne_none at_

theorem site?_isSome {r : Reference} (accepted : r.Accepted) : r.site?.isSome := by
  obtain ⟨b, span, atRoot, usage⟩ := r
  cases usage with
  | ok taken => rfl
  | error span => cases accepted.2

theorem map_site? {rs : List Reference} (accepted : ∀ r ∈ rs, r.Accepted) :
    rs.map site? = (rs.filterMap site?).map some := by
  induction rs with
  | nil => rfl
  | cons r rest ih =>
      obtain ⟨site, isSite⟩ := Option.isSome_iff_exists.mp
        (site?_isSome (accepted r List.mem_cons_self))
      rw [List.map_cons, List.filterMap_cons_some isSite, List.map_cons, isSite,
        ih fun s mem => accepted s (List.mem_cons_of_mem r mem)]

end Reference

namespace Module

theorem references_held (m : Module) (bs : Bindings) :
    ∀ r ∈ m.references bs, r.Held bs m.names :=
  (Tree.holdsReferences (.items m.body) fun _ => id).all .root

theorem references_bindings (m : Module) (bs : Bindings) :
    ∀ r ∈ m.references bs, r.binding < bs.length :=
  fun r mem => (m.references_held bs r mem).bound

theorem references_nil (m : Module) : m.references [] = [] :=
  List.eq_nil_iff_forall_not_mem.mpr fun r mem =>
    Nat.not_lt_zero _ (m.references_bindings [] r mem)

end Module

namespace Plan

variable {m : Module} {source : Option String} {plan : Plan}

theorem mem_processingOrder {bindings : Bindings} {refs : List Reference}
    (bound : ∀ r ∈ refs, r.binding < bindings.length) (i : Nat) :
    i ∈ processingOrder bindings refs ↔ i < refs.length := by
  simp only [processingOrder, List.mem_flatMap, List.mem_filter, List.mem_range,
    decide_eq_true_eq]
  constructor
  · rintro ⟨b, -, within, -⟩
    exact within
  · intro within
    exact ⟨refs[i].binding, bound _ (List.getElem_mem within), within,
      by rw [List.getElem?_eq_getElem within]; rfl⟩

theorem failure?_eq_none_iff (source : Option String) {refs : List Reference}
    {order : List Nat} (all : ∀ i, i ∈ order ↔ i < refs.length) :
    failure? source refs order = none ↔ ∀ r ∈ refs, r.Accepted := by
  have used : (∀ i ∈ order, refs[i]?.bind Reference.fault? = none) ↔
      ∀ r ∈ refs, r.fault? = none := by
    constructor
    · intro fine r mem
      obtain ⟨i, within, rfl⟩ := List.getElem_of_mem mem
      have noFault := fine i ((all i).mpr within)
      rwa [List.getElem?_eq_getElem within] at noFault
    · intro fine i mem
      have within := (all i).mp mem
      rw [List.getElem?_eq_getElem within]
      exact fine _ (List.getElem_mem within)
  simp only [failure?]
  cases below : refs.find? (!·.atRoot) with
  | some r =>
      refine iff_of_false (Option.some_ne_none _) fun accepted => ?_
      have root := (accepted r (List.mem_of_find?_eq_some below)).1
      have notRoot := List.find?_some below
      simp only [root, Bool.not_true] at notRoot
      cases notRoot
  | none =>
      have root : ∀ r ∈ refs, r.atRoot = true := by
        simpa using below
      simp only [Option.map_eq_none_iff, List.findSome?_eq_none_iff, used]
      exact ⟨fun fine r mem => ⟨root r mem, fine r mem⟩,
        fun accepted r mem => (accepted r mem).2⟩

/-- The plan of a module in which every reference is accepted. -/
def drawn (m : Module) : Plan :=
  let bindings := Bindings.discover m.body
  let refs := m.references bindings
  let sites := refs.filterMap Reference.site?
  ⟨bindings, sites, processingOrder bindings refs, if sites.isEmpty then [] else m.names⟩

/-- A module has a plan just when every reference is accepted. -/
theorem ofModule_eq_ok_iff :
    ofModule m source = .ok plan ↔
      (∀ r ∈ m.references (.discover m.body), r.Accepted) ∧ plan = drawn m := by
  simp only [ofModule]
  cases bindings : Bindings.discover m.body with
  | nil =>
      have nothing : drawn m = empty := by
        simp only [drawn, bindings, m.references_nil]
        rfl
      simp only [List.isEmpty_nil, if_true, m.references_nil, nothing, Except.ok.injEq]
      exact ⟨fun same => ⟨List.forall_mem_nil _, same.symm⟩, fun both => both.2.symm⟩
  | cons b rest =>
      have all := mem_processingOrder (m.references_bindings (b :: rest))
      rw [← failure?_eq_none_iff source all]
      simp only [List.isEmpty_cons, Bool.false_eq_true, if_false]
      cases failure? source (m.references (b :: rest))
          (processingOrder (b :: rest) (m.references (b :: rest))) with
      | some failure =>
          exact iff_of_false (by rintro ⟨⟩) fun both => Option.some_ne_none _ both.1
      | none =>
          simp only [drawn, bindings, Except.ok.injEq, true_and]
          exact eq_comm

section

variable (ok : ofModule m source = .ok plan)
include ok

theorem accepted_of_ok : ∀ r ∈ m.references plan.bindings, r.Accepted := by
  obtain ⟨accepted, rfl⟩ := ofModule_eq_ok_iff.mp ok
  exact accepted

theorem sites_of_ok :
    (m.references plan.bindings).map Reference.site? = plan.sites.map some := by
  obtain ⟨accepted, rfl⟩ := ofModule_eq_ok_iff.mp ok
  exact Reference.map_site? accepted

theorem mem_order_of_ok (i : Nat) : i ∈ plan.order ↔ i < plan.sites.length := by
  have length := congrArg List.length (sites_of_ok ok)
  rw [List.length_map, List.length_map] at length
  obtain ⟨-, rfl⟩ := ofModule_eq_ok_iff.mp ok
  rw [← length]
  exact mem_processingOrder (m.references_bindings _) i

theorem names_of_ok {site : Site} (mem : site ∈ plan.sites) :
    ∀ v ∈ site.aliases, v.name ∈ m.names := by
  obtain ⟨-, rfl⟩ := ofModule_eq_ok_iff.mp ok
  obtain ⟨r, isReference, made⟩ := List.mem_filterMap.mp mem
  have held := m.references_held _ r isReference
  obtain ⟨b, span, atRoot, usage⟩ := r
  cases usage with
  | ok taken =>
      obtain rfl := Option.some.inj made
      exact held.named
  | error at_ => cases made

theorem taken_of_ok (sites : plan.sites ≠ []) : plan.taken = m.names := by
  obtain ⟨-, rfl⟩ := ofModule_eq_ok_iff.mp ok
  exact if_neg fun empty => sites (List.isEmpty_iff.mp empty)

end

end Plan

namespace Sample

def ident (name : String) : Tree := .ident .expr (.generated ⟨name, 2⟩)

/-- `import { mock } from "@userlike/joke"` -/
def importMock : Tree :=
  .importDecl .generated [.named .generated (.generated ⟨mockName, 2⟩) none false]
    (.generated mockModule) false .absent "evaluation"

/-- `mock(import("specifier"))` -/
def mocked (specifier : String) : Tree :=
  .call .generated 0 (ident mockName)
    [.arg none (.call .generated 0
      (.node .plain .importKeyword .generated [.leaf (.text "evaluation")])
      [.arg none (.string (.generated specifier))] .absent)] .absent

/-- `mock(import("specifier")).property` -/
def access (specifier property : String) : Tree :=
  .member .expr .generated (mocked specifier) (.name .generated property)

def statement (expression : Tree) : Tree :=
  .node .stmt .expressionStatement .generated [expression]

/-- `const target = init` -/
def const (target init : Tree) : Tree :=
  .variables .stmt .generated 0 "const" false [.declarator .generated target init false]

/-- A module with a call site of every kind, and uses of what they declare:
`const { a, b: c } = mock(import("m")); const n = mock(import("n"));`
`mock(import("m")).a; f(a, c, n);` -/
def plain : Module :=
  ⟨.generated, [importMock,
    const (.objectPattern .generated
      [.patternShorthand .generated (.generated ⟨"a", 2⟩) .absent .absent,
        .patternPair (.name .generated "b") (.binding (.generated ⟨"c", 2⟩) .absent)]
      false .absent) (mocked "m"),
    const (.binding (.generated ⟨"n", 2⟩) .absent) (mocked "n"),
    statement (access "m" "a"),
    statement (.call .generated 0 (ident "f")
      [.arg none (ident "a"), .arg none (ident "c"), .arg none (ident "n")] .absent)], none⟩

theorem plan_plain : Plan.ofModule plain none = .ok (.drawn plain) := rfl

end Sample

end MockImport
