import MockImport.Proofs.OwnActions
import MockImport.Proofs.Planning

/-!
Where call sites stand, and which of the two traversals come there: the one that plans
an expansion and the one that settles its call sites. They part in few places only: in
the type of a getter, in the attributes of an export list, and in the target and the
arguments of a call site.
-/

namespace MockImport

/-- A call site in a tree, and whether planning and settling come to it. -/
structure SitePlace where
  site : Option Site
  planned : Bool
  settled : Bool

namespace SitePlace

/-- Below a node that only planning enters. -/
def planOnly (p : SitePlace) : SitePlace := { p with settled := false }

/-- Below a node that only settling enters. -/
def settleOnly (p : SitePlace) : SitePlace := { p with planned := false }

def plannedSite? (p : SitePlace) : Option (Option Site) :=
  if p.planned then some p.site else none

def settledSite? (p : SitePlace) : Option (Option Site) :=
  if p.settled then some p.site else none

/-- The sites that planning comes to. -/
def plannedSites (ps : List SitePlace) : List (Option Site) := ps.filterMap plannedSite?

/-- The sites that settling comes to. -/
def settledSites (ps : List SitePlace) : List (Option Site) := ps.filterMap settledSite?

end SitePlace

namespace Tree

variable (bs : Bindings)

mutual

/-- The places of call sites below a node, in traversal order. -/
def sitePlaces : Tree → List SitePlace
  | .absent | .leaf _ | .context _ | .name _ _ | .string _ | .ident _ _ | .shorthand _ => []
  | .items trees => sitePlacesList trees
  | .binding _ typing => sitePlaces typing
  | .paren _ _ inner => sitePlaces inner
  | .member role _ object property =>
      if role = .expr ∧ (bs.call? object).isSome then
        ⟨bs.accessedSite? object property, true, true⟩ ::
          (argumentPlaces object ++ sitePlaces property).map .planOnly
      else sitePlaces object ++ sitePlaces property
  | .call _ _ callee args typeArgs =>
      sitePlaces callee ++ sitePlacesList args ++ sitePlaces typeArgs
  | .arg _ value => sitePlaces value
  | .variables _ _ _ _ _ declarators => declaratorPlaces declarators
  -- Outside a variable declaration settling takes a declarator for no call site.
  | .declarator span target init definite =>
      if (bs.call? init).isSome then
        ⟨bs.declaredSite? (.declarator span target init definite), true, false⟩ ::
          (sitePlaces target ++ (argumentPlaces init).map .planOnly ++
            (sitePlaces init).map .settleOnly)
      else sitePlaces target ++ sitePlaces init
  | .objectPattern _ properties _ typing => sitePlacesList properties ++ sitePlaces typing
  | .patternShorthand _ _ typing value => sitePlaces typing ++ sitePlaces value
  | .patternPair key value | .pair key value => sitePlaces key ++ sitePlaces value
  | .getter _ key typing body =>
      sitePlaces key ++ (sitePlaces typing).map .settleOnly ++ sitePlaces body
  | .importDecl _ _ _ _ attributes _ => sitePlaces attributes
  | .exportNamed _ _ _ _ attributes => (sitePlaces attributes).map .settleOnly
  | .exportDecl _ declaration => sitePlaces declaration
  | .scope _ _ _ outer inner => sitePlacesList outer ++ sitePlacesList inner
  | .moduleBlock _ body => sitePlacesList body
  | .node _ _ _ fields => sitePlacesList fields

def sitePlacesList : List Tree → List SitePlace
  | [] => []
  | t :: rest => sitePlaces t ++ sitePlacesList rest

/-- The places in the declarators of a variable declaration. -/
def declaratorPlaces : List Tree → List SitePlace
  | [] => []
  | .declarator span target init definite :: rest =>
      (if (bs.call? init).isSome then
        ⟨bs.declaredSite? (.declarator span target init definite), true, true⟩ ::
          (sitePlaces target ++ argumentPlaces init).map .planOnly
      else sitePlaces target ++ sitePlaces init) ++ declaratorPlaces rest
  | t :: rest => sitePlaces t ++ declaratorPlaces rest

/-- The places in the arguments of the call that a parenthesised call is. -/
def argumentPlaces : Tree → List SitePlace
  | .paren _ _ inner => argumentPlaces inner
  | .call _ _ _ args _ => sitePlacesList args
  | _ => []

end

end Tree

/-- The places of call sites in a module. -/
def Module.sitePlaces (m : Module) (bs : Bindings) : List SitePlace :=
  Tree.sitePlacesList bs m.body

namespace SitePlace

theorem plannedSites_cons (site : Option Site) (settled : Bool) (ps : List SitePlace) :
    plannedSites (⟨site, true, settled⟩ :: ps) = site :: plannedSites ps := rfl

theorem settledSites_cons (site : Option Site) (planned : Bool) (ps : List SitePlace) :
    settledSites (⟨site, planned, true⟩ :: ps) = site :: settledSites ps := rfl

theorem settledSites_cons_unsettled (site : Option Site) (planned : Bool)
    (ps : List SitePlace) :
    settledSites (⟨site, planned, false⟩ :: ps) = settledSites ps := rfl

theorem plannedSites_append (ps qs : List SitePlace) :
    plannedSites (ps ++ qs) = plannedSites ps ++ plannedSites qs :=
  List.filterMap_append

theorem settledSites_append (ps qs : List SitePlace) :
    settledSites (ps ++ qs) = settledSites ps ++ settledSites qs :=
  List.filterMap_append

theorem plannedSites_planOnly (ps : List SitePlace) :
    plannedSites (ps.map planOnly) = plannedSites ps :=
  List.filterMap_map

theorem settledSites_planOnly (ps : List SitePlace) : settledSites (ps.map planOnly) = [] := by
  rw [settledSites, List.filterMap_map, List.filterMap_eq_nil_iff]
  exact fun _ _ => rfl

theorem plannedSites_settleOnly (ps : List SitePlace) :
    plannedSites (ps.map settleOnly) = [] := by
  rw [plannedSites, List.filterMap_map, List.filterMap_eq_nil_iff]
  exact fun _ _ => rfl

theorem settledSites_settleOnly (ps : List SitePlace) :
    settledSites (ps.map settleOnly) = settledSites ps :=
  List.filterMap_map

end SitePlace

namespace Tree

open SitePlace

variable (bs : Bindings)

/-- A declarator whose initial value is a mock call, and any other one. -/
theorem declaratorPlaces_cons (t : Tree) (rest : List Tree) :
    (∃ span target init definite, t = .declarator span target init definite ∧
      (bs.call? init).isSome ∧ declaratorPlaces bs (t :: rest) =
        ⟨bs.declaredSite? t, true, true⟩ ::
          (sitePlaces bs target ++ argumentPlaces bs init).map .planOnly ++
            declaratorPlaces bs rest) ∨
    t.isDeclaratorSite bs = false ∧
      declaratorPlaces bs (t :: rest) = sitePlaces bs t ++ declaratorPlaces bs rest := by
  cases t with
  | declarator span target init definite =>
      cases site : (bs.call? init).isSome with
      | true =>
          refine .inl ⟨span, target, init, definite, rfl, site, ?_⟩
          simp only [declaratorPlaces, site, if_true]
      | false =>
          refine .inr ⟨site, ?_⟩
          simp only [declaratorPlaces, sitePlaces, site, Bool.false_eq_true, if_false]
  | _ => exact .inr ⟨rfl, rfl⟩

/-- Planning comes to a declarator the same way wherever the declarator stands. -/
theorem plannedSites_declaratorPlaces (ts : List Tree) :
    plannedSites (declaratorPlaces bs ts) = plannedSites (sitePlacesList bs ts) := by
  induction ts with
  | nil => rfl
  | cons t rest ih =>
      obtain ⟨span, target, init, definite, rfl, site, places⟩ | ⟨-, places⟩ :=
        declaratorPlaces_cons bs t rest
      · simp only [places, sitePlacesList, sitePlaces, site, if_true, List.cons_append,
          List.map_append, plannedSites_cons, plannedSites_append, plannedSites_planOnly,
          plannedSites_settleOnly, ih, List.append_assoc, List.nil_append]
      · rw [places, sitePlacesList, plannedSites_append, plannedSites_append, ih]

theorem settledSites_sitePlacesList {ts : List Tree}
    (each : ∀ t ∈ ts, settledSites (sitePlaces bs t) = met bs t) :
    settledSites (sitePlacesList bs ts) = metList bs ts := by
  induction ts with
  | nil => rfl
  | cons t rest ih =>
      obtain ⟨here, later⟩ := List.forall_mem_cons.mp each
      rw [sitePlacesList, settledSites_append, here, ih later, ← metList_cons]

theorem settledSites_declaratorPlaces {ts : List Tree}
    (each : ∀ t ∈ ts, settledSites (sitePlaces bs t) = met bs t) :
    settledSites (declaratorPlaces bs ts) = (slotsDeclarators bs ts).filterMap Slot.site? := by
  induction ts with
  | nil => rfl
  | cons t rest ih =>
      obtain ⟨here, later⟩ := List.forall_mem_cons.mp each
      obtain ⟨span, target, init, definite, rfl, site, places⟩ | ⟨other, places⟩ :=
        declaratorPlaces_cons bs t rest
      · simp only [places, slotsDeclarators, isDeclaratorSite, site, if_true,
          List.cons_append, settledSites_cons, settledSites_append, settledSites_planOnly,
          List.nil_append, ih later]
        rfl
      · simp only [places, slotsDeclarators, other, Bool.false_eq_true, if_false,
          settledSites_append, here, ih later, List.filterMap_append]
        rfl

theorem settledSites_sitePlaces (t : Tree) : settledSites (sitePlaces bs t) = met bs t := by
  induction t with
  | absent | leaf _ | context _ | name _ _ | string _ | ident _ _ | shorthand _ => rfl
  | items trees ih => exact settledSites_sitePlacesList bs ih
  | binding _ _ ih | paren _ _ _ ih | arg _ _ ih | exportDecl _ _ ih => exact ih
  | member role _ object property ihObject ihProperty =>
      by_cases site : role = .expr ∧ (bs.call? object).isSome
      · simp only [met, sitePlaces, slots, site, and_self, if_true, settledSites_cons,
          settledSites_planOnly]
        rfl
      · simp only [met, sitePlaces, slots, site, if_false, settledSites_append, ihObject,
          ihProperty, List.filterMap_append]
  | call _ _ _ args _ ihCallee ihArgs ihType =>
      simp only [met, sitePlaces, slots, settledSites_append, ihCallee,
        settledSites_sitePlacesList bs ihArgs, ihType, List.filterMap_append, metList]
  | declaration _ _ _ _ _ ts ih => exact settledSites_declaratorPlaces bs ih
  | declarator span target init definite ihTarget ihInit =>
      by_cases site : (bs.call? init).isSome
      · simp only [met, sitePlaces, slots, site, if_true, settledSites_cons_unsettled,
          settledSites_append, settledSites_planOnly, settledSites_settleOnly, ihTarget, ihInit,
          Slot.filterMap_site?_mark, List.filterMap_append, List.append_nil]
      · simp only [met, sitePlaces, slots, site, Bool.false_eq_true, if_false,
          settledSites_append, ihTarget, ihInit, Slot.filterMap_site?_mark,
          List.filterMap_append]
  | objectPattern _ properties _ _ ihProperties ihType =>
      simp only [met, sitePlaces, slots, settledSites_append,
        settledSites_sitePlacesList bs ihProperties, ihType, List.filterMap_append, metList]
  | patternShorthand _ _ _ _ ihType ihValue =>
      simp only [met, sitePlaces, slots, settledSites_append, ihType, ihValue,
        Slot.filterMap_site?_mark, List.filterMap_append]
  | patternPair _ _ ihKey ihValue | pair _ _ ihKey ihValue =>
      simp only [met, sitePlaces, slots, settledSites_append, ihKey, ihValue,
        List.filterMap_append]
  | getter _ _ _ _ ihKey ihType ihBody =>
      simp only [met, sitePlaces, slots, settledSites_append, settledSites_settleOnly, ihKey,
        ihType, ihBody, List.filterMap_append]
  | importDecl _ _ _ _ _ _ ih =>
      simp only [met, sitePlaces, slots, ih, List.filterMap_append, Slot.filterMap_site?_marks,
        List.nil_append]
  | exportNamed _ _ source _ _ ih =>
      cases source <;> simp only [met, sitePlaces, slots, settledSites_settleOnly, ih,
        List.filterMap_append, Slot.filterMap_site?_marks, Slot.filterMap_site?_outward,
        List.nil_append]
  | scope _ _ _ outer inner ihOuter ihInner =>
      simp only [met, sitePlaces, slots, settledSites_append,
        settledSites_sitePlacesList bs ihOuter, settledSites_sitePlacesList bs ihInner,
        List.filterMap_append, metList]
  | moduleBlock _ body ih => exact settledSites_sitePlacesList bs ih
  | node _ _ _ fields ih => exact settledSites_sitePlacesList bs ih

end Tree

/-- If the references are well used, their sites are those planned at the places. -/
def SitePlace.PlannedFrom (rs : List Reference) (ps : List SitePlace) : Prop :=
  (∀ r ∈ rs, r.fault? = none) → rs.map Reference.site? = plannedSites ps

namespace SitePlace.PlannedFrom

variable {rs ss : List Reference} {ps qs : List SitePlace} {r : Reference} {bs : Bindings}

theorem nil : PlannedFrom [] [] := fun _ => rfl

theorem append (first : PlannedFrom rs ps) (second : PlannedFrom ss qs) :
    PlannedFrom (rs ++ ss) (ps ++ qs) := by
  intro faultless
  obtain ⟨early, late⟩ := List.forall_mem_append.mp faultless
  rw [List.map_append, plannedSites_append, first early, second late]

theorem planOnly (planned : PlannedFrom rs ps) : PlannedFrom rs (ps.map planOnly) := by
  intro faultless
  rw [plannedSites_planOnly, planned faultless]

theorem appendSettleOnly (planned : PlannedFrom rs ps) (qs : List SitePlace) :
    PlannedFrom rs (ps ++ qs.map settleOnly) := by
  intro faultless
  rw [plannedSites_append, plannedSites_settleOnly, List.append_nil, planned faultless]

theorem of_fault (fault : r.fault? ≠ none) : PlannedFrom (r :: rs) ps :=
  fun faultless => absurd (faultless r List.mem_cons_self) fault

theorem of_faults (faults : ∀ r ∈ rs, r.fault? ≠ none) (qs : List SitePlace) :
    PlannedFrom rs (qs.map settleOnly) := by
  cases rs with
  | nil => exact appendSettleOnly nil qs
  | cons r rest => exact of_fault (faults r List.mem_cons_self)

theorem cons (c : Context) (call : MockCall) (consumer : Span) (pattern : Option Pattern)
    (settled : Bool) (planned : PlannedFrom rs ps) :
    PlannedFrom (c.record call.binding call.span (call.usage consumer pattern) :: rs)
      (⟨call.site? pattern, true, settled⟩ :: ps) := by
  intro faultless
  rw [List.map_cons, plannedSites_cons, Reference.site?_record_usage,
    planned (List.forall_mem_cons.mp faultless).2]
  rfl

end SitePlace.PlannedFrom

namespace Tree

open SitePlace SitePlace.PlannedFrom

variable (bs : Bindings)

/-- Planning comes to the sites that it records. The second half is for the arguments of
a call that a declarator or a member access takes up. -/
structure Planned (bs : Bindings) (t : Tree) : Prop where
  all : ∀ c, PlannedFrom (references bs c t) (sitePlaces bs t)
  arguments : ∀ c, PlannedFrom (argReferences bs c t) (argumentPlaces bs t)

namespace Planned

variable {bs : Bindings}

theorem list {ts : List Tree} (planned : ∀ t ∈ ts, Planned bs t) (c : Context) :
    PlannedFrom (referencesList bs c ts) (sitePlacesList bs ts) := by
  induction ts with
  | nil => exact nil
  | cons t rest ih =>
      obtain ⟨here, later⟩ := List.forall_mem_cons.mp planned
      exact (here.all c).append (ih later)

theorem ident (id : Ident) : Planned bs (.ident .expr id) := by
  refine ⟨fun c => ?_, fun _ => nil⟩
  cases named : bs.named? id.var with
  | none =>
      simp only [references, named]
      exact nil
  | some b =>
      simp only [references, named]
      exact of_fault (Option.some_ne_none _)

theorem shorthand (id : Ident) : Planned bs (.shorthand id) := by
  refine ⟨fun c => ?_, fun _ => nil⟩
  cases named : bs.named? id.var with
  | none =>
      simp only [references, named]
      exact nil
  | some b =>
      simp only [references, named]
      exact of_fault (Option.some_ne_none _)

theorem paren {inner : Tree} (planned : Planned bs inner) (role : Role) (span : Span) :
    Planned bs (.paren role span inner) := by
  refine ⟨fun c => ?_, planned.arguments⟩
  cases role with
  | expr =>
      cases call : bs.call? inner with
      | none =>
          simp only [references, call]
          exact planned.all _
      | some m =>
          simp only [references, call]
          exact of_fault (Reference.fault?_unconsumed c m)
  | _ => exact planned.all _

theorem member {object property : Tree} (plannedObject : Planned bs object)
    (plannedProperty : Planned bs property) (role : Role) (span : Span) :
    Planned bs (.member role span object property) := by
  refine ⟨fun c => ?_, fun _ => nil⟩
  have apart (d : Context) : PlannedFrom (references bs d object ++ references bs d property)
      (sitePlaces bs object ++ sitePlaces bs property) :=
    (plannedObject.all d).append (plannedProperty.all d)
  cases role with
  | expr =>
      cases star : bs.member? object property with
      | some b =>
          simp only [references, star]
          exact of_fault (Option.some_ne_none _)
      | none =>
          cases call : bs.call? object with
          | none =>
              simp only [references, sitePlaces, star, call, Option.isSome_none,
                Bool.false_eq_true, and_false, if_false]
              exact apart _
          | some m =>
              simp only [references, sitePlaces, star, call, Option.isSome_some,
                and_self, if_true, Bindings.accessedSite?, Option.bind_some]
              have below := (plannedObject.arguments (c.within m.span)).append
                (plannedProperty.all (c.within span))
              exact .cons c m span _ true below.planOnly
  | _ => exact apart _

theorem call {callee typeArgs : Tree} {args : List Tree} (plannedCallee : Planned bs callee)
    (plannedArgs : ∀ t ∈ args, Planned bs t) (plannedType : Planned bs typeArgs) (span : Span)
    (ctxt : Nat) : Planned bs (.call span ctxt callee args typeArgs) := by
  refine ⟨fun c => ?_, list plannedArgs⟩
  cases isCallee : bs.callee? callee with
  | none =>
      simp only [references, isCallee]
      exact ((plannedCallee.all _).append (list plannedArgs _)).append (plannedType.all _)
  | some b =>
      simp only [references, isCallee]
      exact of_fault (Reference.fault?_unconsumed c _)

theorem declarator {target init : Tree} (plannedTarget : Planned bs target)
    (plannedInit : Planned bs init) (span : Span) (definite : Bool) :
    Planned bs (.declarator span target init definite) := by
  refine ⟨fun c => ?_, fun _ => nil⟩
  cases call : bs.call? init with
  | none =>
      simp only [references, sitePlaces, call, Option.isSome_none, Bool.false_eq_true, if_false]
      exact (plannedTarget.all _).append (plannedInit.all _)
  | some m =>
      simp only [references, sitePlaces, call, Option.isSome_some, if_true,
        Bindings.declaredSite?, Option.bind_some]
      have below := (plannedTarget.all (c.within span)).append
        (plannedInit.arguments (c.within m.span)).planOnly
      exact .cons c m span _ false (below.appendSettleOnly _)

/-- Planning takes no call site from an export list. -/
theorem exportNamed (span : Span) (specifiers : List ExportSpecifier)
    (source : Option StringLiteral) (typeOnly : Bool) (attributes : Tree) :
    Planned bs (.exportNamed span specifiers source typeOnly attributes) := by
  refine ⟨fun c => of_faults (fun r mem => ?_) _, fun _ => nil⟩
  simp only [references] at mem
  split at mem
  · cases mem
  · obtain ⟨s, -, mem⟩ := List.mem_flatMap.mp mem
    obtain ⟨_, _, _, _, _, -, -, rfl⟩ := ExportSpecifier.mem_references mem
    exact Option.some_ne_none _

end Planned

theorem references_planned (t : Tree) : Planned bs t := by
  induction t with
  | absent | leaf _ | context _ | name _ _ | string _ => exact ⟨fun _ => nil, fun _ => nil⟩
  | ident role id =>
      cases role with
      | expr => exact .ident id
      | _ => exact ⟨fun _ => nil, fun _ => nil⟩
  | shorthand id => exact .shorthand id
  | items _ ih => exact ⟨Planned.list ih, fun _ => nil⟩
  | binding _ _ ih | arg _ _ ih => exact ⟨ih.all, fun _ => nil⟩
  | exportDecl span _ ih | importDecl span _ _ _ _ _ ih =>
      exact ⟨fun c => ih.all (c.within span), fun _ => nil⟩
  | exportNamed span specifiers source typeOnly attributes _ =>
      exact .exportNamed span specifiers source typeOnly attributes
  | paren role span _ ih => exact ih.paren role span
  | member role span _ _ ihObject ihProperty => exact ihObject.member ihProperty role span
  | call span ctxt _ _ _ ihCallee ihArgs ihType => exact ihCallee.call ihArgs ihType span ctxt
  | declaration _ _ _ _ _ ts ih =>
      refine ⟨fun c faultless => ?_, fun _ => nil⟩
      rw [sitePlaces, plannedSites_declaratorPlaces]
      exact Planned.list ih _ faultless
  | declarator span _ _ definite ihTarget ihInit => exact ihTarget.declarator ihInit span definite
  | objectPattern _ _ _ _ ihProperties ihType =>
      exact ⟨fun c => (Planned.list ihProperties c).append (ihType.all c), fun _ => nil⟩
  | patternShorthand _ _ _ _ ihKey ihValue | patternPair _ _ ihKey ihValue
  | pair _ _ ihKey ihValue =>
      exact ⟨fun _ => (ihKey.all _).append (ihValue.all _), fun _ => nil⟩
  | getter span _ _ _ ihKey _ ihBody =>
      exact ⟨fun _ => ((ihKey.all _).appendSettleOnly _).append (ihBody.all _), fun _ => nil⟩
  | scope _ _ _ _ _ ihOuter ihInner =>
      exact ⟨fun _ => (Planned.list ihOuter _).append (Planned.list ihInner _), fun _ => nil⟩
  | moduleBlock _ _ ih => exact ⟨fun _ => Planned.list ih _, fun _ => nil⟩
  | node _ _ _ _ ih => exact ⟨fun _ => Planned.list ih _, fun _ => nil⟩

end Tree

namespace Module

open SitePlace

variable (m : Module)

theorem references_planned (bs : Bindings) :
    PlannedFrom (m.references bs) (m.sitePlaces bs) :=
  (Tree.references_planned bs (.items m.body)).all .root

theorem settledSites_sitePlaces (bs : Bindings) :
    settledSites (m.sitePlaces bs) = Tree.metList bs m.body :=
  Tree.settledSites_sitePlaces bs (.items m.body)

theorem plannedSites_sitePlaces {source : Option String} {plan : Plan}
    (ok : Plan.ofModule m source = .ok plan) :
    plannedSites (m.sitePlaces plan.bindings) = plan.sites.map some := by
  rw [← Plan.sites_of_ok ok]
  exact (m.references_planned plan.bindings fun r mem =>
    (Plan.accepted_of_ok ok r mem).2).symm

end Module
end MockImport
