import MockImport.Proofs.Assembly
import MockImport.Proofs.SitePlaces

/-!
When settling keeps step with the plan. Actions are handed out by position alone, so
every call site gets the action made for it just when the traversal that settles meets the
sites of the plan; it does if it comes to the same places as the traversal that plans.
-/

namespace MockImport

namespace Slot

/-- A member access takes up a property, and a declarator takes up anything else. -/
def Formed : Slot → Prop
  | .mark _ => True
  | .access site _ _ => ∀ s ∈ site, ∃ property, s.pattern = .member property
  | .declaration site => ∀ s ∈ site, ∀ property, s.pattern ≠ .member property

/-- The action is the one that suits the slot: a declarator is removed, and a member
access is replaced by the import of its own property. -/
def Takes (imports : Imports) : Slot → SiteAction → Prop
  | .mark _, _ => False
  | .access site _ _, action => ∃ s property v, site = some s ∧ s.pattern = .member property ∧
      imports.find? ⟨s.specifier, some property⟩ = some v ∧ action = .replace v
  | .declaration _, action => action = .remove

theorem formed_outward {ss : List Slot} (formed : ∀ s ∈ ss, s.Formed) :
    ∀ s ∈ ss.map outward, s.Formed := by
  rw [List.forall_mem_map]
  intro s mem
  have same := formed s mem
  cases s <;> exact same

theorem formed_marks (ms : List Mark) : ∀ s ∈ ms.map Slot.mark, s.Formed := by
  intro s mem
  obtain ⟨m, -, rfl⟩ := List.mem_map.mp mem
  trivial

end Slot

theorem MockCall.pattern_of_site? {call : MockCall} {pattern : Option Pattern} {s : Site}
    (isSite : call.site? pattern = some s) : pattern = some s.pattern := by
  obtain ⟨source, -, made⟩ := Option.bind_eq_some_iff.mp isSite
  obtain ⟨p, found, rfl⟩ := Option.map_eq_some_iff.mp made
  exact found

namespace Bindings

variable {bs : Bindings} {s : Site}

theorem pattern_of_accessedSite? {object property : Tree}
    (isSite : bs.accessedSite? object property = some s) :
    ∃ name, s.pattern = .member name := by
  obtain ⟨call, -, made⟩ := Option.bind_eq_some_iff.mp isSite
  obtain ⟨_, name, -, same⟩ :=
    Tree.propertyPattern?_eq_some_iff.mp (MockCall.pattern_of_site? made)
  exact ⟨name, same⟩

theorem pattern_of_declaredSite? {t : Tree} (isSite : bs.declaredSite? t = some s)
    (name : String) : s.pattern ≠ .member name := by
  cases t with
  | declarator span target init definite =>
      obtain ⟨call, -, made⟩ := Option.bind_eq_some_iff.mp isSite
      obtain ⟨_, _, -, same⟩ | ⟨_, _, _, _, _, -, -, same⟩ :=
        Tree.targetPattern?_eq_some_iff.mp (MockCall.pattern_of_site? made) <;> simp [same]
  | _ => cases isSite

end Bindings

namespace Tree

variable (bs : Bindings)

open List Slot

theorem slotsList_formed {ts : List Tree} (formed : ∀ t ∈ ts, ∀ s ∈ slots bs t, s.Formed) :
    ∀ s ∈ slotsList bs ts, s.Formed := by
  induction ts with
  | nil => exact forall_mem_nil _
  | cons t rest ih =>
      obtain ⟨here, later⟩ := forall_mem_cons.mp formed
      rw [slotsList, forall_mem_append]
      exact ⟨here, ih later⟩

theorem slotsDeclarators_formed {ts : List Tree}
    (formed : ∀ t ∈ ts, ∀ s ∈ slots bs t, s.Formed) :
    ∀ s ∈ slotsDeclarators bs ts, s.Formed := by
  induction ts with
  | nil => exact forall_mem_nil _
  | cons t rest ih =>
      obtain ⟨here, later⟩ := forall_mem_cons.mp formed
      rw [slotsDeclarators]
      split
      · rw [forall_mem_cons]
        exact ⟨fun s isSite => Bindings.pattern_of_declaredSite? isSite, ih later⟩
      · rw [forall_mem_append]
        exact ⟨here, ih later⟩

theorem slots_formed (t : Tree) : ∀ s ∈ slots bs t, s.Formed := by
  induction t with
  | absent | leaf _ | context _ | name _ _ | string _ => exact forall_mem_nil _
  | ident _ _ | shorthand _ => exact formed_marks [_]
  | items trees ih => exact slotsList_formed bs ih
  | binding id typing ih => exact forall_mem_cons.mpr ⟨trivial, ih⟩
  | paren _ _ _ ih | arg _ _ ih | exportDecl _ _ ih => exact ih
  | member role _ object property ihObject ihProperty =>
      rw [slots]
      split
      · rw [forall_mem_singleton]
        exact fun s isSite => Bindings.pattern_of_accessedSite? isSite
      · exact forall_mem_append.mpr ⟨ihObject, ihProperty⟩
  | call _ _ _ args _ ihCallee ihArgs ihType =>
      simp only [slots, forall_mem_append]
      exact ⟨⟨ihCallee, slotsList_formed bs ihArgs⟩, ihType⟩
  | declaration _ _ _ _ _ ts ih => exact slotsDeclarators_formed bs ih
  | declarator _ _ _ _ ihA ihB | patternShorthand _ _ _ _ ihA ihB =>
      exact forall_mem_cons.mpr ⟨trivial, forall_mem_append.mpr ⟨ihA, ihB⟩⟩
  | objectPattern _ properties _ _ ihProperties ihType =>
      exact forall_mem_append.mpr ⟨slotsList_formed bs ihProperties, ihType⟩
  | patternPair _ _ ihKey ihValue | pair _ _ ihKey ihValue =>
      exact forall_mem_append.mpr ⟨ihKey, ihValue⟩
  | getter _ _ _ _ ihKey ihType ihBody =>
      simp only [slots, forall_mem_append]
      exact ⟨⟨ihKey, ihType⟩, ihBody⟩
  | importDecl _ _ _ _ _ _ ih => exact forall_mem_append.mpr ⟨formed_marks _, ih⟩
  | exportNamed _ _ source _ _ ih =>
      cases source <;> exact forall_mem_append.mpr ⟨formed_marks _, formed_outward ih⟩
  | scope _ _ _ outer inner ihOuter ihInner =>
      exact forall_mem_append.mpr ⟨slotsList_formed bs ihOuter, slotsList_formed bs ihInner⟩
  | moduleBlock _ body ih => exact slotsList_formed bs ih
  | node _ _ _ fields ih => exact slotsList_formed bs ih

end Tree

/-- Slots that are handed the actions made for their sites take them. -/
theorem Slot.forall₂_takes {imports : Imports} {ss : List Slot} {sites : List Site}
    (formed : ∀ s ∈ ss, s.Formed) (met : ss.filterMap site? = sites.map some)
    (found : ∀ site ∈ sites, ∀ r ∈ site.requests, ∃ v, imports.find? r.wanted = some v) :
    List.Forall₂ (Takes imports) (ss.filter (·.site?.isSome))
      (sites.map (·.action imports)) := by
  induction ss generalizing sites with
  | nil =>
      rw [List.map_eq_nil_iff.mp met.symm]
      exact .nil
  | cons s rest ih =>
      obtain ⟨formedHere, formedRest⟩ := List.forall_mem_cons.mp formed
      cases s with
      | mark m => exact ih formedRest met found
      | access at_s standing own =>
          cases sites with
          | nil => cases met
          | cons site sites =>
              obtain ⟨rfl, metRest⟩ := List.cons_eq_cons.mp met
              obtain ⟨foundHere, foundRest⟩ := List.forall_mem_cons.mp found
              refine .cons ?_ (ih formedRest metRest foundRest)
              obtain ⟨property, pattern⟩ := formedHere site rfl
              obtain ⟨v, served⟩ := foundHere ⟨⟨site.specifier, some property⟩, property, none⟩
                (by rw [Site.requests, pattern]; exact List.mem_singleton_self _)
              exact ⟨site, property, v, rfl, pattern, served,
                site.action_of_member pattern served⟩
      | declaration at_s =>
          cases sites with
          | nil => cases met
          | cons site sites =>
              obtain ⟨rfl, metRest⟩ := List.cons_eq_cons.mp met
              exact .cons (site.action_of_not_member imports (formedHere site rfl))
                (ih formedRest metRest (List.forall_mem_cons.mp found).2)

namespace SitePlace

theorem plannedSites_eq_settledSites {ps : List SitePlace}
    (same : ∀ p ∈ ps, p.planned = p.settled) : plannedSites ps = settledSites ps := by
  apply List.filterMap_congr
  intro p mem
  rw [plannedSite?, settledSite?, same p mem]

end SitePlace

/-- What becomes of a member access or a declarator that is the given call site. -/
def Imports.actionFor (imports : Imports) (site : Option Site) : SiteAction :=
  site.elim .remove (·.action imports)

namespace Module

/-- Planning and settling come to the same places. -/
def InStep (m : Module) (bs : Bindings) : Prop := ∀ p ∈ m.sitePlaces bs, p.planned = p.settled

instance (m : Module) (bs : Bindings) : Decidable (m.InStep bs) :=
  inferInstanceAs (Decidable (∀ p ∈ m.sitePlaces bs, p.planned = p.settled))

/-- Carrying out a plan hands the call sites that settling meets the actions of the plan one
after another, and leaves the others. -/
structure SettledInOrder (m : Module) (plan : Plan) (p : Progress) : Prop where
  made : p.allActions = plan.sites.map (·.action p.imports)
  met : Tree.metList plan.bindings (p.assemble m.body) = Tree.metList plan.bindings m.body
  filled : Tree.marksList
      ((Tree.settleItems plan.bindings (p.assemble m.body)).run p.allActions).1 =
    Slot.fill (Tree.slotsList plan.bindings (p.assemble m.body)) p.allActions
  left : ((Tree.settleItems plan.bindings (p.assemble m.body)).run p.allActions).2 =
    p.allActions.drop (Tree.metList plan.bindings m.body).length

/-- Carrying out a plan hands every call site the action made for it, and no action is
left over. -/
structure SettledByOwn (m : Module) (plan : Plan) (p : Progress) : Prop where
  /-- The call sites that settling meets are those of the plan, in order. -/
  met : Tree.metList plan.bindings (p.assemble m.body) = plan.sites.map some
  made : p.allActions = plan.sites.map (·.action p.imports)
  taken : List.Forall₂ (Slot.Takes p.imports)
    ((Tree.slotsList plan.bindings (p.assemble m.body)).filter (·.site?.isSome)) p.allActions
  settled : (Tree.settleItems plan.bindings (p.assemble m.body)).run p.allActions =
    (Tree.settleItemsBy plan.bindings p.imports.actionFor (p.assemble m.body), [])

variable {m : Module} {source : Option String} {plan : Plan}

theorem metList_of_inStep (ok : Plan.ofModule m source = .ok plan)
    (inStep : m.InStep plan.bindings) :
    Tree.metList plan.bindings m.body = plan.sites.map some := by
  rw [← m.settledSites_sitePlaces, ← SitePlace.plannedSites_eq_settledSites inStep,
    m.plannedSites_sitePlaces ok]

theorem actions_of_ok (ok : Plan.ofModule m source = .ok plan) (options : Options) :
    (m.progress plan options).allActions =
      plan.sites.map (·.action (m.progress plan options).imports) :=
  plan.process_actions options _ fun i => (Plan.mem_order_of_ok ok i).mpr

theorem settledInOrder (ok : Plan.ofModule m source = .ok plan) (options : Options) :
    m.SettledInOrder plan (m.progress plan options) := by
  have met := (m.progress plan options).metList_assemble plan.bindings m.body
  have followed := Tree.settleItems_followed plan.bindings
    ((m.progress plan options).assemble m.body) (m.progress plan options).allActions
  exact {
    made := actions_of_ok ok options
    met := met
    filled := congrArg Prod.fst followed
    left := by
      rw [← met]
      exact congrArg Prod.snd followed }

theorem settledByOwn_of_met (ok : Plan.ofModule m source = .ok plan)
    (met : Tree.metList plan.bindings m.body = plan.sites.map some) (options : Options) :
    m.SettledByOwn plan (m.progress plan options) := by
  have made := actions_of_ok ok options
  have met : Tree.metList plan.bindings ((m.progress plan options).assemble m.body) =
      plan.sites.map some := by
    rw [Progress.metList_assemble, met]
  refine ⟨met, made, ?_, ?_⟩
  · rw [made]
    exact Slot.forall₂_takes
      (Tree.slots_formed plan.bindings (.items ((m.progress plan options).assemble m.body))) met
      fun _ mem _ => plan.find?_of_site options _ (fun i => (Plan.mem_order_of_ok ok i).mpr) mem
  · have run := Tree.settleItems_run plan.bindings
      (m.progress plan options).imports.actionFor ((m.progress plan options).assemble m.body)
    rw [met, List.map_map] at run
    rw [made]
    exact run

theorem settledByOwn_of_inStep (ok : Plan.ofModule m source = .ok plan)
    (inStep : m.InStep plan.bindings) (options : Options) :
    m.SettledByOwn plan (m.progress plan options) :=
  settledByOwn_of_met ok (metList_of_inStep ok inStep) options

theorem met_of_settledByOwn {p : Progress} (own : m.SettledByOwn plan p) :
    Tree.metList plan.bindings m.body = plan.sites.map some := by
  rw [← p.metList_assemble, own.met]

/-- The sites of a plan come from some places of the module, and settling meets those of some
places. It hands out the actions of the plan in order, so that every call site is settled by
its own action just when it meets the sites of the plan; it meets them if planning and settling
come to the same places. -/
theorem settling_follows_plan (ok : Plan.ofModule m source = .ok plan) :
    SitePlace.plannedSites (m.sitePlaces plan.bindings) = plan.sites.map some ∧
      SitePlace.settledSites (m.sitePlaces plan.bindings) =
        Tree.metList plan.bindings m.body ∧
      (∀ options, m.SettledInOrder plan (m.progress plan options)) ∧
      (Tree.metList plan.bindings m.body = plan.sites.map some ↔
        ∀ options, m.SettledByOwn plan (m.progress plan options)) ∧
      (m.InStep plan.bindings →
        Tree.metList plan.bindings m.body = plan.sites.map some ∧
          ∀ options, m.SettledByOwn plan (m.progress plan options)) :=
  ⟨m.plannedSites_sitePlaces ok, m.settledSites_sitePlaces plan.bindings, settledInOrder ok,
    ⟨settledByOwn_of_met ok, fun own => met_of_settledByOwn (own {})⟩,
    fun inStep => ⟨metList_of_inStep ok inStep, settledByOwn_of_inStep ok inStep⟩⟩

end Module

namespace Sample

/-- `{ [access]: string }`, as a type -/
def typeWith (key : Tree) : Tree :=
  .node .plain .tsTyping .generated [.node .plain .tsTypeLiteral .generated
    [.items [.node .plain .tsPropertySignature .generated
      [.leaf (.bool false), key, .leaf (.bool true), .leaf (.bool false),
        .node .plain .tsTyping .generated
          [.node .plain .tsKeywordType .generated [.leaf (.text "string")]]]]]]

/-- `const x: { [mock(import("a")).p]: string } = mock(import("b")); mock(import("c")).q;` -/
def typed : Module :=
  ⟨.generated, [importMock,
    const (.binding (.generated ⟨"x", 2⟩) (typeWith (access "a" "p"))) (mocked "b"),
    statement (access "c" "q")], none⟩

theorem plan_typed : Plan.ofModule typed none = .ok (.drawn typed) := rfl

end Sample

namespace Module

theorem settling_follows_plan_plain :
    Plan.ofModule Sample.plain none = .ok (.drawn Sample.plain) ∧
      Tree.metList (.discover Sample.plain.body) Sample.plain.body =
        [some ⟨0, "m", .destructure [("a", ⟨"a", 2⟩), ("b", ⟨"c", 2⟩)]⟩,
          some ⟨0, "n", .alias ⟨"n", 2⟩⟩, some ⟨0, "m", .member "a"⟩] ∧
      ∀ options, Sample.plain.SettledByOwn (.drawn Sample.plain)
        (Sample.plain.progress (.drawn Sample.plain) options) := by
  have follows := (settling_follows_plan Sample.plan_plain).2.2.2.2 (by decide)
  exact ⟨Sample.plan_plain, follows.1, follows.2⟩

/-- A call site in the type of a declarator that is a call site itself is planned but
never met, and from there on every action goes to the wrong site: `mock(import("c")).q`
becomes the import of `p` from `a`. -/
theorem typed_out_of_step :
    Plan.ofModule Sample.typed none = .ok (.drawn Sample.typed) ∧
      ¬ Sample.typed.InStep (.discover Sample.typed.body) ∧
      (Plan.drawn Sample.typed).sites =
        [⟨0, "b", .alias ⟨"x", 2⟩⟩, ⟨0, "a", .member "p"⟩, ⟨0, "c", .member "q"⟩] ∧
      Tree.metList (.discover Sample.typed.body) Sample.typed.body =
        [some ⟨0, "b", .alias ⟨"x", 2⟩⟩, some ⟨0, "c", .member "q"⟩] ∧
      (Sample.typed.expand none {}).map (·.2.body.getLast?) =
        .ok (some (Sample.statement (Sample.ident "_p"))) :=
  ⟨Sample.plan_typed, by decide, rfl, rfl, rfl⟩

end Module
end MockImport
