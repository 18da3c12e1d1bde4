import MockImport.Proofs.Outlines
import MockImport.Proofs.Parentheses

/-!
Idle parentheses carry no meaning. A module without them has the same bindings, names and
outlines of references, so it has the same plan or fails in the same way. Parentheses that are
not idle can change either, since the object of `M.mock`, the literal of an import and targets of
assignments are read as they are written.
-/

namespace MockImport

namespace Tree

/-! ### Names and imports -/

theorem Moved.names {t u : Tree} (moved : Moved t u) : u.names = t.names := by
  cases moved <;> rfl

theorem names_unparen (pattern : Bool) (t : Tree) : names (unparen pattern t) = names t := by
  have list {ts : List Tree} (pattern : Bool)
      (ih : ∀ t ∈ ts, ∀ pattern, names (unparen pattern t) = names t) :
      namesList (unparenList pattern ts) = namesList ts := by
    induction ts with
    | nil => rfl
    | cons t rest ihRest =>
        obtain ⟨here, later⟩ := List.forall_mem_cons.mp ih
        simp only [unparenList, namesList, here, ihRest later]
  have fields {ts : List Tree} (patterns : List Bool)
      (ih : ∀ t ∈ ts, ∀ pattern, names (unparen pattern t) = names t) :
      namesList (unparenFields patterns ts) = namesList ts := by
    induction ts generalizing patterns with
    | nil => cases patterns <;> rfl
    | cons t rest ihRest =>
        obtain ⟨here, later⟩ := List.forall_mem_cons.mp ih
        cases patterns <;> simp only [unparenFields, namesList, here, ihRest _ later]
  induction t generalizing pattern with
  | absent | leaf _ | context _ | name _ _ | string _ | ident _ _ | shorthand _ => rfl
  | items _ ih => exact list pattern ih
  | binding _ _ ih => exact congrArg (_ :: ·) (ih false)
  | paren role _ inner ih => exact (moved_place role pattern _).names.trans (ih false)
  | arg _ _ ih | exportDecl _ _ ih => exact ih false
  | member _ _ _ _ ihA ihB | declarator _ _ _ _ ihA ihB | patternPair _ _ ihA ihB
  | pair _ _ ihA ihB | patternShorthand _ _ _ _ ihA ihB => simp only [unparen, names, ihA, ihB]
  | call _ _ _ _ _ ihCallee ihArgs ihType =>
      simp only [unparen, names, ihCallee, list false ihArgs, ihType]
  | declaration _ _ _ _ _ _ ih => exact list false ih
  | objectPattern _ _ _ _ ihProperties ihType =>
      simp only [unparen, names, list false ihProperties, ihType]
  | getter _ _ _ _ ihKey ihType ihBody => simp only [unparen, names, ihKey, ihType, ihBody]
  | importDecl _ _ _ _ _ _ ih | exportNamed _ _ _ _ _ ih => simp only [unparen, names, ih]
  | scope _ _ _ _ _ ihOuter ihInner =>
      simp only [unparen, names, fields _ ihOuter, fields _ ihInner]
  | moduleBlock _ _ ih => exact list false ih
  | node _ _ _ _ ih => exact fields _ ih

variable {bs : Bindings} {t : Tree}

theorem mockSpecifiers_unparen (idle : parensIdle bs false t = true) :
    (unparen false t).mockSpecifiers = t.mockSpecifiers := by
  cases t with
  | paren role span inner => exact (placed_unparen idle).mockSpecifiers
  | _ => rfl

theorem discover_unparenList {body : List Tree} (idle : parensIdleList bs false body = true) :
    Bindings.discover (unparenList false body) = Bindings.discover body := by
  have specifiers : (unparenList false body).flatMap mockSpecifiers =
      body.flatMap mockSpecifiers := by
    induction body with
    | nil => rfl
    | cons t rest ih =>
        simp only [parensIdleList, Bool.and_eq_true] at idle
        rw [unparenList, List.flatMap_cons, List.flatMap_cons, mockSpecifiers_unparen idle.1,
          ih idle.2]
  rw [Bindings.discover, Bindings.discover, specifiers]

/-! ### Mock calls -/

theorem parensIdle_of_call? {pattern : Bool} {m : MockCall} (idle : parensIdle bs pattern t = true)
    (isCall : bs.call? t = some m) :
    parensIdleList bs false m.args = true ∧ (plainArg? m.args).any quotesInParens = false := by
  induction t generalizing pattern with
  | paren _ _ _ ih =>
      simp only [parensIdle, Bool.and_eq_true] at idle
      exact ih idle.2 isCall
  | call span ctxt callee args typeArgs _ _ _ =>
      obtain ⟨b, isMock, rfl⟩ := Option.map_eq_some_iff.mp isCall
      simp only [parensIdle, isMock, Option.isSome_some, Bool.true_and, Bool.and_eq_true,
        Bool.not_eq_true'] at idle
      exact ⟨idle.1.2, idle.1.1.1⟩
  | _ => cases isCall

theorem use?_unparen {pattern : Bool} {m : MockCall} (idle : parensIdle bs pattern t = true)
    (isCall : bs.call? t = some m) (taken : Option Pattern) :
    m.unparen.use? taken = m.use? taken := by
  obtain ⟨idleArgs, unquoted⟩ := parensIdle_of_call? idle isCall
  rw [MockCall.use?, m.specifier?_unparen idleArgs unquoted, MockCall.use?]

/-- A mock call whose result goes nowhere that counts, with or without parentheses. -/
theorem outlines_references_of_call? {m : MockCall} (isCall : bs.call? t = some m) (c : Context) :
    outlines (references bs c t) =
      ⟨m.binding, c.atRoot, m.use? none⟩ :: outlines (argReferences bs c t) := by
  induction t generalizing c with
  | paren role span inner ih =>
      cases role with
      | expr =>
          have same : outlines (argReferences bs (c.within m.span) inner) =
              outlines (argReferences bs c inner) := inner.isLocal.arguments rfl
          have isCall : bs.call? inner = some m := isCall
          simp only [references, isCall, outlines, List.map_cons, Context.outline_unconsumed]
            at same ⊢
          rw [same]
          rfl
      | _ => exact (inner.isLocal.all (c.level_enter _ _)).trans (ih isCall c)
  | call span ctxt callee args typeArgs _ _ _ =>
      obtain ⟨b, isMock, rfl⟩ := Option.map_eq_some_iff.mp isCall
      have same : outlines (referencesList bs (c.within span) args) =
          outlines (referencesList bs c args) := (isLocal (.items args)).all rfl
      simp only [references, isMock, outlines, List.map_cons, Context.outline_unconsumed] at same ⊢
      rw [same]
      rfl
  | _ => cases isCall

/-! ### References -/

/-- Parentheses around an expression leave the outlines of its references as they are. -/
theorem outlines_references_paren (c : Context) (role : Role) (span : Span) (inner : Tree) :
    outlines (references bs c (.paren role span inner)) = outlines (references bs c inner) := by
  cases role with
  | expr =>
      cases isCall : bs.call? inner with
      | none =>
          simp only [references, isCall]
          exact inner.isLocal.all (c := c.within span) rfl
      | some m =>
          have parenIsCall : bs.call? (.paren .expr span inner) = some m := isCall
          rw [outlines_references_of_call? parenIsCall, outlines_references_of_call? isCall,
            argReferences]
  | _ => exact inner.isLocal.all (c.level_enter _ _)

theorem Moved.argReferences {u : Tree} (moved : Moved t u) (c : Context) :
    argReferences bs c u = argReferences bs c t := by
  cases moved <;> rfl

/-- In the place of parentheses that are idle, an expression has the references it had. -/
theorem outlines_references_place {role : Role} {pattern : Bool} (bare : Bare t)
    (idle : parensIdle bs false t = true) (placed : bs.misplaces role pattern t = false)
    (c : Context) :
    outlines (references bs c ((unparen false t).place role pattern)) =
      outlines (references bs c (unparen false t)) := by
  cases bare with
  | ident id =>
      simp only [unparen, place]
      split
      · rfl
      · next moved =>
          simp only [references, Bindings.named?_eq_none_of_moved placed moved]
  | member span object property =>
      by_cases stays : role = .expr
      · subst stays
        rfl
      · obtain ⟨noMember, noCall⟩ := Bindings.member?_eq_none_of_moved placed stays
        simp only [parensIdle, Bool.and_eq_true, Bool.not_eq_true'] at idle
        obtain ⟨⟨open_, idleObject⟩, idleProperty⟩ := idle
        rw [← Bindings.member?_unparen idleObject idleProperty open_] at noMember
        have noCall' : bs.call? (unparen false object) = none := by
          rw [Bindings.call?_unparen idleObject, noCall, Option.map_none]
        have level : (c.enter role span).Level (c.within span) := c.level_enter role span
        cases role with
        | expr => exact absurd rfl stays
        | _ =>
            simp only [unparen, place, references, noMember, noCall', outlines_append,
              (isLocal _).all level]
  | string literal | call span ctxt callee args typeArgs => rfl
  | scope kind span outer inner =>
      have level : (c.enter role span).Level (c.enter .expr span) := .enter rfl _ _ _ _
      have below := Context.Level.below (c.enter role span) (c.enter .expr span)
      simp only [unparen, place, references, outlines_append]
      exact congrArg₂ (· ++ ·) ((isLocal (.items _)).all level) ((isLocal (.items _)).all below)
  | node kind span fields other =>
      exact (isLocal (.items _)).all (.enter rfl role .expr span span)

/-- One tree has the references of another, but for the spans that errors cite. -/
structure SameOutlines (bs : Bindings) (t u : Tree) : Prop where
  all : ∀ c, outlines (references bs c t) = outlines (references bs c u)
  arguments : ∀ c, outlines (argReferences bs c t) = outlines (argReferences bs c u)

namespace SameOutlines

theorem list {ts : List Tree} {pattern : Bool} (idle : parensIdleList bs pattern ts = true)
    (each : ∀ t ∈ ts, ∀ {pattern}, parensIdle bs pattern t = true →
      SameOutlines bs (unparen pattern t) t) (c : Context) :
    outlines (referencesList bs c (unparenList pattern ts)) =
      outlines (referencesList bs c ts) := by
  induction ts with
  | nil => rfl
  | cons t rest ih =>
      simp only [parensIdleList, Bool.and_eq_true] at idle
      obtain ⟨here, later⟩ := List.forall_mem_cons.mp each
      simp only [unparenList, referencesList, outlines_append, (here idle.1).all,
        ih idle.2 later]

theorem fields {ts : List Tree} {patterns : List Bool}
    (idle : parensIdleFields bs patterns ts = true)
    (each : ∀ t ∈ ts, ∀ {pattern}, parensIdle bs pattern t = true →
      SameOutlines bs (unparen pattern t) t) (c : Context) :
    outlines (referencesList bs c (unparenFields patterns ts)) =
      outlines (referencesList bs c ts) := by
  induction ts generalizing patterns with
  | nil => cases patterns <;> rfl
  | cons t rest ih =>
      obtain ⟨here, later⟩ := List.forall_mem_cons.mp each
      cases patterns with
      | nil | cons _ _ =>
          simp only [parensIdleFields, Bool.and_eq_true] at idle
          simp only [unparenFields, referencesList, outlines_append, (here idle.1).all,
            ih idle.2 later]

theorem paren {pattern : Bool} {role : Role} {span : Span} {inner : Tree}
    (idle : parensIdle bs pattern (.paren role span inner) = true)
    (ih : SameOutlines bs (unparen false inner) inner) :
    SameOutlines bs (unparen pattern (.paren role span inner)) (.paren role span inner) := by
  simp only [parensIdle, Bool.and_eq_true, Bool.not_eq_true'] at idle
  obtain ⟨bare, idleBare, same⟩ := bare_stripped idle.1.1 idle.2
  refine ⟨fun c => ?_, fun c => ?_⟩
  · calc outlines (references bs c (unparen pattern (.paren role span inner)))
        = outlines (references bs c ((unparen false inner.stripped).place role pattern)) := by
          rw [unparen, same]
      _ = outlines (references bs c (unparen false inner)) := by
          rw [outlines_references_place bare idleBare idle.1.2, same]
      _ = outlines (references bs c inner) := ih.all c
      _ = outlines (references bs c (.paren role span inner)) :=
          (outlines_references_paren c role span inner).symm
  · rw [unparen, (moved_place role pattern _).argReferences c, argReferences]
    exact ih.arguments c

theorem member {role : Role} {span : Span} {object property : Tree} {pattern : Bool}
    (idle : parensIdle bs pattern (.member role span object property) = true)
    (ihObject : SameOutlines bs (unparen false object) object)
    (ihProperty : SameOutlines bs (unparen false property) property) :
    SameOutlines bs (.member role span (unparen false object) (unparen false property))
      (.member role span object property) := by
  refine ⟨fun c => ?_, fun _ => rfl⟩
  simp only [parensIdle, Bool.and_eq_true, Bool.not_eq_true'] at idle
  obtain ⟨⟨open_, idleObject⟩, idleProperty⟩ := idle
  cases role with
  | expr =>
      have isMember := Bindings.member?_unparen idleObject idleProperty open_
      have isCall := Bindings.call?_unparen idleObject
      simp only [references, isMember, isCall]
      cases bs.member? object property with
      | some b => rfl
      | none =>
          cases found : bs.call? object with
          | none =>
              simp only [Option.map_none, outlines_append, ihObject.all, ihProperty.all]
          | some m =>
              have use := use?_unparen idleObject found property.propertyPattern?
              have arguments := ihObject.arguments (c.within m.span)
              have inProperty := ihProperty.all (c.within span)
              simp only [Option.map_some, propertyPattern?_unparen idleProperty, outlines,
                List.map_append, List.map_cons, Context.outline_record_usage, use]
                at arguments inProperty ⊢
              rw [inProperty, ← arguments]
              rfl
  | _ => simp only [references, outlines_append, ihObject.all, ihProperty.all]

theorem call {span : Span} {ctxt : Nat} {callee typeArgs : Tree} {args : List Tree}
    {pattern : Bool} (idle : parensIdle bs pattern (.call span ctxt callee args typeArgs) = true)
    (ihCallee : SameOutlines bs (unparen false callee) callee)
    (ihArgs : ∀ c, outlines (referencesList bs c (unparenList false args)) =
      outlines (referencesList bs c args))
    (ihType : SameOutlines bs (unparen false typeArgs) typeArgs) :
    SameOutlines bs
      (.call span ctxt (unparen false callee) (unparenList false args) (unparen false typeArgs))
      (.call span ctxt callee args typeArgs) := by
  refine ⟨fun c => ?_, ihArgs⟩
  have idle' := idle
  simp only [parensIdle, Bool.and_eq_true] at idle'
  have isMock := Bindings.callee?_unparen idle'.1.1.2
  simp only [references, isMock]
  cases found : bs.callee? callee with
  | none => simp only [outlines_append, ihCallee.all, ihArgs, ihType.all]
  | some b =>
      have isCall : bs.call? (.call span ctxt callee args typeArgs) = some ⟨b, span, args⟩ := by
        rw [Bindings.call?, found, Option.map_some]
      have use := use?_unparen idle isCall none
      have arguments := ihArgs (c.within span)
      simp only [outlines, List.map_cons, Context.outline_unconsumed] at arguments ⊢
      rw [arguments, ← use]
      rfl

theorem declarator {span : Span} {target init : Tree} {definite : Bool} {pattern : Bool}
    (idle : parensIdle bs pattern (.declarator span target init definite) = true)
    (ihTarget : SameOutlines bs (unparen true target) target)
    (ihInit : SameOutlines bs (unparen false init) init) :
    SameOutlines bs (.declarator span (unparen true target) (unparen false init) definite)
      (.declarator span target init definite) := by
  refine ⟨fun c => ?_, fun _ => rfl⟩
  simp only [parensIdle, Bool.and_eq_true, Bool.not_eq_true'] at idle
  obtain ⟨⟨bound, idleTarget⟩, idleInit⟩ := idle
  have isCall := Bindings.call?_unparen idleInit
  simp only [references, isCall]
  cases found : bs.call? init with
  | none => simp only [Option.map_none, outlines_append, ihTarget.all, ihInit.all]
  | some m =>
      rw [found, Option.isSome_some, Bool.true_and] at bound
      have use := use?_unparen idleInit found target.targetPattern?
      have inTarget := ihTarget.all (c.within span)
      have arguments := ihInit.arguments (c.within m.span)
      simp only [Option.map_some, targetPattern?_unparen idleTarget bound, outlines,
        List.map_append, List.map_cons, Context.outline_record_usage, use]
        at inTarget arguments ⊢
      rw [inTarget, ← arguments]
      rfl

end SameOutlines

/-- Taking idle parentheses off leaves the outlines of all references as they are. -/
theorem sameOutlines_unparen {pattern : Bool} (idle : parensIdle bs pattern t = true) :
    SameOutlines bs (unparen pattern t) t := by
  have nothing (_ : Context) : outlines [] = outlines [] := rfl
  induction t generalizing pattern with
  | absent | leaf _ | context _ | name _ _ | string _ | ident _ _ | shorthand _ =>
      exact ⟨fun _ => rfl, fun _ => rfl⟩
  | items _ ih => exact ⟨SameOutlines.list idle ih, nothing⟩
  | binding _ _ ih | arg _ _ ih => exact ⟨(ih idle).all, nothing⟩
  | exportDecl span _ ih | importDecl span _ _ _ _ _ ih =>
      exact ⟨fun c => (ih idle).all (c.within span), nothing⟩
  | exportNamed _ _ _ _ _ _ => exact ⟨fun _ => rfl, nothing⟩
  | paren _ _ _ ih =>
      have idle' := idle
      simp only [parensIdle, Bool.and_eq_true] at idle'
      exact .paren idle (ih idle'.2)
  | member _ _ _ _ ihObject ihProperty =>
      have idle' := idle
      simp only [parensIdle, Bool.and_eq_true] at idle'
      exact .member idle (ihObject idle'.1.2) (ihProperty idle'.2)
  | call _ _ _ _ _ ihCallee ihArgs ihType =>
      have idle' := idle
      simp only [parensIdle, Bool.and_eq_true] at idle'
      obtain ⟨⟨⟨-, idleCallee⟩, idleArgs⟩, idleType⟩ := idle'
      exact .call idle (ihCallee idleCallee) (SameOutlines.list idleArgs ihArgs)
        (ihType idleType)
  | declaration _ _ _ _ _ _ ih =>
      exact ⟨fun _ => SameOutlines.list idle ih _, nothing⟩
  | declarator _ _ _ _ ihTarget ihInit =>
      have idle' := idle
      simp only [parensIdle, Bool.and_eq_true] at idle'
      exact .declarator idle (ihTarget idle'.1.2) (ihInit idle'.2)
  | objectPattern _ _ _ _ ihProperties ihType =>
      simp only [parensIdle, Bool.and_eq_true] at idle
      refine ⟨fun c => ?_, nothing⟩
      simp only [unparen, references, outlines_append, (ihType idle.2).all,
        SameOutlines.list idle.1 ihProperties]
  | patternShorthand _ _ _ _ ihA ihB | patternPair _ _ ihA ihB =>
      simp only [parensIdle, Bool.and_eq_true] at idle
      refine ⟨fun c => ?_, nothing⟩
      simp only [unparen, references, outlines_append, (ihA idle.1).all, (ihB idle.2).all]
  | pair key value ihKey ihValue =>
      simp only [parensIdle, Bool.and_eq_true] at idle
      refine ⟨fun c => ?_, nothing⟩
      -- the node is cited from its key to its value, which begin and end elsewhere then
      have within (s s' : Span) : (c.within s).Level (c.within s') := rfl
      simp only [unparen, references, outlines_append, (ihKey idle.1).all, (ihValue idle.2).all]
      rw [key.isLocal.all (within _ (key.span.cover value.span)),
        value.isLocal.all (within _ (key.span.cover value.span))]
  | getter _ _ _ _ ihKey _ ihBody =>
      simp only [parensIdle, Bool.and_eq_true] at idle
      refine ⟨fun c => ?_, nothing⟩
      simp only [unparen, references, outlines_append, (ihKey idle.1).all, (ihBody idle.2).all]
  | scope _ _ _ _ _ ihOuter ihInner =>
      simp only [parensIdle, Bool.and_eq_true] at idle
      refine ⟨fun c => ?_, nothing⟩
      simp only [unparen, references, outlines_append,
        SameOutlines.fields idle.1 ihOuter,
        SameOutlines.fields idle.2 ihInner]
  | moduleBlock _ _ ih => exact ⟨fun _ => SameOutlines.list idle ih _, nothing⟩
  | node _ _ _ _ ih => exact ⟨fun _ => SameOutlines.fields idle ih _, nothing⟩

end Tree

/-! ### Plans -/

namespace Module

/-- The module without any parentheses. -/
def unparen (m : Module) : Module := { m with body := Tree.unparenList false m.body }

/-- No parentheses in the module keep it from being read as it is without them. -/
def parensIdle (m : Module) : Bool := Tree.parensIdleList (.discover m.body) false m.body

/-- A module whose parentheses are idle has the plan it has without them, or fails alike. -/
theorem plan_unparen (m : Module) (source source' : Option String) (idle : m.parensIdle = true) :
    (Plan.ofModule m.unparen source').mapError Failure.kind =
      (Plan.ofModule m source).mapError Failure.kind :=
  Plan.mapError_kind_ofModule source source' (Tree.discover_unparenList idle)
    (Tree.names_unparen false (.items m.body))
    ((Tree.sameOutlines_unparen (t := .items m.body) idle).all .root)

end Module

namespace Sample

/-- `(t)` -/
def paren (t : Tree) : Tree := .paren .expr .generated t

/-- `callee(argument)` -/
def callOf (callee argument : Tree) : Tree :=
  .call .generated 0 callee [.arg none argument] .absent

/-- `import(literal)` -/
def imported (literal : Tree) : Tree :=
  callOf (.node .plain .importKeyword .generated [.leaf (.text "evaluation")]) literal

/-- `const n = ((mock)((import("n")))); ((mock(import("m"))).a);` -/
def wrapped : Module :=
  ⟨.generated, [importMock,
    const (.binding (.generated ⟨"n", 2⟩) .absent)
      (paren (callOf (paren (ident mockName)) (paren (imported (.string (.generated "n")))))),
    statement (paren (.member .expr .generated (paren (mocked "m")) (.name .generated "a")))],
    none⟩

/-- `import * as M from "@userlike/joke"; const { a } = (M).mock(import("a"));` -/
def wrappedObject : Module :=
  ⟨.generated, [
    .importDecl .generated [.star .generated (.generated ⟨"M", 2⟩)] (.generated mockModule) false
      .absent "evaluation",
    const (.objectPattern .generated
      [.patternShorthand .generated (.generated ⟨"a", 2⟩) .absent .absent] false .absent)
      (callOf (.member .expr .generated (paren (ident "M")) (.name .generated mockName))
        (imported (.string (.generated "a"))))], none⟩

/-- `mock(import(("a"))).b;` -/
def wrappedLiteral : Module :=
  ⟨.generated, [importMock,
    statement (.member .expr .generated
      (callOf (ident mockName) (imported (paren (.string (.generated "a")))))
      (.name .generated "b"))], none⟩

/-- `(target) = x;` -/
def assignedTo (target : Tree) : Module :=
  ⟨.generated, [importMock,
    statement (.node .expr .assignmentExpression .generated
      [.leaf (.text "="), .paren .plain .generated target, ident "x"])], none⟩

end Sample

namespace Module

theorem plan_unparen_wrapped :
    Sample.wrapped.parensIdle = true ∧
      (Plan.ofModule Sample.wrapped none).map (·.sites) =
        .ok [⟨0, "n", .alias ⟨"n", 2⟩⟩, ⟨0, "m", .member "a"⟩] ∧
      (Plan.ofModule Sample.wrapped.unparen none).mapError Failure.kind =
        (Plan.ofModule Sample.wrapped none).mapError Failure.kind :=
  ⟨rfl, rfl, plan_unparen Sample.wrapped none none rfl⟩

/-- Parentheses hide a call from the pass around the object of `M.mock`, make a call malformed
around the literal of its import, and around an assignment target make a reference malformed or
a call well used. -/
theorem parens_carry_meaning :
    ((Plan.ofModule Sample.wrappedObject none).map (·.sites) = .ok [] ∧
      (Plan.ofModule Sample.wrappedObject.unparen none).map (·.sites) =
        .ok [⟨0, "a", .destructure [("a", ⟨"a", 2⟩)]⟩]) ∧
    ((Plan.ofModule Sample.wrappedLiteral none).mapError Failure.kind = .error .malformedUsage ∧
      (Plan.ofModule Sample.wrappedLiteral.unparen none).map (·.sites) =
        .ok [⟨0, "a", .member "b"⟩]) ∧
    ((Plan.ofModule (Sample.assignedTo (Sample.ident mockName)) none).mapError Failure.kind =
        .error .malformedUsage ∧
      (Plan.ofModule (Sample.assignedTo (Sample.ident mockName)).unparen none).map (·.sites) =
        .ok []) ∧
    (Plan.ofModule (Sample.assignedTo (Sample.access "a" "b")) none).map (·.sites) =
        .ok [⟨0, "a", .member "b"⟩] ∧
      (Plan.ofModule (Sample.assignedTo (Sample.access "a" "b")).unparen none).mapError
        Failure.kind = .error .malformedUsage :=
  ⟨⟨rfl, rfl⟩, ⟨rfl, rfl⟩, ⟨rfl, rfl⟩, rfl, rfl⟩

end Module
end MockImport
