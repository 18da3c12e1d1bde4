import Mathlib.Data.List.Basic
import MockImport.Proofs.Patterns
import MockImport.Proofs.Planning

/-!
Planning but for the spans that errors cite. Such a span is that of the reference at fault or
of a node around it; whether and how a module has a plan depends only on the outlines of its
references, which leave the spans out.
-/

namespace MockImport

inductive FailureKind where
  | scopeViolation
  | malformedUsage
  deriving DecidableEq

def Failure.kind : Failure → FailureKind
  | .scopeViolation _ => .scopeViolation
  | .malformedUsage _ _ => .malformedUsage

structure Outline where
  binding : Nat
  atRoot : Bool
  /-- The module named and the pattern, if the reference is well used. -/
  use : Option (String × Pattern)

def Reference.outline (r : Reference) : Outline := ⟨r.binding, r.atRoot, r.usage.toOption⟩

def outlines (rs : List Reference) : List Outline := rs.map Reference.outline

theorem outlines_append (rs ss : List Reference) :
    outlines (rs ++ ss) = outlines rs ++ outlines ss :=
  List.map_append

/-- The use that a call and what takes its result up come to. -/
def MockCall.use? (call : MockCall) (pattern : Option Pattern) : Option (String × Pattern) :=
  call.specifier?.bind fun source => pattern.map (source, ·)

theorem MockCall.usage_toOption (call : MockCall) (consumer : Span) (pattern : Option Pattern) :
    (call.usage consumer pattern).toOption = call.use? pattern := by
  simp only [usage, use?]
  cases call.specifier? with
  | none => rfl
  | some source => cases pattern <;> rfl

theorem Context.outline_record_usage (c : Context) (call : MockCall) (consumer : Span)
    (pattern : Option Pattern) :
    (c.record call.binding call.span (call.usage consumer pattern)).outline =
      ⟨call.binding, c.atRoot, call.use? pattern⟩ := by
  rw [← call.usage_toOption consumer pattern]
  rfl

theorem Context.outline_unconsumed (c : Context) (call : MockCall) :
    (c.unconsumed call).outline = ⟨call.binding, c.atRoot, call.use? none⟩ :=
  c.outline_record_usage call _ none

/-! ### The node that an error cites -/

namespace Context

/-- Both ways lead to the same depth. -/
def Level (c d : Context) : Prop := c.atRoot = d.atRoot

variable {c d : Context}

theorem level_enter (c : Context) (role : Role) (span : Span) : (c.enter role span).Level c := by
  simp only [Context.enter]
  split <;> exact rfl

theorem Level.enter (level : c.Level d) (role role' : Role) (span span' : Span) :
    (c.enter role span).Level (d.enter role' span') :=
  (level_enter c role span).trans (level.trans (level_enter d role' span').symm)

theorem Level.below (c d : Context) : c.below.Level d.below := rfl

end Context

theorem ExportSpecifier.outlines_references {bs : Bindings} {c d : Context} (level : c.Level d)
    (s : ExportSpecifier) : outlines (s.references bs c) = outlines (s.references bs d) := by
  cases s with
  | named _ subject _ _ =>
      cases subject with
      | ident subject =>
          simp only [references]
          cases bs.named? subject.var with
          | none => rfl
          | some b => exact congrArg (fun atRoot => ([⟨b, atRoot, none⟩] : List Outline)) level
      | string _ => rfl
  | _ => rfl

namespace Tree

variable {bs : Bindings}

/-- The outlines of the references of a tree do not depend on the nodes around it. -/
structure Local (bs : Bindings) (t : Tree) : Prop where
  all : ∀ {c d : Context}, c.Level d →
    outlines (references bs c t) = outlines (references bs d t)
  arguments : ∀ {c d : Context}, c.Level d →
    outlines (argReferences bs c t) = outlines (argReferences bs d t)

namespace Local

variable {c d : Context}

theorem list {ts : List Tree} (each : ∀ t ∈ ts, Local bs t) (level : c.Level d) :
    outlines (referencesList bs c ts) = outlines (referencesList bs d ts) := by
  induction ts with
  | nil => rfl
  | cons t rest ih =>
      obtain ⟨here, later⟩ := List.forall_mem_cons.mp each
      simp only [referencesList, outlines_append, here.all level, ih later]

theorem paren {inner : Tree} (ih : Local bs inner) (role : Role) (span : Span) :
    Local bs (.paren role span inner) := by
  refine ⟨fun {c d} level => ?_, ih.arguments⟩
  cases role with
  | expr =>
      simp only [references]
      cases bs.call? inner with
      | none => exact ih.all level
      | some m =>
          have same := ih.arguments (c := c.within m.span) (d := d.within m.span) level
          simp only [outlines, List.map_cons, Context.outline_unconsumed] at same ⊢
          rw [same, level]
  | _ => exact ih.all (level.enter _ _ _ _)

theorem member {object property : Tree} (ihObject : Local bs object)
    (ihProperty : Local bs property) (role : Role) (span : Span) :
    Local bs (.member role span object property) := by
  refine ⟨fun {c d} level => ?_, fun _ => rfl⟩
  have apart {c d : Context} (level : c.Level d) :
      outlines (references bs c object ++ references bs c property) =
        outlines (references bs d object ++ references bs d property) := by
    rw [outlines_append, outlines_append, ihObject.all level, ihProperty.all level]
  cases role with
  | expr =>
      simp only [references]
      cases bs.member? object property with
      | some b => exact congrArg (fun atRoot => ([⟨b, atRoot, none⟩] : List Outline)) level
      | none =>
          cases bs.call? object with
          | none => exact apart level
          | some m =>
              have arguments := ihObject.arguments (c := c.within m.span) (d := d.within m.span)
                level
              have below := ihProperty.all (c := c.within span) (d := d.within span) level
              simp only [outlines, List.map_append, List.map_cons, Context.outline_record_usage]
                at arguments below ⊢
              rw [arguments, below, level]
  | _ => exact apart (level.enter _ _ _ _)

theorem call {callee typeArgs : Tree} {args : List Tree} (ihCallee : Local bs callee)
    (ihArgs : ∀ t ∈ args, Local bs t) (ihType : Local bs typeArgs) (span : Span) (ctxt : Nat) :
    Local bs (.call span ctxt callee args typeArgs) := by
  refine ⟨fun {c d} level => ?_, list ihArgs⟩
  have arguments := list ihArgs (c := c.within span) (d := d.within span) level
  simp only [references]
  cases bs.callee? callee with
  | none =>
      simp only [outlines_append, arguments,
        ihCallee.all (c := c.within span) (d := d.within span) level,
        ihType.all (c := c.within span) (d := d.within span) level]
  | some b =>
      simp only [outlines, List.map_cons, Context.outline_unconsumed] at arguments ⊢
      rw [arguments, level]

theorem declarator {target init : Tree} (ihTarget : Local bs target) (ihInit : Local bs init)
    (span : Span) (definite : Bool) : Local bs (.declarator span target init definite) := by
  refine ⟨fun {c d} level => ?_, fun _ => rfl⟩
  have inTarget := ihTarget.all (c := c.within span) (d := d.within span) level
  simp only [references]
  cases bs.call? init with
  | none =>
      simp only [outlines_append, inTarget,
        ihInit.all (c := c.within span) (d := d.within span) level]
  | some m =>
      have arguments := ihInit.arguments (c := c.within m.span) (d := d.within m.span) level
      simp only [outlines, List.map_append, List.map_cons, Context.outline_record_usage]
        at inTarget arguments ⊢
      rw [inTarget, arguments, level]

end Local

theorem isLocal (t : Tree) : Local bs t := by
  have nothing {c d : Context} (_ : c.Level d) : outlines [] = outlines [] := rfl
  induction t with
  | absent | leaf _ | context _ | name _ _ | string _ => exact ⟨nothing, nothing⟩
  | ident role id =>
      cases role with
      | expr =>
          refine ⟨fun {c d} level => ?_, nothing⟩
          simp only [references]
          cases bs.named? id.var with
          | none => rfl
          | some b => exact congrArg (fun atRoot => ([⟨b, atRoot, none⟩] : List Outline)) level
      | _ => exact ⟨nothing, nothing⟩
  | shorthand id =>
      refine ⟨fun {c d} level => ?_, nothing⟩
      simp only [references]
      cases bs.named? id.var with
      | none => rfl
      | some b => exact congrArg (fun atRoot => ([⟨b, atRoot, none⟩] : List Outline)) level
  | items _ ih => exact ⟨Local.list ih, nothing⟩
  | binding _ _ ih | arg _ _ ih => exact ⟨ih.all, nothing⟩
  | exportDecl span _ ih | importDecl span _ _ _ _ _ ih =>
      exact ⟨fun {c d} level => ih.all (c := c.within span) (d := d.within span) level, nothing⟩
  | exportNamed span specifiers source _ _ _ =>
      refine ⟨fun {c d} level => ?_, nothing⟩
      simp only [references]
      split
      · rfl
      · simp only [outlines, List.map_flatMap]
        exact List.flatMap_congr fun s _ => s.outlines_references level
  | paren role span _ ih => exact ih.paren role span
  | member role span _ _ ihObject ihProperty => exact ihObject.member ihProperty role span
  | call span ctxt _ _ _ ihCallee ihArgs ihType => exact ihCallee.call ihArgs ihType span ctxt
  | declaration _ _ _ _ _ _ ih =>
      exact ⟨fun level => Local.list ih (level.enter _ _ _ _), nothing⟩
  | declarator span _ _ definite ihTarget ihInit => exact ihTarget.declarator ihInit span definite
  | objectPattern _ _ _ _ ihProperties ihType =>
      refine ⟨fun level => ?_, nothing⟩
      simp only [references, outlines_append, Local.list ihProperties level, ihType.all level]
  | patternShorthand _ _ _ _ ihA ihB | patternPair _ _ ihA ihB =>
      refine ⟨fun level => ?_, nothing⟩
      simp only [references, outlines_append, ihA.all level, ihB.all level]
  | pair key value ihKey ihValue =>
      refine ⟨fun {c d} level => ?_, nothing⟩
      have within (span : Span) : (c.within span).Level (d.within span) := level
      simp only [references, outlines_append, ihKey.all (within _), ihValue.all (within _)]
  | getter span _ _ _ ihKey _ ihBody =>
      refine ⟨fun {c d} level => ?_, nothing⟩
      have within : (c.within span).Level (d.within span) := level
      simp only [references, outlines_append, ihKey.all within,
        ihBody.all (.below (c.within span) (d.within span))]
  | scope role _ span _ _ ihOuter ihInner =>
      refine ⟨fun {c d} level => ?_, nothing⟩
      have below := Context.Level.below (c.enter role span) (d.enter role span)
      simp only [references, outlines_append, Local.list ihOuter (level.enter role role span span),
        Local.list ihInner below]
  | moduleBlock _ _ ih => exact ⟨fun _ => Local.list ih (.below _ _), nothing⟩
  | node _ _ _ _ ih => exact ⟨fun level => Local.list ih (level.enter _ _ _ _), nothing⟩

end Tree

/-! ### Plans -/

def Outline.site? (o : Outline) : Option Site :=
  o.use.map fun (specifier, pattern) => ⟨o.binding, specifier, pattern⟩

theorem Reference.site?_outline (r : Reference) : r.outline.site? = r.site? := by
  obtain ⟨b, span, atRoot, usage⟩ := r
  cases usage <;> rfl

theorem Reference.isSome_fault? (r : Reference) : r.fault?.isSome = r.outline.use.isNone := by
  obtain ⟨b, span, atRoot, usage⟩ := r
  cases usage <;> rfl

/-- The kind of failure that references with these outlines lead to. -/
def failureKind? (os : List Outline) (order : List Nat) : Option FailureKind :=
  if os.any (!·.atRoot) then some .scopeViolation
  else if order.any fun i => os[i]?.any (·.use.isNone) then some .malformedUsage
  else none

namespace Plan

theorem map_kind_failure? (source : Option String) (refs : List Reference) (order : List Nat) :
    (failure? source refs order).map Failure.kind = failureKind? (outlines refs) order := by
  have below : (outlines refs).any (!·.atRoot) = (refs.find? (!·.atRoot)).isSome := by
    rw [outlines, List.any_map, List.isSome_find?]
    rfl
  have faulty : (order.any fun i => (outlines refs)[i]?.any (·.use.isNone)) =
      (order.findSome? fun i => refs[i]?.bind Reference.fault?).isSome := by
    rw [List.isSome_findSome?]
    refine congrArg order.any (funext fun i => ?_)
    rw [outlines, List.getElem?_map]
    cases refs[i]? with
    | none => rfl
    | some r => exact r.isSome_fault?.symm
  simp only [failure?, failureKind?, below, faulty]
  cases refs.find? (!·.atRoot) with
  | some r => rfl
  | none => cases order.findSome? fun i => refs[i]?.bind Reference.fault? <;> rfl

variable {refs refs' : List Reference}

theorem processingOrder_eq_of_outlines (bs : Bindings) (same : outlines refs' = outlines refs) :
    processingOrder bs refs' = processingOrder bs refs := by
  have length : refs'.length = refs.length := by
    simpa only [outlines, List.length_map] using congrArg List.length same
  have binding (i : Nat) : refs'[i]?.map (·.binding) = refs[i]?.map (·.binding) := by
    have found := congrArg (fun os : List Outline => os[i]?.map (·.binding)) same
    simp only [outlines, List.getElem?_map, Option.map_map] at found
    exact found
  simp only [processingOrder, length, binding]

theorem filterMap_site?_eq_of_outlines (same : outlines refs' = outlines refs) :
    refs'.filterMap Reference.site? = refs.filterMap Reference.site? := by
  have sites (rs : List Reference) :
      rs.filterMap Reference.site? = (outlines rs).filterMap Outline.site? := by
    simp only [outlines, List.filterMap_map, Function.comp_def, Reference.site?_outline]
  rw [sites, sites, same]

/-- Two modules have the same plan, or fail alike, if their references have the same
outlines. -/
theorem mapError_kind_ofModule {m m' : Module} (source source' : Option String)
    (bindings : Bindings.discover m'.body = Bindings.discover m.body)
    (names : m'.names = m.names)
    (same : outlines (m'.references (.discover m.body)) =
      outlines (m.references (.discover m.body))) :
    (ofModule m' source').mapError Failure.kind = (ofModule m source).mapError Failure.kind := by
  simp only [ofModule, bindings, names, processingOrder_eq_of_outlines _ same,
    filterMap_site?_eq_of_outlines same]
  have kinds := map_kind_failure? source' (m'.references (.discover m.body))
    (processingOrder (.discover m.body) (m.references (.discover m.body)))
  rw [same, ← map_kind_failure? source] at kinds
  split
  · rfl
  · revert kinds
    cases failure? source' (m'.references (.discover m.body))
        (processingOrder (.discover m.body) (m.references (.discover m.body))) <;>
      cases failure? source (m.references (.discover m.body))
        (processingOrder (.discover m.body) (m.references (.discover m.body))) <;>
      simp [Except.mapError]

end Plan
end MockImport
