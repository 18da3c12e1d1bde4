import MockImport.Proofs.Clearing
import MockImport.Proofs.Recording

/-!
Assignment targets. A binding that is only assigned to is not read, so nothing is recorded of
it, unless the target stands where an expression does: in parentheses, or as a member access
inside a pattern or a loop head.
-/

namespace MockImport

/-- Which fields of a node are assigned to, by whether the node itself is. -/
def Kind.aims (aimed : Bool) : Kind → List Tree → List Bool
  | .assignmentExpression, .leaf (.text "=") :: _ => [false, true]
  | .arrayPattern, _ => [aimed]
  | .assignmentPattern, _ => [aimed]
  | .restElement, _ => [false, aimed]
  | _, _ => []

/-- Which fields of a loop are assigned to in every round. -/
def ScopeKind.aims : ScopeKind → List Bool
  | .forInStatement => [true]
  | .forOfStatement => [false, true]
  | _ => []

namespace Tree

mutual

/-- The tree and all that is searched for references in it, with what is assigned to. -/
def standings (aimed : Bool) : Tree → List (Bool × Tree)
  | .items trees => (aimed, .items trees) :: standingsList [] aimed trees
  | .binding id typing => (aimed, .binding id typing) :: standings false typing
  | .paren role span inner => (aimed, .paren role span inner) :: standings aimed inner
  | .member role span object property =>
      (aimed, .member role span object property) ::
        (standings false object ++ standings false property)
  | .call span ctxt callee args typeArgs =>
      (aimed, .call span ctxt callee args typeArgs) ::
        (standings false callee ++ standingsList [] false args ++ standings false typeArgs)
  | .arg spread value => (aimed, .arg spread value) :: standings false value
  | .variables role span ctxt kind declare declarators =>
      (aimed, .variables role span ctxt kind declare declarators) ::
        standingsList [] false declarators
  | .declarator span target init definite =>
      (aimed, .declarator span target init definite) ::
        (standings false target ++ standings false init)
  | .objectPattern span properties optional typing =>
      (aimed, .objectPattern span properties optional typing) ::
        (standingsList [] aimed properties ++ standings false typing)
  | .patternShorthand span key typing value =>
      (aimed, .patternShorthand span key typing value) ::
        (standings false typing ++ standings false value)
  | .patternPair key value =>
      (aimed, .patternPair key value) :: (standings false key ++ standings aimed value)
  | .pair key value => (aimed, .pair key value) :: (standings false key ++ standings false value)
  | .getter span key typing body =>
      (aimed, .getter span key typing body) :: (standings false key ++ standings false body)
  | .importDecl span specifiers source typeOnly attributes phase =>
      (aimed, .importDecl span specifiers source typeOnly attributes phase) ::
        standings false attributes
  | .exportDecl span declaration => (aimed, .exportDecl span declaration) ::
      standings false declaration
  | .scope role kind span outer inner =>
      (aimed, .scope role kind span outer inner) ::
        (standingsList [] false outer ++ standingsList kind.aims false inner)
  | .moduleBlock span body => (aimed, .moduleBlock span body) :: standingsList [] false body
  | .node role kind span fields =>
      (aimed, .node role kind span fields) :: standingsList (kind.aims aimed fields) false fields
  | t => [(aimed, t)]

/-- The same of a list, whose members are assigned to as the first list says of them, and as
the second argument says of those that it does not reach. -/
def standingsList (aims : List Bool) (aimed : Bool) : List Tree → List (Bool × Tree)
  | [] => []
  | t :: rest => standings (aims.headD aimed) t ++ standingsList aims.tail aimed rest

end

/-- A mention of the mock function wherever an identifier or a member access can stand. -/
def isMention (bs : Bindings) : Tree → Bool
  | .ident _ id | .binding id _ | .shorthand id | .patternShorthand _ id _ _ =>
      (bs.named? id.var).isSome
  | .member _ _ object property => (bs.member? object property).isSome
  | .exportNamed _ specifiers none _ _ => specifiers.any (·.mentions bs)
  | _ => false

variable {bs : Bindings} {t u : Tree}

theorem isMention_of_isRead (read : t.isRead bs = true) : t.isMention bs = true := by
  cases t with
  | ident role id =>
      cases role with
      | expr => exact read
      | _ => cases read
  | member role span object property =>
      cases role with
      | expr => exact read
      | _ => cases read
  | shorthand id => exact read
  | exportNamed _ _ source _ _ =>
      cases source with
      | none => exact read
      | some _ => cases read
  | _ => cases read

/-- Only what is read is recorded. -/
theorem Recorded.isRead {way : Way} {r : Reference} (recorded : t.Recorded bs way r) :
    t.isRead bs = true := by
  have of_refers {t : Tree} {b : Nat} (refers : bs.reference? t = some b) :
      t.isRead bs = true := by
    cases t with
    | ident role id =>
        cases role with
        | expr => exact Option.isSome_of_eq_some refers
        | _ => cases refers
    | member role span object property =>
        cases role with
        | expr => exact Option.isSome_of_eq_some refers
        | _ => cases refers
    | _ => cases refers
  cases recorded with
  | shorthand _ bound => exact Option.isSome_of_eq_some bound
  | exported _ _ _ _ mem bound =>
      exact List.any_eq_true.mpr ⟨_, mem, Option.isSome_of_eq_some bound⟩
  | uncalled _ refers _ => exact of_refers refers
  | called _ refers _ _ => exact of_refers refers

theorem referencesList_eq_nil_iff {ts : List Tree}
    (each : ∀ t ∈ ts, ∀ c a, references bs c t = [] ↔ ∀ p ∈ standings a t, p.2.isRead bs = false)
    (c : Context) (aims : List Bool) (aimed : Bool) :
    referencesList bs c ts = [] ↔ ∀ p ∈ standingsList aims aimed ts, p.2.isRead bs = false := by
  induction ts generalizing aims with
  | nil => exact iff_of_true rfl (List.forall_mem_nil _)
  | cons t rest ih =>
      obtain ⟨here, later⟩ := List.forall_mem_cons.mp each
      rw [referencesList, standingsList, List.append_eq_nil_iff, List.forall_mem_append,
        here c (aims.headD aimed), ih later]

/-- A tree has no references just when nothing in it is read, wherever it stands. -/
theorem references_eq_nil_iff (t : Tree) (c : Context) (aimed : Bool) :
    references bs c t = [] ↔ ∀ p ∈ standings aimed t, p.2.isRead bs = false := by
  induction t generalizing c aimed with
  | absent | leaf _ | context _ | name _ _ | string _ =>
      exact iff_of_true rfl (List.forall_mem_singleton.mpr rfl)
  | ident role id =>
      change _ ↔ ∀ p ∈ [(aimed, Tree.ident role id)], p.2.isRead bs = false
      rw [references_ident_eq_nil_iff, List.forall_mem_singleton]
  | shorthand id =>
      change _ ↔ ∀ p ∈ [(aimed, Tree.shorthand id)], p.2.isRead bs = false
      rw [references_shorthand_eq_nil_iff, List.forall_mem_singleton]
  | exportNamed span specifiers source typeOnly attributes _ =>
      change _ ↔ ∀ p ∈ [(aimed, Tree.exportNamed span specifiers source typeOnly attributes)],
        p.2.isRead bs = false
      rw [references_exportNamed_eq_nil_iff, List.forall_mem_singleton]
  | paren role span inner ih =>
      simp only [references_paren_eq_nil_iff, standings, List.forall_mem_cons, ih _ aimed, isRead,
        true_and]
  | member role span object property ihObject ihProperty =>
      simp only [references_member_eq_nil_iff, standings, List.forall_mem_cons,
        List.forall_mem_append, ihObject _ false, ihProperty _ false]
  | call span ctxt callee args typeArgs ihCallee ihArgs ihTypes =>
      simp only [references_call_eq_nil_iff, standings, List.forall_mem_cons,
        List.forall_mem_append, ihCallee _ false, referencesList_eq_nil_iff ihArgs _ [] false,
        ihTypes _ false, and_assoc, isRead, true_and]
  | declarator span target init definite ihTarget ihInit =>
      simp only [references_declarator_eq_nil_iff, standings, List.forall_mem_cons,
        List.forall_mem_append, ihTarget _ false, ihInit _ false, isRead, true_and]
  | binding _ _ ih | arg _ _ ih | importDecl _ _ _ _ _ _ ih | exportDecl _ _ ih =>
      simp only [references, standings, List.forall_mem_cons, ih _ false, isRead, true_and]
  | items _ ih =>
      simp only [references, standings, List.forall_mem_cons,
        referencesList_eq_nil_iff ih _ [] aimed, isRead, true_and]
  | declaration _ _ _ _ _ _ ih | moduleBlock _ _ ih =>
      simp only [references, standings, List.forall_mem_cons,
        referencesList_eq_nil_iff ih _ [] false, isRead, true_and]
  | node role kind span fields ih =>
      simp only [references, standings, List.forall_mem_cons,
        referencesList_eq_nil_iff ih _ (kind.aims aimed fields) false, isRead, true_and]
  | scope role kind span outer inner ihOuter ihInner =>
      simp only [references, standings, List.forall_mem_cons, List.forall_mem_append,
        List.append_eq_nil_iff, referencesList_eq_nil_iff ihOuter _ [] false,
        referencesList_eq_nil_iff ihInner _ kind.aims false, isRead, true_and]
  | objectPattern _ properties _ typing ihProperties ihTyping =>
      simp only [references, standings, List.forall_mem_cons, List.forall_mem_append,
        List.append_eq_nil_iff, referencesList_eq_nil_iff ihProperties _ [] aimed,
        ihTyping _ false, isRead, true_and]
  | patternPair key value ihKey ihValue =>
      simp only [references, standings, List.forall_mem_cons, List.forall_mem_append,
        List.append_eq_nil_iff, ihKey _ false, ihValue _ aimed, isRead, true_and]
  | patternShorthand _ _ _ _ ihA ihB | pair _ _ ihA ihB | getter _ _ _ _ ihA _ ihB =>
      simp only [references, standings, List.forall_mem_cons, List.forall_mem_append,
        List.append_eq_nil_iff, ihA _ false, ihB _ false, isRead, true_and]

end Tree

namespace Module

/-- All that is searched for references in a module, with what is assigned to. -/
def standings (m : Module) : List (Bool × Tree) := Tree.standingsList [] false m.body

/-- Outside of import declarations, the bindings are assigned to and not mentioned otherwise. -/
def OnlyAssigns (bs : Bindings) (m : Module) : Prop :=
  ∀ p ∈ m.standings, p.1 = false → p.2.isMention bs = false

instance (bs : Bindings) (m : Module) : Decidable (m.OnlyAssigns bs) :=
  inferInstanceAs (Decidable (∀ p ∈ m.standings, p.1 = false → p.2.isMention bs = false))

theorem references_eq_nil_iff (m : Module) (bs : Bindings) :
    m.references bs = [] ↔ ∀ p ∈ m.standings, p.2.isRead bs = false :=
  Tree.referencesList_eq_nil_iff (fun t _ => t.references_eq_nil_iff) .root [] false

end Module

namespace Plan

variable {m : Module} {source : Option String}

theorem sites_eq_nil_iff {plan : Plan} (ok : ofModule m source = .ok plan) :
    plan.sites = [] ↔ m.references (.discover m.body) = [] := by
  obtain ⟨-, rfl⟩ := ofModule_eq_ok_iff.mp ok
  have sites := sites_of_ok ok
  constructor
  · intro empty
    rw [empty] at sites
    exact List.map_eq_nil_iff.mp sites
  · intro empty
    exact congrArg (List.filterMap Reference.site?) empty

/-- A module has a plan without call sites just when nothing is recorded. -/
theorem exists_without_sites_iff :
    (∃ plan, ofModule m source = .ok plan ∧ plan.sites = []) ↔
      m.references (.discover m.body) = [] := by
  constructor
  · rintro ⟨plan, ok, empty⟩
    exact (sites_eq_nil_iff ok).mp empty
  · intro empty
    have ok : ofModule m source = .ok (drawn m) :=
      ofModule_eq_ok_iff.mpr ⟨by rw [empty]; exact List.forall_mem_nil _, rfl⟩
    exact ⟨_, ok, (sites_eq_nil_iff ok).mpr empty⟩

end Plan

namespace Module

/-- Only what is read is recorded. A module that does nothing with its bindings but assign to
them has a plan without call sites just when no target is read as an expression. -/
theorem targets_unrecorded (m : Module) (source : Option String) :
    (∀ r ∈ m.references (.discover m.body), ∃ way t, m.Holds way t ∧
      t.Recorded (.discover m.body) way r ∧ t.isRead (.discover m.body) = true) ∧
    (m.OnlyAssigns (.discover m.body) →
      ((∃ plan, Plan.ofModule m source = .ok plan ∧ plan.sites = []) ↔
        ∀ p ∈ m.standings, p.1 = true → p.2.isRead (.discover m.body) = false)) := by
  constructor
  · intro r isReference
    obtain ⟨way, t, holds, -, recorded⟩ := m.references_recorded _ r isReference
    exact ⟨way, t, holds, recorded, recorded.isRead⟩
  · intro only
    rw [Plan.exists_without_sites_iff, references_eq_nil_iff]
    refine forall₂_congr fun p mem => ?_
    constructor
    · intro unread _
      exact unread
    · intro unread
      cases aimed : p.1 with
      | true => exact unread aimed
      | false =>
          have unmentioned := only p mem aimed
          cases read : p.2.isRead (.discover m.body) with
          | false => rfl
          | true =>
              rw [Tree.isMention_of_isRead read] at unmentioned
              cases unmentioned

end Module

namespace Sample

/-- `target = other` -/
def assign (target : Tree) : Tree :=
  statement (.node .expr .assignmentExpression .generated
    [.leaf (.text "="), target, ident "other"])

/-- `import { mock } from "@userlike/joke"; mock = other; [{ a: mock }, ...mock] = other;` -/
def reassigned : Module :=
  let target := Tree.binding (.generated ⟨mockName, 2⟩) .absent
  ⟨.generated, [importMock, assign target,
    assign (.node .plain .arrayPattern .generated
      [.items [.objectPattern .generated [.patternPair (.name .generated "a") target] false .absent,
        .node .plain .restElement .generated [.leaf .null, target, .absent]],
        .leaf (.bool false), .absent])], none⟩

/-- `import { mock } from "@userlike/joke"; (mock) = other;` -/
def reassignedInParens : Module :=
  ⟨.generated, [importMock, assign (.paren .plain .generated (ident mockName))], none⟩

end Sample

namespace Module

theorem targets_unrecorded_patterns :
    Sample.reassigned.OnlyAssigns (.discover Sample.reassigned.body) ∧
      ∃ plan, Plan.ofModule Sample.reassigned none = .ok plan ∧ plan.sites = [] := by
  have only : Sample.reassigned.OnlyAssigns (.discover Sample.reassigned.body) := by decide
  have drawn := (targets_unrecorded Sample.reassigned none).2 only
  exact ⟨only, drawn.mpr (by decide)⟩

/-- In parentheses, the target counts as a use of the mock function. -/
theorem target_recorded_in_parens :
    Sample.reassignedInParens.OnlyAssigns (.discover Sample.reassignedInParens.body) ∧
      Plan.ofModule Sample.reassignedInParens none =
        .error (.malformedUsage .generated "<unknown source>") :=
  ⟨by decide, rfl⟩

end Module

end MockImport
