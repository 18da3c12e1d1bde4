import MockImport.Proofs.Parts
import MockImport.Proofs.Planning

/-!
Spans of nodes that come from one text: a node reaches over its parts. What stands somewhere
below a node then lies within its span, however far down.
-/

namespace MockImport

namespace Span

/-- It starts no later than it stops. -/
def Proper (s : Span) : Prop := s.start ≤ s.stop

/-- Nothing of the first span is outside the second. -/
def Within (a b : Span) : Prop := b.start ≤ a.start ∧ a.stop ≤ b.stop

instance (s : Span) : Decidable s.Proper := inferInstanceAs (Decidable (s.start ≤ s.stop))

instance (a b : Span) : Decidable (a.Within b) :=
  inferInstanceAs (Decidable (b.start ≤ a.start ∧ a.stop ≤ b.stop))

theorem Within.refl (s : Span) : s.Within s := ⟨Nat.le_refl _, Nat.le_refl _⟩

theorem Within.trans {a b c : Span} (inner : a.Within b) (outer : b.Within c) : a.Within c :=
  ⟨Nat.le_trans outer.1 inner.1, Nat.le_trans inner.2 outer.2⟩

end Span

/-- The spans of an export specifier and of the variable that it exports. -/
def ExportSpecifier.subject? : ExportSpecifier → Option (Span × Span)
  | .named span (.ident subject) _ _ => some (span, subject.span)
  | _ => none

namespace Tree

/-- The node is one of the source text; other trees only hold nodes. -/
def hasSpan : Tree → Bool
  | .absent | .leaf _ | .context _ | .items _ | .binding _ _ | .arg _ _ => false
  | _ => true

mutual

/-- The spans of the topmost nodes of a tree. -/
def extents : Tree → List Span
  | .absent | .leaf _ | .context _ => []
  | .items trees => extentsList trees
  | .binding id typing => id.span :: extents typing
  | .arg _ value => extents value
  | t => [t.span]

def extentsList : List Tree → List Span
  | [] => []
  | t :: rest => extents t ++ extentsList rest

end

/-- The variables that an export list of the module itself mentions. -/
def subjects : Tree → List (Span × Span)
  | .exportNamed _ specifiers none _ _ => specifiers.filterMap ExportSpecifier.subject?
  | _ => []

/-- The node reaches over its parts. -/
structure SpansParts (t : Tree) : Prop where
  proper : t.hasSpan = true → t.span.Proper
  parts : t.hasSpan = true → ∀ p ∈ t.parts, ∀ s ∈ p.2.extents, s.Within t.span
  subjects : ∀ p ∈ t.subjects, p.2.Proper ∧ p.2.Within p.1 ∧ p.1.Within t.span

/-- Every node of the tree reaches over its parts. -/
def Nested (t : Tree) : Prop := ∀ way u, t.Holds [] way u → u.SpansParts

mutual

/-- All nodes of a tree. -/
def nodes : Tree → List Tree
  | .items trees => .items trees :: nodesList trees
  | .binding id typing => .binding id typing :: nodes typing
  | .paren role span inner => .paren role span inner :: nodes inner
  | .member role span object property =>
      .member role span object property :: (nodes object ++ nodes property)
  | .call span ctxt callee args typeArgs =>
      .call span ctxt callee args typeArgs :: (nodes callee ++ (nodesList args ++ nodes typeArgs))
  | .arg spread value => .arg spread value :: nodes value
  | .variables role span ctxt kind declare declarators =>
      .variables role span ctxt kind declare declarators :: nodesList declarators
  | .declarator span target init definite =>
      .declarator span target init definite :: (nodes target ++ nodes init)
  | .objectPattern span properties optional typing =>
      .objectPattern span properties optional typing :: (nodesList properties ++ nodes typing)
  | .patternShorthand span key typing value =>
      .patternShorthand span key typing value :: (nodes typing ++ nodes value)
  | .patternPair key value => .patternPair key value :: (nodes key ++ nodes value)
  | .pair key value => .pair key value :: (nodes key ++ nodes value)
  | .getter span key typing body =>
      .getter span key typing body :: (nodes key ++ (nodes typing ++ nodes body))
  | .importDecl span specifiers source typeOnly attributes phase =>
      .importDecl span specifiers source typeOnly attributes phase :: nodes attributes
  | .exportNamed span specifiers source typeOnly attributes =>
      .exportNamed span specifiers source typeOnly attributes :: nodes attributes
  | .exportDecl span declaration => .exportDecl span declaration :: nodes declaration
  | .scope role kind span outer inner =>
      .scope role kind span outer inner :: (nodesList outer ++ nodesList inner)
  | .moduleBlock span body => .moduleBlock span body :: nodesList body
  | .node role kind span fields => .node role kind span fields :: nodesList fields
  | t => [t]

def nodesList : List Tree → List Tree
  | [] => []
  | t :: rest => nodes t ++ nodesList rest

end

theorem nodesList_eq_flatMap (ts : List Tree) : nodesList ts = ts.flatMap nodes := by
  induction ts with
  | nil => rfl
  | cons t rest ih => rw [nodesList, ih, List.flatMap_cons]

theorem nodes_eq (t : Tree) : t.nodes = t :: t.parts.flatMap fun p => p.2.nodes := by
  cases t <;> simp [nodes, parts, nodesList_eq_flatMap, List.flatMap_map]

theorem extentsList_eq_flatMap (ts : List Tree) : extentsList ts = ts.flatMap extents := by
  induction ts with
  | nil => rfl
  | cons t rest ih => rw [extentsList, ih, List.flatMap_cons]

theorem extents_of_hasSpan {t : Tree} (spanned : t.hasSpan = true) : t.extents = [t.span] := by
  cases t <;> first | rfl | cases spanned

/-- A tree that is no node of the text has the extents of its parts. -/
theorem extents_of_part {t : Tree} (unspanned : t.hasSpan = false) {p : Place × Tree}
    (mem : p ∈ t.parts) : p.2.extents ⊆ t.extents := by
  cases t with
  | items trees =>
      obtain ⟨u, isMember, rfl⟩ := List.mem_map.mp mem
      intro s inside
      rw [extents, extentsList_eq_flatMap]
      exact List.mem_flatMap.mpr ⟨u, isMember, inside⟩
  | binding id typing =>
      obtain rfl := List.mem_singleton.mp mem
      exact List.subset_cons_self _ _
  | arg spread value =>
      obtain rfl := List.mem_singleton.mp mem
      exact List.Subset.refl _
  | absent | leaf _ | context _ => cases mem
  | _ => cases unspanned

/-- What holds of all nodes of a tree can be checked one by one. -/
theorem forall_nodes_iff {P : Tree → Prop} (t : Tree) (above : Way) :
    (∀ u ∈ t.nodes, P u) ↔ ∀ way u, t.Holds above way u → P u := by
  induction t using parts_induction generalizing above with
  | step t ih =>
      rw [nodes_eq, List.forall_mem_cons]
      constructor
      · rintro ⟨here, below⟩ way u holds
        obtain ⟨-, rfl⟩ | ⟨p, mem, inside⟩ := holds_iff.mp holds
        · exact here
        · refine (ih p mem _).mp (fun v isNode => below v ?_) way u inside
          exact List.mem_flatMap.mpr ⟨p, mem, isNode⟩
      · intro all
        refine ⟨all above t .here, fun v isNode => ?_⟩
        obtain ⟨p, mem, isNode⟩ := List.mem_flatMap.mp isNode
        refine (ih p mem (⟨t, p.1⟩ :: above)).mpr (fun way u inside => ?_) v isNode
        exact all way u (holds_iff.mpr (.inr ⟨p, mem, inside⟩))

instance (t : Tree) : Decidable t.SpansParts :=
  decidable_of_iff ((t.hasSpan = true → t.span.Proper) ∧
      (t.hasSpan = true → ∀ p ∈ t.parts, ∀ s ∈ p.2.extents, s.Within t.span) ∧
      ∀ p ∈ t.subjects, p.2.Proper ∧ p.2.Within p.1 ∧ p.1.Within t.span)
    ⟨fun ⟨proper, parts, subjects⟩ => ⟨proper, parts, subjects⟩,
      fun ⟨proper, parts, subjects⟩ => ⟨proper, parts, subjects⟩⟩

end Tree

namespace Module

variable {m : Module}

/-- Every node of the module reaches over its parts. -/
def Nested (m : Module) : Prop := ∀ way t, m.Holds way t → t.SpansParts

theorem forall_nodes_iff {P : Tree → Prop} (m : Module) :
    (∀ t ∈ Tree.nodesList m.body, P t) ↔ ∀ way t, m.Holds way t → P t := by
  simp only [Tree.nodesList_eq_flatMap, List.mem_flatMap]
  constructor
  · rintro all way t ⟨item, isItem, holds⟩
    refine (item.forall_nodes_iff []).mp (fun u isNode => ?_) way t holds
    exact all u ⟨item, isItem, isNode⟩
  · rintro all t ⟨item, isItem, isNode⟩
    refine (item.forall_nodes_iff []).mpr (fun way u holds => ?_) t isNode
    exact all way u ⟨item, isItem, holds⟩

instance (m : Module) : Decidable m.Nested :=
  decidable_of_iff (∀ t ∈ Tree.nodesList m.body, t.SpansParts) m.forall_nodes_iff

/-- What stands at the end of a way lies within every node on the way. -/
theorem within_of_step (nested : m.Nested) {way : Way} {t : Tree} (holds : m.Holds way t)
    {step : Step} (onWay : step ∈ way) (spanned : step.parent.hasSpan = true) :
    ∀ s ∈ t.extents, s.Within step.parent.span := by
  obtain ⟨item, isItem, holds⟩ := holds
  induction holds with
  | here => cases onWay
  | @part way t u place holds mem ih =>
      obtain rfl | further := List.mem_cons.mp onWay
      · exact (nested way t ⟨item, isItem, holds⟩).parts spanned _ mem
      · intro s inside
        cases own : t.hasSpan with
        | false => exact ih further s (Tree.extents_of_part own mem inside)
        | true =>
            have near := (nested way t ⟨item, isItem, holds⟩).parts own _ mem s inside
            refine near.trans (ih further t.span ?_)
            rw [Tree.extents_of_hasSpan own]
            exact List.mem_singleton_self _

end Module

namespace Sample

/-- The identifier where it starts in a text. -/
def identAt (start : Nat) (name : String) : Tree :=
  .ident .expr ⟨⟨start, start + name.length⟩, ⟨name, 2⟩, false⟩

/-- `import { mock } from "@userlike/joke";` as the start of a text. -/
def importMockAt : Tree :=
  .importDecl ⟨1, 39⟩ [.named ⟨10, 14⟩ ⟨⟨10, 14⟩, ⟨mockName, 2⟩, false⟩ none false]
    ⟨⟨22, 38⟩, mockModule, none⟩ false .absent "evaluation"

/-- `mock(import("specifier"))` where it starts in a text. -/
def mockedAt (start : Nat) (specifier : String) : Tree :=
  .call ⟨start, start + 16 + specifier.length⟩ 0 (identAt start mockName)
    [.arg none (.call ⟨start + 5, start + 15 + specifier.length⟩ 0
      (.node .plain .importKeyword ⟨start + 5, start + 11⟩ [.leaf (.text "evaluation")])
      [.arg none (.string ⟨⟨start + 12, start + 14 + specifier.length⟩, specifier, none⟩)]
      .absent)] .absent

end Sample

end MockImport
