import Mathlib.Data.List.Forall2
import MockImport.Proofs.Acceptance
import MockImport.Renaming
import MockImport.Settling

/-!
Settling and renaming seen through the parts of a node. Settling leaves a node that is
no call site in place and settles its parts, except that a declaration loses the
declarators that are call sites and a block of module items loses emptied ones.
-/

namespace MockImport

namespace Tree

@[elab_as_elim]
theorem parts_induction {P : Tree → Prop} (step : ∀ t, (∀ p ∈ t.parts, P p.2) → P t)
    (t : Tree) : P t := by
  induction t with
  | absent | leaf _ | context _ | ident _ _ | name _ _ | string _ | shorthand _ =>
      exact step _ (List.forall_mem_nil _)
  | items _ ih | declaration _ _ _ _ _ _ ih | moduleBlock _ _ ih | node _ _ _ _ ih =>
      exact step _ (List.forall_mem_map.mpr ih)
  | binding _ _ ih | paren _ _ _ ih | arg _ _ ih | importDecl _ _ _ _ _ _ ih
  | exportNamed _ _ _ _ _ ih | exportDecl _ _ ih =>
      exact step _ (List.forall_mem_singleton.mpr ih)
  | member _ _ _ _ ihA ihB | declarator _ _ _ _ ihA ihB | patternShorthand _ _ _ _ ihA ihB
  | patternPair _ _ ihA ihB | pair _ _ ihA ihB =>
      exact step _ (List.forall_mem_cons.mpr ⟨ihA, List.forall_mem_singleton.mpr ihB⟩)
  | call _ _ _ _ _ ihCallee ihArgs ihType =>
      refine step _ (List.forall_mem_cons.mpr ⟨ihCallee, List.forall_mem_append.mpr ⟨?_, ?_⟩⟩)
      · exact List.forall_mem_map.mpr ihArgs
      · exact List.forall_mem_singleton.mpr ihType
  | objectPattern _ _ _ _ ihProperties ihType =>
      refine step _ (List.forall_mem_append.mpr ⟨List.forall_mem_map.mpr ihProperties, ?_⟩)
      exact List.forall_mem_singleton.mpr ihType
  | getter _ _ _ _ ihKey ihType ihBody =>
      refine step _ (List.forall_mem_cons.mpr ⟨ihKey, List.forall_mem_cons.mpr ⟨ihType, ?_⟩⟩)
      exact List.forall_mem_singleton.mpr ihBody
  | scope _ _ _ _ _ ihOuter ihInner =>
      exact step _ (List.forall_mem_append.mpr
        ⟨List.forall_mem_map.mpr ihOuter, List.forall_mem_map.mpr ihInner⟩)

/-- What holds of a node wherever the tree stands does not depend on where that is. -/
theorem Holds.elsewhere {root u : Tree} {above way : Way} (holds : root.Holds above way u)
    (above' : Way) : ∃ way', root.Holds above' way' u := by
  induction holds with
  | here => exact ⟨above', .here⟩
  | part _ mem ih =>
      obtain ⟨way', holds'⟩ := ih
      exact ⟨_, holds'.part mem⟩

section

variable (r : Renaming)

/-- Renaming keeps the parts of a node and renames them, except that it writes out a
property that is one variable and leaves the attributes of an export list alone. -/
theorem parts_rename (t : Tree) :
    (rename r t).parts = t.parts.map (fun p => (p.1, rename r p.2)) ∨
      (∃ id, t = .shorthand id) ∨ (rename r t).parts = t.parts := by
  cases t with
  | shorthand id => exact .inr (.inl ⟨id, rfl⟩)
  | exportNamed _ _ source _ _ => exact .inr (.inr (by cases source <;> rfl))
  | absent | leaf _ | context _ | ident _ _ | name _ _ | string _ | binding _ _ | paren _ _ _
  | arg _ _ | importDecl _ _ _ _ _ _ | exportDecl _ _ | member _ _ _ _ | declarator _ _ _ _
  | patternShorthand _ _ _ _ | patternPair _ _ | pair _ _ | getter _ _ _ _ => exact .inl rfl
  | _ =>
      refine .inl ?_
      simp only [rename, parts, renameList_eq_map, List.map_append, List.map_cons, List.map_map,
        List.map_nil]
      rfl

end

section

variable (bs : Bindings)

/-- Settling comes to the second tree from the first, by some actions. -/
def Settled (t u : Tree) : Prop := ∃ actions, ((settle bs t).run actions).1 = u

def SettledPart (p q : Place × Tree) : Prop := p.1 = q.1 ∧ Settled bs p.2 q.2

/-- A member access on a mock call. -/
def isAccessSite : Tree → Bool
  | .member .expr _ object _ => (bs.call? object).isSome
  | _ => false

/-- A node of which settling leaves all parts. -/
def keepsParts : Tree → Bool
  | .variables .. | .exportDecl .. | .moduleBlock .. => false
  | _ => true

/-- A member access that is a call site stays or becomes the variable of its action; any
other is settled part by part. -/
theorem settle_member_cases (role : Role) (span : Span) (object property : Tree)
    (actions : List SiteAction) :
    (isAccessSite bs (.member role span object property) ∧
      (((settle bs (.member role span object property)).run actions).1 =
          .member role span object property ∨
        ∃ v, ((settle bs (.member role span object property)).run actions).1 =
          .ident .expr (.generated v))) ∨
    isAccessSite bs (.member role span object property) = false ∧
      ∃ later, ((settle bs (.member role span object property)).run actions).1 =
        .member role span ((settle bs object).run actions).1
          ((settle bs property).run later).1 := by
  rw [settle]
  split
  · next site =>
      obtain ⟨rfl, called⟩ := site
      refine .inl ⟨called, ?_⟩
      cases actions with
      | nil => exact .inl rfl
      | cons action rest =>
          cases action with
          | remove => exact .inl rfl
          | replace v => exact .inr ⟨_, rfl⟩
  · next other =>
      refine .inr ⟨?_, _, rfl⟩
      cases role with
      | expr => exact Bool.eq_false_iff.mpr fun called => other ⟨rfl, called⟩
      | _ => rfl

theorem settleList_settled (ts : List Tree) (actions : List SiteAction) :
    List.Forall₂ (Settled bs) ts ((settleList bs ts).run actions).1 := by
  induction ts generalizing actions with
  | nil => exact .nil
  | cons t rest ih => exact .cons ⟨actions, rfl⟩ (ih _)

theorem settleDeclarators_settled (ts : List Tree) (actions : List SiteAction) :
    List.Forall₂ (Settled bs) (ts.filter (!·.isDeclaratorSite bs))
      ((settleDeclarators bs ts).run actions).1 := by
  induction ts generalizing actions with
  | nil => exact .nil
  | cons t rest ih =>
      cases site : t.isDeclaratorSite bs with
      | true =>
          simp only [settleDeclarators, site, if_true, List.filter_cons, Bool.not_true,
            Bool.false_eq_true, if_false]
          exact ih _
      | false =>
          simp only [settleDeclarators, site, Bool.false_eq_true, if_false, List.filter_cons,
            Bool.not_false, if_true]
          exact .cons ⟨actions, rfl⟩ (ih _)

/-- All that settling can make of a tree. -/
inductive SettleCase : Tree → Tree → Prop
  | site {t u : Tree} (access : t.isAccessSite bs)
      (stays : u = t ∨ ∃ v, u = .ident .expr (.generated v)) : SettleCase t u
  | declaration {role : Role} {span : Span} {ctxt : Nat} {kind : String} {declare : Bool}
      {ts us : List Tree}
      (settled : List.Forall₂ (Settled bs) (ts.filter (!·.isDeclaratorSite bs)) us) :
      SettleCase (.variables role span ctxt kind declare ts)
        (.variables role span ctxt kind declare us)
  | exported {span : Span} {t u : Tree} (settled : Settled bs t u) :
      SettleCase (.exportDecl span t) (.exportDecl span u)
  | block {span : Span} {ts us : List Tree} (settled : List.Forall₂ (Settled bs) ts us) :
      SettleCase (.moduleBlock span ts) (.moduleBlock span (us.filter (!·.isEmptied)))
  | node {t u : Tree} (before : t.keepsParts) (after : u.keepsParts)
      (noSite : t.isAccessSite bs = false)
      (settled : List.Forall₂ (SettledPart bs) t.parts u.parts) : SettleCase t u

theorem forall₂_settledPart {ts us : List Tree} (settled : List.Forall₂ (Settled bs) ts us)
    (place : Place) :
    List.Forall₂ (SettledPart bs) (ts.map (place, ·)) (us.map (place, ·)) :=
  List.forall₂_map_left_iff.mpr (List.forall₂_map_right_iff.mpr
    (settled.imp fun _ _ same => ⟨rfl, same⟩))

theorem settleCase (t : Tree) (actions : List SiteAction) :
    SettleCase bs t ((settle bs t).run actions).1 := by
  have list (ts : List Tree) (place : Place) (actions : List SiteAction) :=
    forall₂_settledPart bs (settleList_settled bs ts actions) place
  cases t with
  | absent | leaf _ | context _ | ident _ _ | name _ _ | string _ | shorthand _ =>
      exact .node rfl rfl rfl .nil
  | «variables» _ _ _ _ _ ts => exact .declaration (settleDeclarators_settled bs ts actions)
  | exportDecl _ _ => exact .exported ⟨actions, rfl⟩
  | moduleBlock _ body => exact .block (settleList_settled bs body actions)
  | items ts | node _ _ _ ts => exact .node rfl rfl rfl (list ts _ _)
  | binding _ _ | paren _ _ _ | arg _ _ | importDecl _ _ _ _ _ _ | exportNamed _ _ _ _ _ =>
      exact .node rfl rfl rfl (.cons ⟨rfl, _, rfl⟩ .nil)
  | declarator _ _ _ _ | patternShorthand _ _ _ _ | patternPair _ _ | pair _ _ =>
      exact .node rfl rfl rfl (.cons ⟨rfl, _, rfl⟩ (.cons ⟨rfl, _, rfl⟩ .nil))
  | member role span object property =>
      obtain ⟨access, stays⟩ | ⟨noSite, _, same⟩ :=
        settle_member_cases bs role span object property actions
      · exact .site access stays
      · rw [same]
        exact .node rfl rfl noSite
          (.cons ⟨rfl, _, rfl⟩ (.cons ⟨rfl, _, rfl⟩ .nil))
  | call _ _ _ args _ =>
      exact .node rfl rfl rfl
        (.cons ⟨rfl, _, rfl⟩ (List.rel_append (list args _ _) (.cons ⟨rfl, _, rfl⟩ .nil)))
  | objectPattern _ properties _ _ =>
      exact .node rfl rfl rfl
        (List.rel_append (list properties _ _) (.cons ⟨rfl, _, rfl⟩ .nil))
  | getter _ _ _ _ =>
      exact .node rfl rfl rfl
        (.cons ⟨rfl, _, rfl⟩ (.cons ⟨rfl, _, rfl⟩ (.cons ⟨rfl, _, rfl⟩ .nil)))
  | scope _ _ _ outer inner =>
      exact .node rfl rfl rfl (List.rel_append (list outer _ _) (list inner _ _))

end

end Tree
end MockImport
