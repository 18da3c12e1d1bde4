import MockImport.Proofs.Pieces

/-!
What settling and renaming leave of a tree, node by node. A node stays with its parts in their
order, but for call sites and what they declare: a member access that is a call site becomes
one identifier, a declarator that is one is gone, and so is a declaration of nothing else where
module items stand.
-/

namespace MockImport

/-- The second list is the first with its entries related one by one, but for some that are
gone. -/
inductive Thinned {α β : Type} (R : α → β → Prop) (gone : α → Prop) : List α → List β → Prop
  | nil : Thinned R gone [] []
  | keep {a : α} {b : β} {as : List α} {bs : List β} (here : R a b) (later : Thinned R gone as bs) :
      Thinned R gone (a :: as) (b :: bs)
  | drop {a : α} {as : List α} {bs : List β} (here : gone a) (later : Thinned R gone as bs) :
      Thinned R gone (a :: as) bs

namespace Thinned

variable {α β γ : Type} {R : α → β → Prop} {gone : α → Prop} {as : List α} {bs : List β}

theorem of_forall₂ (related : List.Forall₂ R as bs) : Thinned R gone as bs := by
  induction related with
  | nil => exact .nil
  | cons here _ ih => exact .keep here ih

theorem of_filter {p : α → Bool} (related : List.Forall₂ R (as.filter p) bs)
    (dropped : ∀ a ∈ as, p a = false → gone a) : Thinned R gone as bs := by
  induction as generalizing bs with
  | nil => exact of_forall₂ related
  | cons a rest ih =>
      obtain ⟨head, tail⟩ := List.forall_mem_cons.mp dropped
      cases kept : p a with
      | false =>
          rw [List.filter_cons_of_neg (by rw [kept]; exact Bool.false_ne_true)] at related
          exact .drop (head kept) (ih related tail)
      | true =>
          rw [List.filter_cons_of_pos kept] at related
          cases related with
          | cons here later => exact .keep here (ih later tail)

theorem filter_right {p : β → Bool} (related : List.Forall₂ R as bs)
    (dropped : ∀ a ∈ as, ∀ b, R a b → p b = false → gone a) :
    Thinned R gone as (bs.filter p) := by
  induction related with
  | nil => exact .nil
  | @cons a b _ _ here _ ih =>
      obtain ⟨head, tail⟩ := List.forall_mem_cons.mp dropped
      cases kept : p b with
      | false =>
          rw [List.filter_cons_of_neg (by rw [kept]; exact Bool.false_ne_true)]
          exact .drop (head b here kept) (ih tail)
      | true =>
          rw [List.filter_cons_of_pos kept]
          exact .keep here (ih tail)

theorem map_right {S : α → γ → Prop} {f : β → γ} (thinned : Thinned R gone as bs)
    (each : ∀ a ∈ as, ∀ b, R a b → S a (f b)) : Thinned S gone as (bs.map f) := by
  induction thinned with
  | nil => exact .nil
  | keep here _ ih =>
      obtain ⟨head, tail⟩ := List.forall_mem_cons.mp each
      exact .keep (head _ here) (ih tail)
  | drop here _ ih => exact .drop here (ih (List.forall_mem_cons.mp each).2)

theorem imp {S : α → β → Prop} (thinned : Thinned R gone as bs) (each : ∀ a b, R a b → S a b) :
    Thinned S gone as bs := by
  induction thinned with
  | nil => exact .nil
  | keep here _ ih => exact .keep (each _ _ here) ih
  | drop here _ ih => exact .drop here ih

theorem related (thinned : Thinned R gone as bs) {a : α} (mem : a ∈ as) :
    gone a ∨ ∃ b ∈ bs, R a b := by
  induction thinned with
  | nil => cases mem
  | keep here _ ih =>
      obtain rfl | later := List.mem_cons.mp mem
      · exact .inr ⟨_, List.mem_cons_self, here⟩
      · exact (ih later).imp_right fun ⟨b, mem, same⟩ => ⟨b, List.mem_cons_of_mem _ mem, same⟩
  | drop here _ ih =>
      obtain rfl | later := List.mem_cons.mp mem
      · exact .inl here
      · exact ih later

/-- Entries that stay as they are keep their order. -/
theorem sublist {R : α → α → Prop} {as bs kept : List α} (thinned : Thinned R gone as bs)
    (sub : kept.Sublist as) (stays : ∀ a ∈ kept, ¬ gone a ∧ ∀ b, R a b → b = a) :
    kept.Sublist bs := by
  induction thinned generalizing kept with
  | nil => exact sub
  | keep here _ ih =>
      cases sub with
      | cons _ sub => exact (ih sub stays).cons _
      | cons_cons _ sub =>
          obtain ⟨head, tail⟩ := List.forall_mem_cons.mp stays
          obtain rfl := head.2 _ here
          exact (ih sub tail).cons_cons _
  | drop here _ ih =>
      cases sub with
      | cons _ sub => exact ih sub stays
      | cons_cons _ sub => exact absurd here (List.forall_mem_cons.mp stays).1.1

end Thinned

namespace Tree

/-- A declaration, exported or not, of call sites only. -/
def DeclaresSites (bs : Bindings) (t : Tree) : Prop :=
  t.OnlySites bs ∨ ∃ span declaration, t = .exportDecl span declaration ∧ declaration.OnlySites bs

/-- The second tree is a part that the first can lose. -/
def Loses (bs : Bindings) : Tree → Tree → Prop
  | .variables .., t => t.isDeclaratorSite bs = true
  | .moduleBlock .., t => t.DeclaresSites bs
  | _, _ => False

mutual

/-- The second tree is what can be left of the first: the node stays with its parts in their
order, except that call sites and what they declare are removed or replaced and aliases are
renamed. -/
inductive Rewritten (bs : Bindings) (aliases : List Variable) : Tree → Tree → Prop
  | replaced {t : Tree} (site : t.isAccessSite bs = true) (v : Variable) :
      Rewritten bs aliases t (.ident .expr ⟨⟨0, 0⟩, v, false⟩)
  /-- A property that is one alias is written out. -/
  | written (id : Ident) (isAlias : id.var ∈ aliases) (new : Variable) :
      Rewritten bs aliases (.shorthand id)
        (.pair (.name id.span id.var.name) (.ident .expr ⟨id.span, new, false⟩))
  | node {t u : Tree} (same : u.shell = t.shell)
      (pieces : ∀ p ∈ t.pieces, p.Free aliases → p ∈ u.pieces)
      (parts : RewrittenParts bs aliases (t.Loses bs) t.parts u.parts) : Rewritten bs aliases t u

inductive RewrittenParts (bs : Bindings) (aliases : List Variable) :
    (Tree → Prop) → List (Place × Tree) → List (Place × Tree) → Prop
  | nil {lost : Tree → Prop} : RewrittenParts bs aliases lost [] []
  | keep {lost : Tree → Prop} {place : Place} {t u : Tree} {ps qs : List (Place × Tree)}
      (here : Rewritten bs aliases t u) (later : RewrittenParts bs aliases lost ps qs) :
      RewrittenParts bs aliases lost ((place, t) :: ps) ((place, u) :: qs)
  | lose {lost : Tree → Prop} {place : Place} {t : Tree} {ps qs : List (Place × Tree)}
      (here : lost t) (later : RewrittenParts bs aliases lost ps qs) :
      RewrittenParts bs aliases lost ((place, t) :: ps) qs

end

variable {bs : Bindings} {aliases : List Variable} {t u : Tree}

theorem onlySites_of_declaresNothing (settled : Settled bs t u)
    (nothing : u.declaresNothing = true) : t.OnlySites bs := by
  unfold declaresNothing at nothing
  split at nothing
  · obtain ⟨-, v, ⟨⟩⟩ | ⟨same, -⟩ := shell_of_settled settled
    cases t with
    | «variables» _ _ _ _ _ ts =>
        obtain ⟨actions, rest⟩ := settled
        have dropped := settleDeclarators_settled bs ts actions
        rw [show ((settleDeclarators bs ts).run actions).1 = [] from
          (Tree.variables.inj rest).2.2.2.2.2] at dropped
        intro t mem
        have none := List.filter_eq_nil_iff.mp (List.forall₂_nil_right_iff.mp dropped) t mem
        simpa using none
    | _ => cases same
  · cases nothing

/-- What is left empty declared call sites only. -/
theorem declaresSites_of_isEmptied (settled : Settled bs t u) (emptied : u.isEmptied = true) :
    t.DeclaresSites bs := by
  unfold isEmptied at emptied
  split at emptied
  · exact .inl (onlySites_of_declaresNothing settled rfl)
  · obtain ⟨-, v, ⟨⟩⟩ | ⟨same, -⟩ := shell_of_settled settled
    cases t with
    | exportDecl span declaration =>
        obtain ⟨actions, rest⟩ := settled
        exact .inr ⟨span, declaration, rfl,
          onlySites_of_declaresNothing ⟨actions, (Tree.exportDecl.inj rest).2⟩ rfl⟩
    | _ => cases same
  · cases emptied

/-- Settling was here, or it was not: within a call site that it left alone, it was not. -/
def HalfSettled (bs : Bindings) (t u : Tree) : Prop := Settled bs t u ∨ u = t

def HalfSettledPart (bs : Bindings) (p q : Place × Tree) : Prop :=
  p.1 = q.1 ∧ HalfSettled bs p.2 q.2

/-- Settling keeps the parts of a node in their order, but for call sites and what they
declare. -/
theorem parts_of_settled (settled : Settled bs t u)
    (stays : ¬ (t.isAccessSite bs = true ∧ ∃ v, u = .ident .expr (.generated v))) (same : u ≠ t) :
    Thinned (SettledPart bs) (fun p => t.Loses bs p.2) t.parts u.parts := by
  obtain ⟨actions, made⟩ := settled
  have cases := settleCase bs t actions
  rw [made] at cases
  cases cases with
  | site access left =>
      obtain rfl | replaced := left
      · exact absurd rfl same
      · exact absurd ⟨access, replaced⟩ stays
  | @declaration _ _ _ _ _ ts us settled =>
      refine .of_filter (p := fun p => !p.2.isDeclaratorSite bs) ?_ fun p _ site => ?_
      · rw [parts, List.filter_map]
        exact forall₂_settledPart bs settled _
      · rw [Bool.not_eq_false'] at site
        exact site
  | exported settled => exact .keep ⟨rfl, settled⟩ .nil
  | @block _ ts us settled =>
      have kept : (us.filter (!·.isEmptied)).map (Prod.mk Place.scoped) =
          (us.map (Prod.mk Place.scoped)).filter (fun q => !q.2.isEmptied) := by
        rw [List.filter_map]
        rfl
      rw [parts, parts, kept]
      refine .filter_right (forall₂_settledPart bs settled _) fun p _ q same emptied => ?_
      rw [Bool.not_eq_false'] at emptied
      exact declaresSites_of_isEmptied same.2 emptied
  | node _ _ _ settled => exact .of_forall₂ settled

theorem parts_of_halfSettled (settled : HalfSettled bs t u)
    (stays : ¬ (t.isAccessSite bs = true ∧ ∃ v, u = .ident .expr (.generated v))) :
    Thinned (HalfSettledPart bs) (fun p => t.Loses bs p.2) t.parts u.parts := by
  by_cases same : u = t
  · subst same
    exact .of_forall₂ (List.forall₂_same.mpr fun p _ => ⟨rfl, .inr rfl⟩)
  · have settled := settled.resolve_right same
    exact (parts_of_settled settled stays same).imp fun _ _ related => ⟨related.1, .inl related.2⟩

/-- Settling keeps the module items in their order, but for declarations of call sites. -/
theorem thinned_settleItems (bs : Bindings) (items : List Tree) (actions : List SiteAction) :
    Thinned (Settled bs) (DeclaresSites bs) items ((settleItems bs items).run actions).1 :=
  .filter_right (settleList_settled bs items actions) fun t _ u settled emptied => by
    rw [Bool.not_eq_false'] at emptied
    exact declaresSites_of_isEmptied settled emptied

theorem eq_shorthand {id : Ident} (shell : (shorthand id).shell = t.shell)
    (pieces : (shorthand id).pieces = t.pieces) : t = .shorthand id := by
  cases t with
  | shorthand other =>
      obtain ⟨rfl⟩ := ExportName.ident.inj (Piece.name.inj (List.cons.inj pieces).1)
      rfl
  | _ => cases shell

/-- What settling and renaming make of a node, whatever they make of its parts: one identifier
of a call site, a pair of a property that is one alias, and of any other node itself with what is
left of its parts. -/
theorem halfSettled_cases {r : Renaming} {made : Tree → Tree → Prop} (spares : r.Spares aliases)
    (settled : HalfSettled bs t u)
    (each : ∀ p ∈ t.parts, ∀ (r : Renaming) u, r.Spares aliases → HalfSettled bs p.2 u →
      made p.2 (rename r u)) :
    (t.isAccessSite bs = true ∧ ∃ v, rename r u = .ident .expr (.generated v)) ∨
      (∃ id new, t = .shorthand id ∧ id.var ∈ aliases ∧ rename r u =
        .pair (.name id.span id.var.name) (.ident .expr ⟨id.span, new, false⟩)) ∨
      (rename r u).shell = t.shell ∧
        (∀ p ∈ t.pieces, p.Free aliases → p ∈ (rename r u).pieces) ∧
        Thinned (fun p q => p.1 = q.1 ∧ made p.2 q.2) (fun p => t.Loses bs p.2) t.parts
          (rename r u).parts := by
  by_cases replaced : t.isAccessSite bs = true ∧ ∃ v, u = .ident .expr (.generated v)
  · obtain ⟨access, v, rfl⟩ := replaced
    exact .inl ⟨access, _, rfl⟩
  refine .inr ?_
  have kept : u.shell = t.shell ∧ u.pieces = t.pieces := by
    obtain settled | rfl := settled
    · exact (shell_of_settled settled).resolve_left replaced
    · exact ⟨rfl, rfl⟩
  have below {r : Renaming} (spares : r.Spares aliases) :
      Thinned (fun p q => p.1 = q.1 ∧ made p.2 q.2) (fun p => t.Loses bs p.2) t.parts
        (u.parts.map fun q => (q.1, rename r q.2)) :=
    (parts_of_halfSettled settled replaced).map_right fun p mem q same =>
      ⟨same.1, each p mem r q.2 spares same.2⟩
  obtain same | ⟨id, new, rfl, known⟩ := shell_rename r u
  · refine .inr ⟨same.trans kept.1, fun p mem free =>
      mem_pieces_rename spares (kept.2 ▸ mem) free, ?_⟩
    obtain renamed | ⟨id, rfl⟩ | unrenamed := parts_rename r u
    · rw [renamed]
      exact below spares
    · obtain rfl := eq_shorthand kept.1 kept.2
      unfold rename Ident.renameShorthand at same ⊢
      split at same
      · cases same
      · exact .nil
    · have plain := below (Renaming.spares_nil aliases)
      simp only [rename_nil, List.map_id'] at plain
      rw [unrenamed]
      exact plain
  · obtain rfl := eq_shorthand kept.1 kept.2
    have isAlias : id.var ∈ aliases := by
      by_contra free
      rw [spares _ free] at known
      cases known
    exact .inl ⟨id, new, rfl, isAlias, by rw [rename, Ident.renameShorthand, known]⟩

theorem RewrittenParts.of_thinned {lost : Tree → Prop} {ps qs : List (Place × Tree)}
    (thinned : Thinned (fun p q => p.1 = q.1 ∧ Rewritten bs aliases p.2 q.2) (fun p => lost p.2)
      ps qs) : RewrittenParts bs aliases lost ps qs := by
  induction thinned with
  | nil => exact .nil
  | @keep p q _ _ here _ ih =>
      obtain ⟨place, t⟩ := p
      obtain ⟨⟨⟩, rewritten⟩ := here
      exact .keep rewritten ih
  | drop here _ ih => exact .lose here ih

theorem rewritten_of_halfSettled {r : Renaming} (spares : r.Spares aliases)
    (settled : HalfSettled bs t u) : Rewritten bs aliases t (rename r u) := by
  induction t using parts_induction generalizing u r with
  | step t ih =>
    obtain ⟨access, v, same⟩ | ⟨id, new, rfl, isAlias, same⟩ | ⟨shell, pieces, parts⟩ :=
      halfSettled_cases spares settled fun p mem _ _ spares settled => ih p mem spares settled
    · rw [same]
      exact .replaced access v
    · rw [same]
      exact .written id isAlias new
    · exact .node shell pieces (.of_thinned parts)

end Tree

end MockImport
