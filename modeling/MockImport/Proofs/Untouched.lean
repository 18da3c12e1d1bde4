import MockImport.Proofs.Redirects
import MockImport.Proofs.Rewritten

/-!
What an expansion does not concern stays as it is. A subtree without call sites and without
aliases is carried over verbatim, unless it goes with a declarator that is removed or with a
member access that is replaced; module items of this kind also keep their order.
-/

namespace MockImport

namespace Tree

/-- The tree holds no call site and no identifier that is an alias. -/
def Apart (bs : Bindings) (aliases : List Variable) (t : Tree) : Prop :=
  ∀ way u, t.Holds [] way u →
    u.isSite bs = false ∧ ∀ p ∈ u.pieces, p.Free aliases

mutual

/-- The second tree is what can be left of the first. Where the first holds neither call sites
nor aliases it is the same tree. Otherwise the node stays with its parts in their order, except
that call sites and what they declare are removed or replaced and aliases are renamed. -/
inductive Carried (bs : Bindings) (aliases : List Variable) : Tree → Tree → Prop
  | verbatim {t : Tree} (apart : t.Apart bs aliases) : Carried bs aliases t t
  | replaced {t : Tree} (site : t.isAccessSite bs = true) (v : Variable) :
      Carried bs aliases t (.ident .expr (.generated v))
  /-- A property that is one alias is written out. -/
  | written (id : Ident) (isAlias : id.var ∈ aliases) (new : Variable) :
      Carried bs aliases (.shorthand id)
        (.pair (.name id.span id.var.name) (.ident .expr ⟨id.span, new, false⟩))
  | node {t u : Tree} (concerned : ¬ t.Apart bs aliases) (same : u.shell = t.shell)
      (pieces : ∀ p ∈ t.pieces, p.Free aliases → p ∈ u.pieces)
      (parts : CarriedParts bs aliases (t.Loses bs) t.parts u.parts) : Carried bs aliases t u

inductive CarriedParts (bs : Bindings) (aliases : List Variable) :
    (Tree → Prop) → List (Place × Tree) → List (Place × Tree) → Prop
  | nil {lost : Tree → Prop} : CarriedParts bs aliases lost [] []
  | keep {lost : Tree → Prop} {place : Place} {t u : Tree} {ps qs : List (Place × Tree)}
      (here : Carried bs aliases t u) (later : CarriedParts bs aliases lost ps qs) :
      CarriedParts bs aliases lost ((place, t) :: ps) ((place, u) :: qs)
  | lose {lost : Tree → Prop} {place : Place} {t : Tree} {ps qs : List (Place × Tree)}
      (here : lost t) (later : CarriedParts bs aliases lost ps qs) :
      CarriedParts bs aliases lost ((place, t) :: ps) qs

end

variable {bs : Bindings} {aliases : List Variable} {t u : Tree}

theorem apart_iff :
    t.Apart bs aliases ↔
      (t.isSite bs = false ∧ ∀ p ∈ t.pieces, p.Free aliases) ∧
        ∀ p ∈ t.parts, p.2.Apart bs aliases := by
  constructor
  · intro apart
    refine ⟨apart _ _ .here, fun p mem way u holds => ?_⟩
    obtain ⟨way', holds'⟩ := holds.elsewhere [⟨t, p.1⟩]
    exact apart way' u (holds_iff.mpr (.inr ⟨p, mem, holds'⟩))
  · rintro ⟨here, parts⟩ way u holds
    obtain ⟨rfl, rfl⟩ | ⟨p, mem, inside⟩ := holds_iff.mp holds
    · exact here
    · obtain ⟨way', holds'⟩ := inside.elsewhere []
      exact parts p mem way' u holds'

theorem Apart.settle_eq (apart : t.Apart bs aliases) (whole : t.Whole) : settle bs t = pure t := by
  induction t using parts_induction with
  | step t ih =>
      obtain ⟨⟨noSite, -⟩, parts⟩ := apart_iff.mp apart
      exact settle_of_parts noSite whole (fun p mem => (parts p mem _ _ .here).1)
        fun p mem => ih p mem (parts p mem) ((whole_iff.mp whole).2 p mem)

theorem Apart.rename_eq {r : Renaming} (apart : t.Apart bs aliases) (spares : r.Spares aliases) :
    rename r t = t := by
  induction t using parts_induction with
  | step t ih =>
      obtain ⟨⟨-, free⟩, parts⟩ := apart_iff.mp apart
      exact rename_of_parts spares free fun p mem => ih p mem (parts p mem)

theorem CarriedParts.of_thinned {lost : Tree → Prop} {ps qs : List (Place × Tree)}
    (thinned : Thinned (fun p q => p.1 = q.1 ∧ Carried bs aliases p.2 q.2) (fun p => lost p.2)
      ps qs) : CarriedParts bs aliases lost ps qs := by
  induction thinned with
  | nil => exact .nil
  | @keep p q _ _ here _ ih =>
      obtain ⟨place, t⟩ := p
      obtain ⟨⟨⟩, carried⟩ := here
      exact .keep carried ih
  | drop here _ ih => exact .lose here ih

theorem CarriedParts.related {lost : Tree → Prop} {ps qs : List (Place × Tree)}
    (carried : CarriedParts bs aliases lost ps qs) {place : Place} {t : Tree}
    (mem : (place, t) ∈ ps) : lost t ∨ ∃ u, (place, u) ∈ qs ∧ Carried bs aliases t u := by
  induction ps generalizing qs with
  | nil => cases mem
  | cons p rest ih =>
      obtain rfl | later := List.mem_cons.mp mem
      · cases carried with
        | keep here _ => exact .inr ⟨_, List.mem_cons_self, here⟩
        | lose here _ => exact .inl here
      · cases carried with
        | keep _ below =>
            exact (ih below later).imp_right fun ⟨u, mem, carried⟩ =>
              ⟨u, List.mem_cons_of_mem _ mem, carried⟩
        | lose _ below => exact ih below later

/-- What settling and renaming make of a tree is carried over. -/
theorem carried_of_halfSettled {r : Renaming} (spares : r.Spares aliases) (whole : t.Whole)
    (settled : HalfSettled bs t u) : Carried bs aliases t (rename r u) := by
  induction t using parts_induction generalizing u r with
  | step t ih =>
    by_cases apart : t.Apart bs aliases
    · have same : u = t := by
        obtain ⟨actions, rfl⟩ | rfl := settled
        · rw [apart.settle_eq whole]
          rfl
        · rfl
      rw [same, apart.rename_eq spares]
      exact .verbatim apart
    obtain ⟨access, v, same⟩ | ⟨id, new, rfl, isAlias, same⟩ | ⟨shell, pieces, parts⟩ :=
      halfSettled_cases spares settled fun p mem _ _ spares settled =>
        ih p mem spares ((whole_iff.mp whole).2 p mem) settled
    · rw [same]
      exact .replaced access v
    · rw [same]
      exact .written id isAlias new
    · exact .node apart shell pieces (.of_thinned parts)

theorem carried_self (whole : t.Whole) : Carried bs aliases t t := by
  have same : HalfSettled bs t t := .inr rfl
  have carried := carried_of_halfSettled (Renaming.spares_nil aliases) whole same
  rwa [rename_nil] at carried

namespace Apart

theorem part (apart : t.Apart bs aliases) {p : Place × Tree} (mem : p ∈ t.parts) :
    p.2.Apart bs aliases := (apart_iff.mp apart).2 p mem

theorem eq_of_carried (apart : t.Apart bs aliases) (carried : Carried bs aliases t u) : u = t := by
  have here := (apart_iff.mp apart).1
  cases carried with
  | verbatim _ => rfl
  | replaced site _ =>
      have noSite := here.1
      rw [isSite, site] at noSite
      cases noSite
  | written id isAlias _ =>
      exact absurd isAlias (here.2 _ List.mem_cons_self _ (List.mem_singleton_self _))
  | node concerned _ _ _ => exact absurd apart concerned

theorem not_onlySites (apart : t.Apart bs aliases) (whole : t.Whole) : ¬ t.OnlySites bs := by
  intro only
  cases t with
  | «variables» _ _ _ _ _ ts =>
      cases ts with
      | nil => exact absurd (whole_iff.mp whole).1 nofun
      | cons d rest =>
          have noSite := (apart_iff.mp (apart.part (p := (.other, d)) List.mem_cons_self)).1.1
          rw [isSite, only d List.mem_cons_self, Bool.or_true] at noSite
          cases noSite
  | _ => exact only

theorem not_declaresSites (apart : t.Apart bs aliases) (whole : t.Whole) :
    ¬ t.DeclaresSites bs := by
  rintro (only | ⟨span, declaration, rfl, only⟩)
  · exact apart.not_onlySites whole only
  · have mem : (Place.other, declaration) ∈ (exportDecl span declaration).parts :=
      List.mem_singleton_self _
    exact (apart.part mem).not_onlySites ((whole_iff.mp whole).2 _ mem) only

end Apart

/-- A piece without aliases stays with its node. -/
theorem Carried.mem_pieces (carried : Carried bs aliases t u) {p : Piece} (mem : p ∈ t.pieces)
    (free : p.Free aliases) : p ∈ u.pieces := by
  cases carried with
  | verbatim _ => exact mem
  | replaced site _ =>
      cases t with
      | member _ _ _ _ => cases mem
      | _ => cases site
  | written id isAlias _ =>
      obtain rfl := List.mem_singleton.mp mem
      exact absurd isAlias (free _ (List.mem_singleton_self _))
  | node _ _ pieces _ => exact pieces p mem free

end Tree

/-- The same place, left in what the node has become. -/
def Step.Carried (bs : Bindings) (aliases : List Variable) (s s' : Step) : Prop :=
  s.place = s'.place ∧ s.parent.Carried bs aliases s'.parent

namespace Way

/-- The way leads through a declarator that is a call site. -/
def Dropped (bs : Bindings) : Way → Prop
  | [] => False
  | ⟨t, _⟩ :: rest => (t.isDeclaratorSite bs = true ∧ InDeclaration rest) ∨ Dropped bs rest

/-- The way leads through a member access that is one identifier in the module. -/
def Replaced (bs : Bindings) (aliases : List Variable) (m : Module) : Way → Prop
  | [] => False
  | ⟨t, _⟩ :: rest =>
      (t.isAccessSite bs = true ∧ ∃ way' v, List.Forall₂ (Step.Carried bs aliases) rest way' ∧
        m.Holds way' (.ident .expr (.generated v))) ∨ Replaced bs aliases m rest

/-- What stands at the end of the way went with a call site. -/
def Lost (bs : Bindings) (aliases : List Variable) (m : Module) (way : Way) : Prop :=
  way.Dropped bs ∨ way.Replaced bs aliases m

theorem Lost.further {bs : Bindings} {aliases : List Variable} {m : Module} {way : Way}
    (lost : way.Lost bs aliases m) (step : Step) : Lost bs aliases m (step :: way) :=
  lost.imp .inr .inr

end Way

namespace Module

variable {bs : Bindings} {aliases : List Variable} {m m' : Module}

/-- Every item that does not declare call sites only is carried over. -/
def CarriesItems (bs : Bindings) (aliases : List Variable) (m m' : Module) : Prop :=
  ∀ item ∈ m.body, item.DeclaresSites bs ∨ ∃ u ∈ m'.body, item.Carried bs aliases u

/-- The first tree at the end of the way is carried over to the second. -/
def Keeps (bs : Bindings) (aliases : List Variable) (m' : Module) (way : Way) (t u : Tree) : Prop :=
  t.Carried bs aliases u ∧
    ∃ way', List.Forall₂ (Step.Carried bs aliases) way way' ∧ m'.Holds way' u

/-- A node is carried over unless it goes with a call site. -/
theorem kept_or_lost (carries : CarriesItems bs aliases m m') {way : Way} {t : Tree}
    (holds : m.Holds way t) :
    (∃ u, Keeps bs aliases m' way t u) ∨ way.Lost bs aliases m' ∨
      (t.isDeclaratorSite bs = true ∧ way.InDeclaration) ∨ t.DeclaresSites bs := by
  obtain ⟨item, isItem, holds⟩ := holds
  induction holds with
  | here =>
      obtain only | ⟨u, mem, carried⟩ := carries item isItem
      · exact .inr (.inr (.inr only))
      · exact .inl ⟨u, carried, [], .nil, u, mem, .here⟩
  | @part way t child place _ mem ih =>
      obtain ⟨u, carried, way', steps, item', isItem', holds⟩ | lost | site | only := ih
      · have step : Step.Carried bs aliases ⟨t, place⟩ ⟨u, place⟩ := ⟨rfl, carried⟩
        cases carried with
        | verbatim apart =>
            exact .inl ⟨child, .verbatim (apart.part mem), _, .cons step steps, item', isItem',
              holds.part mem⟩
        | replaced access v =>
            exact .inr (.inl (.inr (.inl ⟨access, way', v, steps, item', isItem', holds⟩)))
        | written _ _ _ => cases mem
        | node _ _ _ parts =>
            obtain gone | ⟨u', mem', carried⟩ := parts.related mem
            · cases t with
              | «variables» _ _ _ _ _ _ => exact .inr (.inr (.inl ⟨gone, trivial⟩))
              | moduleBlock _ _ => exact .inr (.inr (.inr gone))
              | _ => exact gone.elim
            · exact .inl ⟨u', carried, _, .cons step steps, item', isItem', holds.part mem'⟩
      · exact .inr (.inl (lost.further _))
      · exact .inr (.inl (.inl (.inl site)))
      · obtain only | ⟨span, declaration, rfl, only⟩ := only
        · cases t with
          | «variables» _ _ _ _ _ ts =>
              obtain ⟨d, isDeclarator, same⟩ := List.mem_map.mp mem
              obtain ⟨rfl, rfl⟩ := Prod.mk.inj same
              exact .inr (.inr (.inl ⟨only d isDeclarator, trivial⟩))
          | _ => exact only.elim
        · obtain ⟨rfl, rfl⟩ := Prod.mk.inj (List.mem_singleton.mp mem)
          exact .inr (.inr (.inr (.inl only)))

/-- The second module has what the first has apart from call sites and aliases. -/
structure Untouched (bs : Bindings) (aliases : List Variable) (m m' : Module) : Prop where
  /-- Module items stay as they are, in their order. -/
  items : ∀ ts : List Tree, ts.Sublist m.body → (∀ t ∈ ts, t.Apart bs aliases) →
    ts.Sublist m'.body
  /-- So do all other subtrees, in what the nodes around them have become. -/
  subtrees : ∀ way t, m.Holds way t → t.Apart bs aliases → way.Lost bs aliases m' ∨
    ∃ way', List.Forall₂ (Step.Carried bs aliases) way way' ∧ m'.Holds way' t
  pieces : ∀ way t, m.Holds way t → ∀ p ∈ t.pieces, p.Free aliases → way.Lost bs aliases m' ∨
    ∃ way' u, List.Forall₂ (Step.Carried bs aliases) way way' ∧ m'.Holds way' u ∧ p ∈ u.pieces

theorem whole_of_holds (whole : m.Whole) {way : Way} {t : Tree} (holds : m.Holds way t) :
    t.Whole := by
  obtain ⟨item, mem, holds⟩ := holds
  induction holds with
  | here => exact whole_iff.mp whole item mem
  | part _ mem ih => exact (Tree.whole_iff.mp ih).2 _ mem

/-- The items of the first module may stand among others. -/
theorem untouched_of_thinned (whole : m.Whole) {items : List Tree} (sub : m.body.Sublist items)
    (thinned : Thinned (Tree.Carried bs aliases) (Tree.DeclaresSites bs) items m'.body) :
    Untouched bs aliases m m' := by
  have carries : CarriesItems bs aliases m m' := fun item mem => thinned.related (sub.subset mem)
  refine ⟨fun ts isSub apart => ?_, fun way t holds apart => ?_, fun way t holds p mem free => ?_⟩
  · refine thinned.sublist (isSub.trans sub) fun t mem => ⟨?_, fun u => (apart t mem).eq_of_carried⟩
    exact (apart t mem).not_declaresSites (whole_iff.mp whole t (isSub.subset mem))
  · obtain ⟨u, carried, kept⟩ | lost | ⟨site, -⟩ | only := kept_or_lost carries holds
    · rw [apart.eq_of_carried carried] at kept
      exact .inr kept
    · exact .inl lost
    · have noSite := (Tree.apart_iff.mp apart).1.1
      rw [Tree.isSite, site, Bool.or_true] at noSite
      cases noSite
    · exact absurd only (apart.not_declaresSites (whole_of_holds whole holds))
  · obtain ⟨u, carried, way', steps, kept⟩ | lost | ⟨site, -⟩ | only := kept_or_lost carries holds
    · exact .inr ⟨way', u, steps, kept, carried.mem_pieces mem free⟩
    · exact .inl lost
    · cases t with
      | declarator _ _ _ _ => cases mem
      | _ => cases site
    · obtain only | ⟨_, _, rfl, -⟩ := only
      · cases t with
        | «variables» _ _ _ _ _ _ => cases mem
        | _ => exact only.elim
      · cases mem

variable {source : Option String} {options : Options} {count : Nat} {plan : Plan}

theorem thinned_apply (ok : Plan.ofModule m source = .ok plan) (whole : m.Whole)
    (options : Options) :
    Thinned (Tree.Carried plan.bindings plan.aliases) (Tree.DeclaresSites plan.bindings)
      ((m.progress plan options).assemble m.body) (m.apply plan options).body := by
  have wholes := whole_assemble whole (m.progress plan options)
  have spares : (m.progress plan options).renames.Spares plan.aliases :=
    fun v free => (lookup_renames_eq_none_iff ok options v).mpr free
  rw [apply, Tree.renameList_eq_map]
  exact (Tree.thinned_settleItems plan.bindings _ _).map_right fun t mem u settled =>
    Tree.carried_of_halfSettled spares (wholes t mem) (.inl settled)

/-- An expansion touches neither module items nor subtrees that hold no call site and no alias,
except for those that go with a removed declarator or a replaced member access. -/
theorem expand_untouched (whole : m.Whole) (expanded : m.expand source options = .ok (count, m')) :
    ∃ plan, Plan.ofModule m source = .ok plan ∧ m.Untouched plan.bindings plan.aliases m' := by
  obtain ⟨plan, ok, -, ⟨-, rfl⟩ | ⟨-, rfl⟩⟩ := expand_cases expanded
  · refine ⟨plan, ok, untouched_of_thinned whole (List.Sublist.refl _) (.of_forall₂ ?_)⟩
    exact List.forall₂_same.mpr fun t mem => Tree.carried_self (whole_iff.mp whole t mem)
  · refine ⟨plan, ok, untouched_of_thinned whole ?_ (thinned_apply ok whole options)⟩
    conv => lhs; rw [← splitAtImports_append m.body]
    rw [Progress.assemble_eq, Progress.below]
    exact ((List.Sublist.refl _).append (List.sublist_append_right _ _)).trans
      (List.sublist_append_right _ _)

theorem expand_untouched_plain :
    Sample.plain.Whole ∧ ∃ m', Sample.plain.expand none {} = .ok (3, m') ∧
      ∃ plan, Plan.ofModule Sample.plain none = .ok plan ∧
        Sample.plain.Untouched plan.bindings plan.aliases m' := by
  have whole : Sample.plain.Whole := whole_iff.mpr (by decide)
  obtain ⟨m', expanded⟩ : ∃ m', Sample.plain.expand none {} = .ok (3, m') := ⟨_, rfl⟩
  exact ⟨whole, m', expanded, expand_untouched whole expanded⟩

end Module

end MockImport
