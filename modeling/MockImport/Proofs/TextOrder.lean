import MockImport.Proofs.Citations
import MockImport.Proofs.Layout
import MockImport.Proofs.SearchOrder

/-!
Faults in the order of the text. References are recorded as the search comes to them, node by
node; when the search of every node goes along the text, they are recorded in the order of
their spans, and the one that an error reports is the first of its kind in the text.
-/

namespace MockImport

/-- The element comes before all others. -/
def IsFirst {α : Type} (precedes : α → α → Prop) (as : List α) (a : α) : Prop :=
  a ∈ as ∧ ∀ b ∈ as, b = a ∨ precedes a b

theorem isFirst_of_find? {α : Type} {precedes : α → α → Prop} {as : List α} {p : α → Bool} {a : α}
    (sorted : as.Pairwise precedes) (found : as.find? p = some a) :
    IsFirst precedes (as.filter p) a := by
  rw [← List.head?_filter] at found
  obtain ⟨rest, only⟩ := List.head?_eq_some_iff.mp found
  have ordered := sorted.filter p
  rw [only] at ordered ⊢
  refine ⟨List.mem_cons_self, fun b mem => ?_⟩
  obtain rfl | later := List.mem_cons.mp mem
  · exact .inl rfl
  · exact .inr (List.rel_of_pairwise_cons ordered later)

theorem IsFirst.congr {α : Type} {precedes : α → α → Prop} {as bs : List α} {a : α}
    (first : IsFirst precedes as a) (same : ∀ b, b ∈ bs ↔ b ∈ as) : IsFirst precedes bs a :=
  ⟨(same a).mpr first.1, fun b mem => first.2 b ((same b).mp mem)⟩

namespace Reference

/-- The first reference starts earlier in the text. -/
def Before (r s : Reference) : Prop := r.span.start < s.span.start

/-- The first reference belongs to an earlier binding, or to the same one and starts earlier. -/
def Precedes (r s : Reference) : Prop :=
  r.binding < s.binding ∨ r.binding = s.binding ∧ r.Before s

end Reference

namespace Tree

/-- Something in the tree is recorded. -/
def hasReferences (bs : Bindings) (t : Tree) : Bool := !(references bs .root t).isEmpty

/-- The first tree stands before the second in the text. -/
def Before (t u : Tree) : Prop := ∀ a ∈ t.extents, ∀ b ∈ u.extents, a.stop ≤ b.start

instance (t u : Tree) : Decidable (t.Before u) :=
  inferInstanceAs (Decidable (∀ a ∈ t.extents, ∀ b ∈ u.extents, a.stop ≤ b.start))

/-- Of two trees in which something is recorded, the earlier one stands first. -/
def Ordered (bs : Bindings) (ts : List Tree) : Prop :=
  ts.Pairwise fun t u => t.hasReferences bs = true → u.hasReferences bs = true → t.Before u

instance (bs : Bindings) (ts : List Tree) : Decidable (Ordered bs ts) :=
  inferInstanceAs (Decidable (ts.Pairwise _))

/-- The target of a declarator that takes up a mock call. -/
def siteTarget? (bs : Bindings) : Tree → Option Tree
  | .declarator _ target init _ => if (bs.call? init).isSome then some target else none
  | _ => none

/-- The search of the node goes along the text: what holds something recorded is not empty, and
its parts stand as they are searched. What the target of a declarator holds is recorded after
the mock call that it takes up, so it must hold nothing.

Nodes are searched in the order of their fields, which is that of the text for most kinds. It is
not for a class, whose superclass comes after its body, a member of a class, whose decorators
come after its key, a `do` loop, whose test comes before its body, and nodes with types, which
come after values, arguments and bodies. There the condition says that not both of two such
parts hold something recorded. -/
structure InTextOrder (bs : Bindings) (t : Tree) : Prop where
  solid : t.hasSpan = true → t.hasReferences bs = true → t.span.start < t.span.stop
  ordered : Ordered bs ((t.searched bs).map Prod.snd)
  target : ∀ target ∈ t.siteTarget? bs, target.hasReferences bs = false
  subject : ∀ p ∈ t.subjects, p.2.start < p.2.stop
  subjects : t.subjects.Pairwise fun p q => p.1.stop ≤ q.1.start

instance (bs : Bindings) (t : Tree) : Decidable (t.InTextOrder bs) :=
  decidable_of_iff ((t.hasSpan = true → t.hasReferences bs = true → t.span.start < t.span.stop) ∧
      Ordered bs ((t.searched bs).map Prod.snd) ∧
      (∀ target ∈ t.siteTarget? bs, target.hasReferences bs = false) ∧
      (∀ p ∈ t.subjects, p.2.start < p.2.stop) ∧
      t.subjects.Pairwise fun p q => p.1.stop ≤ q.1.start)
    ⟨fun ⟨solid, ordered, target, subject, subjects⟩ =>
        ⟨solid, ordered, target, subject, subjects⟩,
      fun ⟨solid, ordered, target, subject, subjects⟩ =>
        ⟨solid, ordered, target, subject, subjects⟩⟩

section

variable {bs : Bindings} {t u : Tree}

theorem hasReferences_iff (c : Context) : t.hasReferences bs = true ↔ references bs c t ≠ [] := by
  rw [ne_eq, t.references_eq_nil_iff c false, ← t.references_eq_nil_iff .root false]
  simp [hasReferences]

theorem references_eq_nil (none : t.hasReferences bs = false) (c : Context) :
    references bs c t = [] := by
  by_contra some
  rw [(hasReferences_iff c).mpr some] at none
  cases none

theorem hasReferences_of_call? {m : MockCall} (found : bs.call? t = some m) :
    t.hasReferences bs = true :=
  (hasReferences_iff .root).mpr fun none =>
    Option.some_ne_none m (found.symm.trans (call?_of_references_eq_nil none))

theorem hasReferences_of_callee? {b : Nat} (isCallee : bs.callee? t = some b) :
    t.hasReferences bs = true :=
  (hasReferences_iff .root).mpr fun none =>
    Option.some_ne_none b (isCallee.symm.trans (callee?_of_references_eq_nil none))

theorem hasSpan_of_callee? {b : Nat} (isCallee : bs.callee? t = some b) : t.hasSpan = true := by
  cases t <;> first | rfl | cases isCallee

end

end Tree

/-- References in the order of the text, each of them within one of the given spans. -/
structure Laid (es : List Span) (rs : List Reference) : Prop where
  sorted : rs.Pairwise Reference.Before
  inside : ∀ r ∈ rs, r.span.start < r.span.stop ∧ ∃ e ∈ es, r.span.Within e

namespace Laid

variable {es fs : List Span} {rs ss : List Reference} {r : Reference}

theorem nil (es : List Span) : Laid es [] := ⟨.nil, List.forall_mem_nil _⟩

theorem singleton {e : Span} (mem : e ∈ es) (within : r.span.Within e)
    (solid : r.span.start < r.span.stop) : Laid es [r] :=
  ⟨List.pairwise_singleton _ _, List.forall_mem_singleton.mpr ⟨solid, e, mem, within⟩⟩

/-- Spans that reach over others. -/
theorem mono (laid : Laid es rs) (cover : ∀ e ∈ es, ∃ f ∈ fs, e.Within f) : Laid fs rs := by
  refine ⟨laid.sorted, fun r mem => ?_⟩
  obtain ⟨solid, e, isSpan, within⟩ := laid.inside r mem
  obtain ⟨f, isCover, reaches⟩ := cover e isSpan
  exact ⟨solid, f, isCover, within.trans reaches⟩

theorem append (first : Laid es rs) (second : Laid fs ss)
    (before : rs ≠ [] → ss ≠ [] → ∀ e ∈ es, ∀ f ∈ fs, e.stop ≤ f.start) :
    Laid (es ++ fs) (rs ++ ss) := by
  constructor
  · refine List.pairwise_append.mpr ⟨first.sorted, second.sorted, fun r memR s memS => ?_⟩
    obtain ⟨solid, e, isFirst, within⟩ := first.inside r memR
    obtain ⟨-, f, isSecond, within'⟩ := second.inside s memS
    have apart := before (List.ne_nil_of_mem memR) (List.ne_nil_of_mem memS) e isFirst f isSecond
    calc r.span.start
      _ < r.span.stop := solid
      _ ≤ e.stop := within.2
      _ ≤ f.start := apart
      _ ≤ s.span.start := within'.1
  · refine List.forall_mem_append.mpr ⟨fun r mem => ?_, fun r mem => ?_⟩
    · obtain ⟨solid, e, isSpan, within⟩ := first.inside r mem
      exact ⟨solid, e, List.mem_append_left _ isSpan, within⟩
    · obtain ⟨solid, f, isSpan, within⟩ := second.inside r mem
      exact ⟨solid, f, List.mem_append_right _ isSpan, within⟩

/-- A call is recorded before what its arguments hold. -/
theorem cons {span : Span} (own : r.span = span) (solid : span.start < span.stop)
    (laid : Laid es rs) (cover : ∀ e ∈ es, e.Within span)
    (later : rs ≠ [] → ∀ e ∈ es, span.start < e.start) : Laid [span] (r :: rs) := by
  subst own
  have reaches : Laid [r.span] rs :=
    laid.mono fun e mem => ⟨r.span, List.mem_singleton_self _, cover e mem⟩
  constructor
  · refine List.pairwise_cons.mpr ⟨fun s mem => ?_, laid.sorted⟩
    obtain ⟨-, e, isSpan, within⟩ := laid.inside s mem
    exact Nat.lt_of_lt_of_le (later (List.ne_nil_of_mem mem) e isSpan) within.1
  · exact List.forall_mem_cons.mpr
      ⟨⟨solid, r.span, List.mem_singleton_self _, .refl _⟩, reaches.inside⟩

end Laid

namespace Tree

variable {bs : Bindings} {t u : Tree}

/-- What is recorded of the tree, and of the arguments of the mock call that it is, lies in the
order of the text. -/
structure LaidOut (bs : Bindings) (t : Tree) : Prop where
  whole : ∀ c, Laid t.extents (references bs c t)
  arguments : ∀ {m : MockCall} {c : Context} {r : Reference}, bs.call? t = some m →
    r.span = m.span → Laid t.extents (r :: argReferences bs c t)

namespace LaidOut

/-- Trees that stand in the order in which they are searched; those of which nothing is recorded
may stand anywhere. -/
theorem parts {ps : List (Place × Tree)} (laid : ∀ p ∈ ps, LaidOut bs p.2)
    (ordered : Ordered bs (ps.map Prod.snd)) (d : Context) :
    Laid (((ps.map Prod.snd).filter (hasReferences bs)).flatMap extents)
      (ps.flatMap fun p => references bs (d.into p.1) p.2) := by
  induction ps with
  | nil => exact .nil _
  | cons p rest ih =>
      obtain ⟨here, later⟩ := List.forall_mem_cons.mp laid
      obtain ⟨first, ordered⟩ := List.pairwise_cons.mp ordered
      rw [List.map_cons, List.flatMap_cons]
      cases holds : p.2.hasReferences bs with
      | false =>
          rw [references_eq_nil holds, List.nil_append,
            List.filter_cons_of_neg (Bool.eq_false_iff.mp holds)]
          exact ih later ordered
      | true =>
          rw [List.filter_cons_of_pos holds, List.flatMap_cons]
          refine (here.whole _).append (ih later ordered) fun _ _ e isFirst f isLater => ?_
          obtain ⟨u, mem, isLater⟩ := List.mem_flatMap.mp isLater
          obtain ⟨mem, holds'⟩ := List.mem_filter.mp mem
          exact first u mem holds holds' e isFirst f isLater

theorem list {ts : List Tree} (laid : ∀ t ∈ ts, LaidOut bs t) (ordered : Ordered bs ts)
    (c : Context) :
    Laid ((ts.filter (hasReferences bs)).flatMap extents) (referencesList bs c ts) := by
  have same : (ts.map (Prod.mk Place.other)).map Prod.snd = ts := by
    rw [List.map_map]
    exact List.map_id ts
  have laidOut := parts (List.forall_mem_map.mpr laid) (same.symm ▸ ordered : Ordered bs _) c
  rwa [same, ← referencesList_eq_flatMap bs c .other] at laidOut

/-- Every extent of a part is within one of the node. -/
theorem cover (spans : t.SpansParts) {place : Place} (mem : (place, u) ∈ t.parts) :
    ∀ e ∈ u.extents, ∃ f ∈ t.extents, e.Within f := by
  intro e isSpan
  cases spanned : t.hasSpan with
  | true =>
      refine ⟨t.span, ?_, spans.parts spanned _ mem e isSpan⟩
      rw [extents_of_hasSpan spanned]
      exact List.mem_singleton_self _
  | false => exact ⟨e, extents_of_part spanned mem isSpan, .refl e⟩

section

variable {span : Span} {r : Reference}

theorem call {ctxt : Nat} {callee : Tree} {args : List Tree} {typeArgs : Tree} {b : Nat}
    {c : Context} (spans : (Tree.call span ctxt callee args typeArgs).SpansParts)
    (inText : (Tree.call span ctxt callee args typeArgs).InTextOrder bs)
    (calleeInText : callee.InTextOrder bs) (laid : ∀ t ∈ args, LaidOut bs t)
    (isCallee : bs.callee? callee = some b) (own : r.span = span) :
    Laid [span] (r :: referencesList bs c args) := by
  have holds : (Tree.call span ctxt callee args typeArgs).hasReferences bs = true := by
    refine (hasReferences_iff .root).mpr ?_
    simp only [references, isCallee]
    exact List.cons_ne_nil _ _
  have calleeHolds := hasReferences_of_callee? isCallee
  have calleeSpanned := hasSpan_of_callee? isCallee
  have calleeSpan : callee.span ∈ callee.extents := by
    rw [extents_of_hasSpan calleeSpanned]
    exact List.mem_singleton_self _
  have ordered : Ordered bs (callee :: args) := by
    have ordered := inText.ordered
    rw [searched, isCallee, Option.isSome_some, if_pos rfl, List.append_nil, List.map_cons,
      List.map_map] at ordered
    exact (List.map_id args : args.map _ = args) ▸ ordered
  obtain ⟨first, ordered⟩ := List.pairwise_cons.mp ordered
  have isPart {t : Tree} (mem : t ∈ args) :
      (Place.other, t) ∈ (Tree.call span ctxt callee args typeArgs).parts :=
    List.mem_cons_of_mem _ (List.mem_append_left _ (List.mem_map_of_mem mem))
  refine .cons own (inText.solid rfl holds) (list laid ordered c) ?_ fun _ e isSpan => ?_
  · intro e isSpan
    obtain ⟨t, mem, isSpan⟩ := List.mem_flatMap.mp isSpan
    exact spans.parts rfl _ (isPart (List.mem_filter.mp mem).1) e isSpan
  · obtain ⟨t, mem, isSpan⟩ := List.mem_flatMap.mp isSpan
    obtain ⟨mem, holds'⟩ := List.mem_filter.mp mem
    calc span.start
      _ ≤ callee.span.start := (spans.parts rfl _ List.mem_cons_self _ calleeSpan).1
      _ < callee.span.stop := calleeInText.solid calleeSpanned calleeHolds
      _ ≤ e.start := first t mem calleeHolds holds' _ calleeSpan e isSpan

theorem exportNamed {specifiers : List ExportSpecifier} {typeOnly : Bool} {attributes : Tree}
    (spans : (Tree.exportNamed span specifiers none typeOnly attributes).SpansParts)
    (inText : (Tree.exportNamed span specifiers none typeOnly attributes).InTextOrder bs)
    (c : Context) :
    Laid [span] (specifiers.flatMap (ExportSpecifier.references bs c)) := by
  have subject {s : ExportSpecifier} {r : Reference} (mem : r ∈ s.references bs c) :
      ∃ own, s.subject? = some (own, r.span) := by
    obtain ⟨own, _, _, _, _, rfl, -, rfl⟩ := ExportSpecifier.mem_references mem
    exact ⟨own, rfl⟩
  have isSubject {s : ExportSpecifier} (mem : s ∈ specifiers) {p : Span × Span}
      (found : s.subject? = some p) :
      p ∈ (Tree.exportNamed span specifiers none typeOnly attributes).subjects :=
    List.mem_filterMap.mpr ⟨s, mem, found⟩
  constructor
  · refine List.pairwise_flatMap.mpr ⟨fun s _ => ?_, ?_⟩
    · unfold ExportSpecifier.references
      split
      · split
        · exact List.pairwise_singleton _ _
        · exact .nil
      · exact .nil
    · refine (List.pairwise_filterMap.mp inText.subjects).imp_of_mem ?_
      intro s s' mem mem' before r isFirst r' isSecond
      obtain ⟨own, found⟩ := subject isFirst
      obtain ⟨own', found'⟩ := subject isSecond
      obtain ⟨-, within, -⟩ := spans.subjects _ (isSubject mem found)
      obtain ⟨-, within', -⟩ := spans.subjects _ (isSubject mem' found')
      calc r.span.start
        _ < r.span.stop := inText.subject _ (isSubject mem found)
        _ ≤ own.stop := within.2
        _ ≤ own'.start := before _ found _ found'
        _ ≤ r'.span.start := within'.1
  · intro r mem
    obtain ⟨s, mem, isReference⟩ := List.mem_flatMap.mp mem
    obtain ⟨own, found⟩ := subject isReference
    obtain ⟨-, within, within'⟩ := spans.subjects _ (isSubject mem found)
    exact ⟨inText.subject _ (isSubject mem found), span, List.mem_singleton_self _,
      within.trans within'⟩

end

end LaidOut

/-- A tree whose nodes are searched along the text is laid out along the text. -/
theorem laidOut (t : Tree) (above : Way)
    (inText : ∀ way u, t.Holds above way u → u.SpansParts ∧ u.InTextOrder bs) :
    LaidOut bs t := by
  induction t using parts_induction generalizing above with
  | step t ih =>
      obtain ⟨spans, here⟩ := inText above t .here
      have part {place : Place} {u : Tree} (mem : (place, u) ∈ t.parts) : LaidOut bs u :=
        ih _ mem (⟨t, place⟩ :: above) fun way v holds =>
          inText way v (holds_iff.mpr (.inr ⟨_, mem, holds⟩))
      have partInText {place : Place} {u : Tree} (mem : (place, u) ∈ t.parts) :
          u.InTextOrder bs :=
        (inText _ u (holds_iff.mpr (.inr ⟨_, mem, .here⟩))).2
      have arguments {m : MockCall} {c : Context} {r : Reference} (found : bs.call? t = some m)
          (own : r.span = m.span) : Laid t.extents (r :: argReferences bs c t) := by
        cases t with
        | paren role span inner =>
            have isPart : (Place.enclosed, inner) ∈ (paren role span inner).parts :=
              List.mem_singleton_self _
            exact ((part isPart).arguments found own).mono (LaidOut.cover spans isPart)
        | call span ctxt callee args typeArgs =>
            obtain ⟨b, isCallee, rfl⟩ := Option.map_eq_some_iff.mp found
            refine LaidOut.call spans here (partInText List.mem_cons_self) ?_ isCallee own
            exact fun t mem => part (List.mem_cons_of_mem _
              (List.mem_append_left _ (List.mem_map_of_mem mem)))
        | _ => cases found
      refine ⟨fun c => ?_, arguments⟩
      have recorded := recordCase bs c t
      generalize same : references bs c t = rs at recorded ⊢
      cases recorded with
      | @parts _ _ d _ _ _ recorded =>
          have isPart := searched_subset bs t
          rw [recorded]
          refine (LaidOut.parts (fun p mem => part (isPart mem)) here.ordered d).mono ?_
          intro e isSpan
          obtain ⟨u, mem, isSpan⟩ := List.mem_flatMap.mp isSpan
          obtain ⟨p, searched, rfl⟩ := List.mem_map.mp (List.mem_filter.mp mem).1
          exact LaidOut.cover spans (isPart searched) e isSpan
      | reference usage refers =>
          obtain ⟨b, isCallee⟩ := Option.isSome_iff_exists.mp (callee?_of_reference? refers)
          have spanned := hasSpan_of_callee? isCallee
          refine .singleton (extents_of_hasSpan spanned ▸ List.mem_singleton_self _) (.refl _)
            (here.solid spanned ((hasReferences_iff c).mpr ?_))
          rw [same]
          exact List.cons_ne_nil _ _
      | shorthand usage bound =>
          refine .singleton (List.mem_singleton_self _) (.refl _)
            (here.solid rfl ((hasReferences_iff c).mpr ?_))
          rw [same]
          exact List.cons_ne_nil _ _
      | exported span specifiers typeOnly attributes => exact LaidOut.exportNamed spans here c
      | enclosed span usage found _ => exact arguments found rfl
      | @accessed object property m d e span usage unread found _ _ =>
          have isObject : (Place.object, object) ∈ (member .expr span object property).parts :=
            List.mem_cons_self
          have isProperty : (Place.other, property) ∈ (member .expr span object property).parts :=
            List.mem_cons_of_mem _ (List.mem_singleton_self _)
          have ordered := here.ordered
          rw [searched, unread] at ordered
          have before := List.rel_of_pairwise_cons ordered (List.mem_singleton_self property)
          have laid := ((part isObject).arguments (c := d) (r := c.record m.binding m.span usage) found rfl).append
            ((part isProperty).whole e) fun _ some =>
              before (hasReferences_of_call? found) ((hasReferences_iff e).mpr some)
          refine laid.mono (List.forall_mem_append.mpr ⟨?_, ?_⟩)
          · exact LaidOut.cover spans isObject
          · exact LaidOut.cover spans isProperty
      | called ctxt args typeArgs usage isCallee _ =>
          exact arguments (Option.map_eq_some_iff.mpr ⟨_, isCallee, rfl⟩) rfl
      | @declared target init m d e span definite usage found _ _ =>
          have isInit : (Place.init, init) ∈ (declarator span target init definite).parts :=
            List.mem_cons_of_mem _ (List.mem_singleton_self _)
          have noTarget : references bs d target = [] := by
            refine references_eq_nil (here.target target ?_) d
            simp [siteTarget?, found]
          rw [noTarget, List.nil_append]
          exact ((part isInit).arguments found rfl).mono (LaidOut.cover spans isInit)

end Tree

namespace Plan

variable {bs : Bindings} {refs : List Reference}

theorem inProcessingOrder_eq (bs : Bindings) (refs : List Reference) :
    inProcessingOrder bs refs =
      (List.range bs.length).flatMap fun b => refs.filter (·.binding = b) := by
  simp only [inProcessingOrder, processingOrder, List.filterMap_flatMap,
    filterMap_getElem?_filter_range]

theorem mem_inProcessingOrder (bound : ∀ r ∈ refs, r.binding < bs.length) (r : Reference) :
    r ∈ inProcessingOrder bs refs ↔ r ∈ refs := by
  rw [inProcessingOrder_eq]
  exact (perm_flatMap_filter refs Reference.binding bs.length bound).mem_iff

/-- References in the order of the text are processed by binding, and then in that order. -/
theorem inProcessingOrder_sorted (bs : Bindings) (sorted : refs.Pairwise Reference.Before) :
    (inProcessingOrder bs refs).Pairwise Reference.Precedes := by
  have binding {b : Nat} {r : Reference} (mem : r ∈ refs.filter (·.binding = b)) :
      r.binding = b :=
    of_decide_eq_true (List.mem_filter.mp mem).2
  rw [inProcessingOrder_eq]
  refine List.pairwise_flatMap.mpr ⟨fun b _ => ?_, ?_⟩
  · refine (sorted.filter _).imp_of_mem fun memR memS before => ?_
    exact .inr ⟨(binding memR).trans (binding memS).symm, before⟩
  · refine List.pairwise_lt_range.imp fun less r memR s memS => ?_
    rw [← binding memR, ← binding memS] at less
    exact .inl less

theorem ofModule_of_failure? {m : Module} {source : Option String} {failure : Failure}
    (failed : failure? source (m.references (.discover m.body))
      (processingOrder (.discover m.body) (m.references (.discover m.body))) = some failure) :
    ofModule m source = .error failure := by
  cases bindings : Bindings.discover m.body with
  | nil =>
      rw [bindings, m.references_nil] at failed
      cases failed
  | cons b rest =>
      rw [bindings] at failed
      simp only [ofModule, bindings, List.isEmpty_cons, Bool.false_eq_true, if_false, failed]

end Plan

namespace Module

variable {m : Module}

/-- The search of the module, and of every node in it, goes along the text. -/
structure InTextOrder (bs : Bindings) (m : Module) : Prop where
  nodes : ∀ way t, m.Holds way t → t.InTextOrder bs
  items : Tree.Ordered bs m.body

instance (bs : Bindings) (m : Module) : Decidable (m.InTextOrder bs) :=
  decidable_of_iff ((∀ t ∈ Tree.nodesList m.body, t.InTextOrder bs) ∧ Tree.Ordered bs m.body)
    ⟨fun ⟨nodes, items⟩ => ⟨m.forall_nodes_iff.mp nodes, items⟩,
      fun ⟨nodes, items⟩ => ⟨m.forall_nodes_iff.mpr nodes, items⟩⟩

/-- References are recorded in the order of the text. -/
theorem references_sorted {bs : Bindings} (nested : m.Nested) (inText : m.InTextOrder bs) :
    (m.references bs).Pairwise Reference.Before := by
  refine (Tree.LaidOut.list (fun t mem => ?_) inText.items .root).sorted
  exact t.laidOut [] fun way u holds =>
    ⟨nested way u ⟨t, mem, holds⟩, inText.nodes way u ⟨t, mem, holds⟩⟩

/-- If the search goes along the text, the fault that is reported is the first one in the text:
of the references below the root, or else, binding by binding, of those that are badly used. No
mention that the search comes to is missing among them. -/
theorem first_fault_reported (source : Option String) (nested : m.Nested)
    (inText : m.InTextOrder (.discover m.body)) :
    (∀ way t q, m.Searches (.discover m.body) way t → t.Recorded (.discover m.body) way q →
      ∃ r ∈ m.references (.discover m.body), r.Answers way q) ∧
    (∀ r ∈ m.references (.discover m.body), r.atRoot = false →
      ∃ s, IsFirst Reference.Before ((m.references (.discover m.body)).filter (!·.atRoot)) s ∧
        (∃ way t, m.Holds way t ∧ ¬ way.AtRoot ∧ t.Recorded (.discover m.body) way s) ∧
        Plan.ofModule m source = .error (.scopeViolation s.span)) ∧
    ((∀ r ∈ m.references (.discover m.body), r.atRoot = true) →
      ∀ r ∈ m.references (.discover m.body), r.fault?.isSome →
        ∃ s span, IsFirst Reference.Precedes
            ((m.references (.discover m.body)).filter (·.fault?.isSome)) s ∧
          (∃ way t, m.Holds way t ∧ t.Recorded (.discover m.body) way s) ∧
          s.usage = .error span ∧ Plan.ofModule m source = .error (.malformed source span)) ∧
    (Bindings.discover m.body).Pairwise fun a b => a.kind = .star → b.kind = .star := by
  have sorted := references_sorted nested inText
  have located := m.references_recorded (.discover m.body)
  refine ⟨fun _ _ _ searches => recorded_of_searches searches, fun r mem below => ?_,
    fun atRoot r mem fault => ?_, Bindings.discover_sorted m.body⟩
  · obtain ⟨s, found⟩ := Option.isSome_iff_exists.mp
      ((List.find?_isSome (p := (!·.atRoot))).mpr ⟨r, mem, by rw [below]; rfl⟩)
    obtain ⟨way, t, holds, same, recorded⟩ := located s (List.mem_of_find?_eq_some found)
    have notRoot := List.find?_some found
    refine ⟨s, isFirst_of_find? sorted found, ⟨way, t, holds, fun root => ?_, recorded⟩, ?_⟩
    · rw [same.mpr root] at notRoot
      cases notRoot
    · exact Plan.ofModule_of_failure? (by rw [Plan.failure?, found])
  · have none : (m.references (.discover m.body)).find? (!·.atRoot) = none := by
      refine List.find?_eq_none.mpr fun s isReference => ?_
      rw [atRoot s isReference]
      exact Bool.false_ne_true
    have same := Plan.mem_inProcessingOrder (m.references_bindings (.discover m.body))
    obtain ⟨span, reported⟩ := Option.isSome_iff_exists.mp
      (List.findSome?_isSome_iff.mpr ⟨r, (same r).mpr mem, fault⟩)
    obtain ⟨s, found, isFault⟩ := find?_of_findSome? reported
    obtain ⟨way, t, holds, -, recorded⟩ :=
      located s ((same s).mp (List.mem_of_find?_eq_some found))
    have first := isFirst_of_find? (Plan.inProcessingOrder_sorted _ sorted) found
    refine ⟨s, span, first.congr fun b => ?_, ⟨way, t, holds, recorded⟩,
      Reference.usage_of_fault? isFault, Plan.ofModule_of_failure? ?_⟩
    · rw [List.mem_filter, List.mem_filter, same]
    · rw [Plan.failure?_eq_of_atRoot source _ none, reported]
      rfl

end Module

namespace Sample

/-- `import { mock } from "@userlike/joke"; import * as M from "@userlike/joke";`
`f(M.mock); g(mock);` -/
def misusedTwice : Module :=
  ⟨⟨1, 96⟩, [importMockAt,
    .importDecl ⟨40, 76⟩ [.star ⟨47, 53⟩ ⟨⟨52, 53⟩, ⟨"M", 2⟩, false⟩]
      ⟨⟨59, 75⟩, mockModule, none⟩ false .absent "evaluation",
    .node .stmt .expressionStatement ⟨77, 87⟩ [.call ⟨77, 86⟩ 0 (identAt 77 "f")
      [.arg none (.member .expr ⟨79, 85⟩ (identAt 79 "M") (.name ⟨81, 85⟩ mockName))] .absent],
    .node .stmt .expressionStatement ⟨88, 96⟩
      [.call ⟨88, 95⟩ 0 (identAt 88 "g") [.arg none (identAt 90 mockName)] .absent]], none⟩

/-- `import { mock } from "@userlike/joke"; { { g(mock); } h(mock); }` -/
def misplacedTwice : Module :=
  let use (start : Nat) (name : String) := Tree.node .stmt .expressionStatement ⟨start, start + 8⟩
    [.call ⟨start, start + 7⟩ 0 (identAt start name) [.arg none (identAt (start + 2) mockName)]
      .absent]
  ⟨⟨1, 65⟩, [importMockAt, .scope .stmt .blockStatement ⟨40, 65⟩ []
    [.context 0, .items [.scope .stmt .blockStatement ⟨42, 54⟩ []
      [.context 0, .items [use 44 "g"]], use 55 "h"]]], none⟩

/-- `import { mock } from "@userlike/joke";`
`class A extends mock(import("a")).B { c = mock(import("d")).e; }` -/
def mockedSuperclass : Module :=
  let flag := Tree.leaf (.bool false)
  let none_ := Tree.leaf .null
  ⟨⟨1, 104⟩, [importMockAt,
    .scope .stmt .classDeclaration ⟨40, 104⟩
      [.ident .plain ⟨⟨46, 47⟩, ⟨"A", 2⟩, false⟩, flag]
      [.context 0, .items [],
        .items [.node .plain .classProperty ⟨78, 102⟩
          [.name ⟨78, 79⟩ "c",
            .member .expr ⟨82, 101⟩ (mockedAt 82 "d") (.name ⟨100, 101⟩ "e"), .absent, flag,
            .items [], none_, flag, flag, flag, flag, flag, flag]],
        .member .expr ⟨56, 75⟩ (mockedAt 56 "a") (.name ⟨74, 75⟩ "B"), flag, .absent, .absent,
        .items []]], none⟩

end Sample

namespace Module

/-- Of two uses at the root, that of the named binding is at fault first, though the other one
stands before it; of two uses below the root it is the one that stands first. -/
theorem first_fault_reported_twice :
    (Sample.misusedTwice.Nested ∧
      Sample.misusedTwice.InTextOrder (.discover Sample.misusedTwice.body) ∧
      ∃ s, IsFirst Reference.Precedes ((Sample.misusedTwice.references
          (.discover Sample.misusedTwice.body)).filter (·.fault?.isSome)) s ∧
        s.usage = .error ⟨88, 95⟩ ∧
        Plan.ofModule Sample.misusedTwice none = .error (.malformed none ⟨88, 95⟩)) ∧
    Sample.misplacedTwice.Nested ∧
      Sample.misplacedTwice.InTextOrder (.discover Sample.misplacedTwice.body) ∧
      ((Sample.misplacedTwice.references (.discover Sample.misplacedTwice.body)).filter
        (!·.atRoot)).map Reference.span = [⟨46, 50⟩, ⟨57, 61⟩] ∧
      ∃ s, IsFirst Reference.Before ((Sample.misplacedTwice.references
          (.discover Sample.misplacedTwice.body)).filter (!·.atRoot)) s ∧
        s.span = ⟨46, 50⟩ ∧
        Plan.ofModule Sample.misplacedTwice none = .error (.scopeViolation ⟨46, 50⟩) := by
  constructor
  · have nested : Sample.misusedTwice.Nested := by decide
    have inText : Sample.misusedTwice.InTextOrder (.discover Sample.misusedTwice.body) := by
      decide
    obtain ⟨-, -, faults, -⟩ := first_fault_reported none nested inText
    obtain ⟨s, span, first, -, usage, reported⟩ :=
      faults (by decide) _ List.mem_cons_self rfl
    have same : Plan.ofModule Sample.misusedTwice none = .error (.malformed none ⟨88, 95⟩) := rfl
    obtain ⟨rfl, -⟩ := Failure.malformedUsage.inj (Except.error.inj (reported.symm.trans same))
    exact ⟨nested, inText, s, first, usage, same⟩
  · have nested : Sample.misplacedTwice.Nested := by decide
    have inText : Sample.misplacedTwice.InTextOrder (.discover Sample.misplacedTwice.body) := by
      decide
    obtain ⟨-, violations, -⟩ := first_fault_reported none nested inText
    obtain ⟨s, first, -, reported⟩ := violations _ List.mem_cons_self rfl
    have same : Plan.ofModule Sample.misplacedTwice none = .error (.scopeViolation ⟨46, 50⟩) := rfl
    have span : s.span = ⟨46, 50⟩ :=
      Failure.scopeViolation.inj (Except.error.inj (reported.symm.trans same))
    exact ⟨nested, inText, rfl, s, first, span, same⟩

/-- What a class extends is searched after its body, so that of two mock calls below the root
the later one is reported, though parts of one node stand apart from each other. -/
theorem superclass_reported_late :
    Sample.mockedSuperclass.Nested ∧
      (∀ t ∈ Tree.nodesList Sample.mockedSuperclass.body,
        (t.parts.map Prod.snd).Pairwise fun u v => u.Before v ∨ v.Before u) ∧
      Plan.ofModule Sample.mockedSuperclass none = .error (.scopeViolation ⟨82, 99⟩) ∧
      ∃ r ∈ Sample.mockedSuperclass.references (.discover Sample.mockedSuperclass.body),
        r.atRoot = false ∧ r.span = ⟨56, 73⟩ :=
  ⟨by decide, by decide, rfl, _, List.mem_cons_of_mem _ List.mem_cons_self, rfl, rfl⟩

end Module

end MockImport
