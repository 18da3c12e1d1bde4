import Mathlib.Data.List.Nodup
import MockImport.Proofs.Planning
import MockImport.Proofs.UsageGrammar

/-!
The planner accepts exactly the grammar of uses. Mentions are followed downwards: below a
node the planner either records what it finds or, at a call whose result is taken up,
hands the arguments on; both agree with what the ways to the mentions say.
-/

namespace MockImport

namespace Tree

theorem dynamicImport?_isSome_iff (t : Tree) : t.dynamicImport?.isSome ↔ t.ImportsModule := by
  fun_induction dynamicImport? t with
  | case1 role span inner ih =>
      rw [ih]
      constructor
      · rintro ⟨_, _, _, _, _, _, _, inside⟩
        exact ⟨_, _, _, _, _, _, _, .paren inside⟩
      · rintro ⟨_, _, _, _, _, _, _, ⟨⟩ | inside⟩
        exact ⟨_, _, _, _, _, _, _, inside⟩
  | case2 => exact ⟨fun _ => ⟨_, _, _, _, _, _, _, .bare⟩, fun _ => rfl⟩
  | case3 t notParen notImport =>
      refine iff_of_false Bool.false_ne_true ?_
      rintro ⟨_, _, _, _, _, _, _, ⟨⟩ | ⟨inside⟩⟩
      · exact (notImport _ _ _ _ _ _ _ rfl).elim
      · exact (notParen _ _ _ rfl).elim

theorem destructuredPair?_isSome_iff (t : Tree) :
    t.destructuredPair?.isSome ↔ t.PlainProperty := by
  rw [Option.isSome_iff_exists]
  constructor
  · rintro ⟨pair, found⟩
    obtain ⟨_, _, _, rfl, -⟩ | ⟨_, _, _, _, rfl, -⟩ :=
      destructuredPair?_eq_some_iff.mp found
    · exact .shorthand _ _ _
    · exact .pair _ _ _ _
  · rintro (_ | _) <;> exact ⟨_, rfl⟩

theorem targetPattern?_isSome_iff (t : Tree) : t.targetPattern?.isSome ↔ t.PlainTarget := by
  constructor
  · intro isTarget
    obtain ⟨pattern, found⟩ := Option.isSome_iff_exists.mp isTarget
    obtain ⟨_, _, rfl, -⟩ | ⟨_, properties, _, _, _, rfl, made, -⟩ :=
      targetPattern?_eq_some_iff.mp found
    · exact .ident _ _
    · have each := (isSome_mapM_iff _ properties).mp (Option.isSome_of_eq_some made)
      exact .object _ _ _ _ fun p mem => (destructuredPair?_isSome_iff p).mp (each p mem)
  · rintro (_ | ⟨_, properties, _, _, plain⟩)
    · rfl
    · rw [targetPattern?, Option.isSome_map, isSome_mapM_iff]
      exact fun p mem => (destructuredPair?_isSome_iff p).mpr (plain p mem)

theorem propertyPattern?_isSome_iff (t : Tree) :
    t.propertyPattern?.isSome ↔ ∃ span property, t = .name span property := by
  simp only [Option.isSome_iff_exists, propertyPattern?_eq_some_iff]
  constructor
  · rintro ⟨_, span, property, same, -⟩
    exact ⟨span, property, same⟩
  · rintro ⟨span, property, same⟩
    exact ⟨_, span, property, same, rfl⟩

end Tree

namespace Way

variable (above : Way)

theorem atRoot_cons (step : Step) :
    AtRoot (step :: above) ↔ step.place ≠ .scoped ∧ AtRoot above :=
  List.forall_mem_cons

theorem atRoot_of_open {parent : Tree} {place : Place} (unscoped : place ≠ .scoped) :
    AtRoot (⟨parent, place⟩ :: above) ↔ AtRoot above :=
  (atRoot_cons above _).trans (and_iff_right unscoped)

theorem not_called {parent : Tree} {place : Place}
    (loose : place ≠ .enclosed ∧ place ≠ .callee) : ¬ Called (⟨parent, place⟩ :: above) := by
  obtain ⟨enclosed, callee⟩ := loose
  unfold Called
  split
  · next same =>
      obtain ⟨⟨-, rfl⟩, -⟩ := same
      exact absurd rfl enclosed
  · next same =>
      obtain ⟨⟨-, rfl⟩, -⟩ := same
      exact absurd rfl callee
  · exact id

theorem not_takenUp {parent : Tree} {place : Place}
    (loose : place ≠ .enclosed ∧ place ≠ .init ∧ place ≠ .object) :
    ¬ TakenUp (⟨parent, place⟩ :: above) := by
  obtain ⟨enclosed, init, object⟩ := loose
  unfold TakenUp
  split
  · next same =>
      obtain ⟨⟨-, rfl⟩, -⟩ := same
      exact absurd rfl enclosed
  · next same =>
      obtain ⟨⟨-, rfl⟩, -⟩ := same
      exact absurd rfl init
  · next same =>
      obtain ⟨⟨-, rfl⟩, -⟩ := same
      exact absurd rfl object
  · exact id

theorem called_callee (b : Nat) (span : Span) (ctxt : Nat) (callee : Tree) (args : List Tree)
    (typeArgs : Tree) :
    Called (⟨.call span ctxt callee args typeArgs, .callee⟩ :: above) ↔
      (MockCall.mk b span args).specifier?.isSome ∧ TakenUp above := by
  unfold Called
  split
  · next same => cases same
  · next same =>
      obtain ⟨⟨rfl, rfl⟩, rfl⟩ := same
      rw [MockCall.specifier?, Tree.dynamicImport?_isSome_iff]
  · next _ notCall =>
      refine ⟨False.elim, fun both => ?_⟩
      obtain ⟨source, named⟩ := Option.isSome_iff_exists.mp both.1
      obtain ⟨argument, only, -⟩ := MockCall.specifier?_eq_some_iff.mp named
      obtain rfl : args = [.arg none argument] := only
      exact notCall _ _ _ _ _ _ rfl

theorem takenUp_init (span : Span) (target init : Tree) (definite : Bool) :
    TakenUp (⟨.declarator span target init definite, .init⟩ :: above) ↔
      target.targetPattern?.isSome :=
  target.targetPattern?_isSome_iff.symm

theorem takenUp_object (span : Span) (object property : Tree) :
    TakenUp (⟨.member .expr span object property, .object⟩ :: above) ↔
      property.propertyPattern?.isSome := by
  rw [Tree.propertyPattern?_isSome_iff]
  cases property with
  | name span text => exact iff_of_true trivial ⟨span, text, rfl⟩
  | _ => exact iff_of_false id (by rintro ⟨_, _, ⟨⟩⟩)

end Way

namespace Tree

variable {bs : Bindings} {above way : Way} {t u : Tree}

theorem holds_iff :
    t.Holds above way u ↔
      (way = above ∧ u = t) ∨ ∃ p ∈ t.parts, p.2.Holds (⟨t, p.1⟩ :: above) way u := by
  constructor
  · intro holds
    induction holds with
    | here => exact .inl ⟨rfl, rfl⟩
    | part holds mem ih =>
        obtain ⟨rfl, rfl⟩ | ⟨p, isPart, inside⟩ := ih
        · exact .inr ⟨_, mem, .here⟩
        · exact .inr ⟨p, isPart, inside.part mem⟩
  · rintro (⟨rfl, rfl⟩ | ⟨p, isPart, inside⟩)
    · exact .here
    · induction inside with
      | here => exact .part .here isPart
      | part _ mem ih => exact .part ih mem

/-- A mention is accepted if it is an expression at the root that is called, the call
names a module, and its result is taken up. -/
def Accepted (bs : Bindings) (way : Way) (t : Tree) : Prop :=
  (t.Refers bs → way.AtRoot ∧ way.Called) ∧ ¬ t.Mentions bs

/-- Every mention in a tree is accepted. -/
def Allowed (bs : Bindings) (above : Way) (t : Tree) : Prop :=
  ∀ way u, t.Holds above way u → u.Accepted bs way

theorem allowed_iff :
    t.Allowed bs above ↔
      t.Accepted bs above ∧ ∀ p ∈ t.parts, p.2.Allowed bs (⟨t, p.1⟩ :: above) := by
  constructor
  · intro allowed
    exact ⟨allowed _ _ .here, fun p mem way u inside =>
      allowed way u (holds_iff.mpr (.inr ⟨p, mem, inside⟩))⟩
  · rintro ⟨accepted, parts⟩ way u holds
    obtain ⟨rfl, rfl⟩ | ⟨p, mem, inside⟩ := holds_iff.mp holds
    · exact accepted
    · exact parts p mem way u inside

/-- A node that mentions nothing itself leaves the matter to its parts. -/
theorem allowed_iff_of_quiet (quiet : ¬ t.Refers bs) (mute : ¬ t.Mentions bs) :
    t.Allowed bs above ↔ ∀ p ∈ t.parts, p.2.Allowed bs (⟨t, p.1⟩ :: above) := by
  rw [allowed_iff]
  exact and_iff_right ⟨fun refers => absurd refers quiet, mute⟩

/-- The node is of no kind that can mention the mock function. -/
def isSilent : Tree → Bool
  | .ident .expr _ | .member .expr _ _ _ | .shorthand _ | .exportNamed _ _ none _ _ => false
  | _ => true

theorem allowed_iff_of_silent (silent : t.isSilent = true) :
    t.Allowed bs above ↔ ∀ p ∈ t.parts, p.2.Allowed bs (⟨t, p.1⟩ :: above) := by
  apply allowed_iff_of_quiet
  · rintro (_ | _) <;> cases silent
  · rintro (_ | _) <;> cases silent

end Tree

namespace Bindings

variable {bs : Bindings}

theorem named?_isSome_iff (v : Variable) : (bs.named? v).isSome ↔ ⟨v, .named⟩ ∈ bs := by
  simp only [named?, List.findIdx?_isSome, List.any_eq_true, decide_eq_true_eq,
    exists_eq_right]

theorem refers_ident_iff (id : Ident) :
    (Tree.ident .expr id).Refers bs ↔ (bs.named? id.var).isSome := by
  rw [named?_isSome_iff]
  exact ⟨fun refers => by cases refers; assumption, .ident id⟩

theorem refers_member_iff (span : Span) (object property : Tree) :
    (Tree.member .expr span object property).Refers bs ↔
      (bs.member? object property).isSome := by
  simp only [member?]
  split
  · next id nameSpan name =>
      split
      · next same =>
          obtain rfl := same
          simp only [List.findIdx?_isSome, List.any_eq_true, decide_eq_true_eq,
            exists_eq_right]
          exact ⟨fun refers => (by cases refers; assumption), fun bound => .member _ _ _ bound⟩
      · next other =>
          exact iff_of_false (fun refers => other (by cases refers; rfl)) Bool.false_ne_true
  · next notMember =>
      refine iff_of_false ?_ Bool.false_ne_true
      rintro ⟨⟩
      exact notMember _ _ _ rfl rfl

end Bindings

/-- No variable is bound both to the mock function and to its module. -/
def Bindings.Distinct (bs : Bindings) : Prop := ∀ v, ⟨v, .named⟩ ∈ bs → ⟨v, .star⟩ ∉ bs

namespace Tree

variable {bs : Bindings} {above : Way}

/-- What a callee mentions is the callee itself. -/
theorem allowed_callee (distinct : bs.Distinct) {t : Tree} {b : Nat}
    (isCallee : bs.callee? t = some b) :
    t.Allowed bs above ↔ above.AtRoot ∧ above.Called := by
  induction t generalizing above with
  | paren role span inner ih =>
      rw [allowed_iff_of_silent (by rfl)]
      simp only [parts, List.forall_mem_singleton]
      rw [ih isCallee]
      exact and_congr_left fun _ => Way.atRoot_of_open _ (by decide)
  | ident role id =>
      cases role with
      | expr =>
          have refers := (Bindings.refers_ident_iff id).mpr (Option.isSome_of_eq_some isCallee)
          rw [allowed_iff]
          exact ⟨fun both => both.1.1 refers, fun accepted =>
            ⟨⟨fun _ => accepted, (by rintro ⟨⟩)⟩, List.forall_mem_nil _⟩⟩
      | _ => cases isCallee
  | member role span object property =>
      cases role with
      | expr =>
          have refers := (Bindings.refers_member_iff span object property).mpr
            (Option.isSome_of_eq_some isCallee)
          refine allowed_iff.trans ⟨fun both => both.1.1 refers, fun accepted =>
            ⟨⟨fun _ => accepted, (by rintro ⟨⟩)⟩, ?_⟩⟩
          obtain ⟨⟩ | ⟨_, nameSpan, id, star⟩ := refers
          have inner : ¬ (Tree.ident .expr id).Refers bs := by
            rintro (⟨_, named⟩ | _)
            exact distinct id.var named star
          simp only [parts, List.forall_mem_cons]
          refine ⟨?_, ?_, List.forall_mem_nil _⟩
          · exact (allowed_iff_of_quiet inner (by rintro ⟨⟩)).mpr (List.forall_mem_nil _)
          · exact (allowed_iff_of_silent rfl).mpr (List.forall_mem_nil _)
      | _ => cases isCallee
  | _ => cases isCallee

end Tree

/-- The context knows whether the way lies at the root. -/
def Context.Matches (c : Context) (way : Way) : Prop := c.atRoot = true ↔ way.AtRoot

namespace Context.Matches

variable {c : Context} {above : Way}

theorem step (same : c.Matches above) (parent : Tree) {place : Place}
    (open_ : place ≠ .scoped) : c.Matches (⟨parent, place⟩ :: above) := by
  rw [Matches, Way.atRoot_cons, and_iff_right open_]
  exact same

theorem other (same : c.Matches above) (parent : Tree) :
    c.Matches (⟨parent, .other⟩ :: above) :=
  same.step parent (by decide)

theorem atRoot_iff (same : c.Matches above) : above.AtRoot ↔ c.atRoot = true := Iff.symm same

theorem within (same : c.Matches above) (span : Span) : (c.within span).Matches above := same

theorem enter (same : c.Matches above) (role : Role) (span : Span) :
    (c.enter role span).Matches above := by
  rw [Context.enter]
  split <;> exact same

theorem below (c : Context) (parent : Tree) :
    c.below.Matches (⟨parent, .scoped⟩ :: above) := by
  rw [Matches, Way.atRoot_cons]
  exact iff_of_false Bool.false_ne_true fun both => both.1 rfl

end Context.Matches

namespace Reference

theorem accepted_record_usage (c : Context) (call : MockCall) (consumer : Span)
    (pattern : Option Pattern) :
    (c.record call.binding call.span (call.usage consumer pattern)).Accepted ↔
      c.atRoot = true ∧ call.specifier?.isSome ∧ pattern.isSome := by
  apply and_congr_right
  intro _
  obtain ⟨source, p, names, rfl, usage⟩ | ⟨at_, missing, usage⟩ :=
    call.usage_cases consumer pattern
  · rw [usage, names]
    exact iff_of_true rfl ⟨rfl, rfl⟩
  · rw [usage]
    refine iff_of_false (Option.some_ne_none at_) ?_
    obtain unnamed | rfl := missing
    · simp [unnamed]
    · simp

theorem not_accepted_unconsumed (c : Context) (call : MockCall) :
    ¬ (c.unconsumed call).Accepted :=
  fun accepted => fault?_unconsumed c call accepted.2

end Reference

namespace Tree

variable {bs : Bindings}

/-- The planner's judgement of a tree agrees with what the ways to its mentions say. -/
structure Judged (bs : Bindings) (t : Tree) : Prop where
  /-- A tree that is no callee, and no call whose result is taken up. -/
  whole : ∀ {above : Way} {c : Context}, c.Matches above →
    ((bs.callee? t).isSome → ¬ above.Called) → ((bs.call? t).isSome → ¬ above.TakenUp) →
      (t.Allowed bs above ↔ ∀ r ∈ references bs c t, r.Accepted)
  /-- A call, whose arguments are left once it is judged itself. -/
  taken : ∀ {above : Way} {c : Context} {m : MockCall}, c.Matches above → bs.call? t = some m →
    (t.Allowed bs above ↔
      (above.AtRoot ∧ m.specifier?.isSome ∧ above.TakenUp) ∧
        ∀ r ∈ argReferences bs c t, r.Accepted)

theorem allowed_absent (above : Way) : (Tree.absent).Allowed bs above := by
  rw [allowed_iff_of_silent (by rfl)]
  exact List.forall_mem_nil _

theorem isAbsent_iff {t : Tree} : t.isAbsent = true ↔ t = .absent := by
  cases t <;> simp [isAbsent]

namespace Judged

variable {t : Tree} {above : Way} {c : Context}

/-- Trees none of which can be a callee or a call whose result is taken up. -/
theorem listAt {ts : List Tree} (judged : ∀ t ∈ ts, Judged bs t) (same : c.Matches above)
    (uncalled : ¬ above.Called) (untaken : ¬ above.TakenUp) :
    (∀ t ∈ ts, t.Allowed bs above) ↔ ∀ r ∈ referencesList bs c ts, r.Accepted := by
  induction ts with
  | nil => exact iff_of_true (List.forall_mem_nil _) (List.forall_mem_nil _)
  | cons t rest ih =>
      obtain ⟨here, later⟩ := List.forall_mem_cons.mp judged
      rw [List.forall_mem_cons, referencesList, List.forall_mem_append,
        here.whole same (fun _ => uncalled) fun _ => untaken, ih later]

/-- Parts that their parent neither calls nor takes up. -/
theorem list {ts : List Tree} (judged : ∀ t ∈ ts, Judged bs t) {parent : Tree}
    {place : Place} (loose : place = .other ∨ place = .scoped)
    (same : c.Matches (⟨parent, place⟩ :: above)) :
    (∀ t ∈ ts, t.Allowed bs (⟨parent, place⟩ :: above)) ↔
      ∀ r ∈ referencesList bs c ts, r.Accepted := by
  apply listAt judged same
  · obtain rfl | rfl := loose <;> exact Way.not_called _ (by decide)
  · obtain rfl | rfl := loose <;> exact Way.not_takenUp _ (by decide)

theorem part (judged : Judged bs t) {parent : Tree} {place : Place}
    (loose : place = .other ∨ place = .scoped) (same : c.Matches (⟨parent, place⟩ :: above)) :
    t.Allowed bs (⟨parent, place⟩ :: above) ↔ ∀ r ∈ references bs c t, r.Accepted := by
  apply judged.whole same
  · obtain rfl | rfl := loose <;> exact fun _ => Way.not_called _ (by decide)
  · obtain rfl | rfl := loose <;> exact fun _ => Way.not_takenUp _ (by decide)

/-- A tree that is no call is judged as a whole. -/
theorem of_whole (noCall : bs.call? t = none)
    (same : ∀ {above : Way} {c : Context}, c.Matches above →
      ((bs.callee? t).isSome → ¬ above.Called) →
        (t.Allowed bs above ↔ ∀ r ∈ references bs c t, r.Accepted)) : Judged bs t where
  whole matched uncalled _ := same matched uncalled
  taken _ found := (Option.some_ne_none _ (found.symm.trans noCall)).elim

/-- A tree that mentions nothing itself is judged by its parts. -/
theorem of_parts (silent : t.isSilent = true) (noCall : bs.call? t = none)
    (same : ∀ {above : Way} {c : Context}, c.Matches above →
      ((∀ p ∈ t.parts, p.2.Allowed bs (⟨t, p.1⟩ :: above)) ↔
        ∀ r ∈ references bs c t, r.Accepted)) : Judged bs t :=
  of_whole noCall fun matched _ => (allowed_iff_of_silent silent).trans (same matched)

theorem not_allowed_of_callee (distinct : bs.Distinct) {b : Nat} (isCallee : bs.callee? t = some b)
    (uncalled : (bs.callee? t).isSome → ¬ above.Called) : ¬ t.Allowed bs above := by
  rw [allowed_callee distinct isCallee]
  exact fun both => uncalled (Option.isSome_of_eq_some isCallee) both.2

theorem ident (distinct : bs.Distinct) (id : Ident) : Judged bs (.ident .expr id) := by
  refine of_whole rfl fun _ uncalled => ?_
  cases named : bs.named? id.var with
  | none =>
      have quiet : ¬ (Tree.ident .expr id).Refers bs := by
        rw [Bindings.refers_ident_iff, named]
        exact Bool.false_ne_true
      rw [allowed_iff_of_quiet quiet (by rintro ⟨⟩)]
      simp only [references, named]
      exact iff_of_true (List.forall_mem_nil _) (List.forall_mem_nil _)
  | some b =>
      have isCallee : bs.callee? (.ident .expr id) = some b := named
      simp only [references, named, List.forall_mem_singleton]
      exact iff_of_false (not_allowed_of_callee distinct isCallee uncalled)
        fun accepted => Option.some_ne_none _ accepted.2

theorem shorthand (id : Ident) : Judged bs (.shorthand id) := by
  refine of_whole rfl fun _ _ => ?_
  cases named : bs.named? id.var with
  | none =>
      have mute : ¬ (Tree.shorthand id).Mentions bs := by
        rintro (⟨_, bound⟩ | _)
        have isSome := (Bindings.named?_isSome_iff id.var).mpr bound
        exact Option.not_isSome_iff_eq_none.mpr named isSome
      rw [allowed_iff_of_quiet (t := .shorthand id) (by rintro ⟨⟩) mute]
      simp only [references, named]
      exact iff_of_true (List.forall_mem_nil _) (List.forall_mem_nil _)
  | some b =>
      have bound := (Bindings.named?_isSome_iff id.var).mp (Option.isSome_of_eq_some named)
      rw [allowed_iff]
      simp only [references, named, List.forall_mem_singleton]
      exact iff_of_false (fun both => both.1.2 (.shorthand id bound))
        fun accepted => Option.some_ne_none _ accepted.2

theorem paren (judged : Judged bs t) (role : Role) (span : Span) :
    Judged bs (.paren role span t) := by
  have enclosed (above : Way) : (Tree.paren role span t).Allowed bs above ↔
      t.Allowed bs (⟨.paren role span t, .enclosed⟩ :: above) := by
    rw [allowed_iff_of_silent (by rfl)]
    simp only [parts, List.forall_mem_singleton]
  have inside {above : Way} {c : Context} (matched : c.Matches above) :
      c.Matches (⟨.paren role span t, .enclosed⟩ :: above) :=
    matched.step _ (by decide)
  refine ⟨fun {above c} matched uncalled untaken => ?_, fun {above c m} matched found => ?_⟩
  · rw [enclosed]
    cases role with
    | expr =>
        cases call : bs.call? t with
        | none =>
            simp only [references, call]
            exact judged.whole ((inside matched).within span) uncalled untaken
        | some m =>
            rw [judged.taken (inside matched) call]
            simp only [references, call, List.forall_mem_cons]
            exact iff_of_false (fun both => untaken (Option.isSome_of_eq_some call) both.1.2.2)
              fun both => Reference.not_accepted_unconsumed c m both.1
    | _ => exact judged.whole ((inside matched).enter _ span) uncalled untaken
  · rw [enclosed, judged.taken (inside matched) found,
      Way.atRoot_of_open _ (show Place.enclosed ≠ .scoped by decide)]
    rfl

/-- A member access takes up a call that is its object. -/
theorem member (distinct : bs.Distinct) {object property : Tree} (judgedObject : Judged bs object)
    (judgedProperty : Judged bs property) (span : Span) :
    Judged bs (.member .expr span object property) := by
  refine of_whole rfl fun {above c} matched uncalled => ?_
  cases star : bs.member? object property with
  | some b =>
      simp only [references, star, List.forall_mem_singleton]
      have isCallee : bs.callee? (.member .expr span object property) = some b := star
      exact iff_of_false (not_allowed_of_callee distinct isCallee uncalled)
        fun accepted => Option.some_ne_none _ accepted.2
  | none =>
      have quiet : ¬ (Tree.member .expr span object property).Refers bs := by
        rw [Bindings.refers_member_iff, star]
        exact Bool.false_ne_true
      rw [allowed_iff_of_quiet quiet (by rintro ⟨⟩)]
      simp only [parts, references, star, List.forall_mem_append, List.forall_mem_cons,
        List.not_mem_nil, false_implies, implies_true, and_true]
      refine and_congr ?_ (judgedProperty.part (.inl rfl) ((matched.other _).within span))
      have rooted : c.Matches (⟨.member .expr span object property, .object⟩ :: above) :=
        matched.step _ (by decide)
      cases call : bs.call? object with
      | none =>
          exact judgedObject.whole (rooted.within span) (fun _ => Way.not_called _ (by decide))
            fun isCall => (Option.not_isSome_iff_eq_none.mpr call isCall).elim
      | some m =>
          rw [judgedObject.taken (rooted.within m.span) call, Way.takenUp_object,
            rooted.atRoot_iff]
          simp only [List.forall_mem_cons, Reference.accepted_record_usage]

theorem call (distinct : bs.Distinct) {callee : Tree} {args : List Tree}
    (judgedCallee : Judged bs callee) (judgedArgs : ∀ t ∈ args, Judged bs t) (span : Span)
    (ctxt : Nat) : Judged bs (.call span ctxt callee args .absent) := by
  have split {above : Way} {c : Context} (matched : c.Matches above) :
      (Tree.call span ctxt callee args .absent).Allowed bs above ↔
        callee.Allowed bs (⟨.call span ctxt callee args .absent, .callee⟩ :: above) ∧
          ∀ r ∈ referencesList bs c args, r.Accepted := by
    rw [allowed_iff_of_silent (by rfl)]
    simp only [parts, List.forall_mem_cons, List.forall_mem_append, List.forall_mem_map,
      List.not_mem_nil, false_implies, implies_true, and_true, allowed_absent]
    exact and_congr_right fun _ => list judgedArgs (.inl rfl) (matched.other _)
  have taken {above : Way} {c : Context} {m : MockCall} (matched : c.Matches above)
      (found : bs.call? (.call span ctxt callee args .absent) = some m) :
      (Tree.call span ctxt callee args .absent).Allowed bs above ↔
        (above.AtRoot ∧ m.specifier?.isSome ∧ above.TakenUp) ∧
          ∀ r ∈ referencesList bs c args, r.Accepted := by
    obtain ⟨b, isCallee, rfl⟩ := Option.map_eq_some_iff.mp found
    rw [split matched, allowed_callee distinct isCallee,
      Way.atRoot_of_open _ (show Place.callee ≠ .scoped by decide), Way.called_callee]
  refine ⟨fun {above c} matched _ untaken => ?_, taken⟩
  cases isCallee : bs.callee? callee with
  | none =>
      rw [split (matched.within span)]
      simp only [references, isCallee, List.append_nil, List.forall_mem_append]
      exact and_congr_left fun _ => judgedCallee.whole ((matched.step _ (by decide)).within span)
        (fun isSome => (Option.not_isSome_iff_eq_none.mpr isCallee isSome).elim)
        fun _ => Way.not_takenUp _ (by decide)
  | some b =>
      have found : bs.call? (.call span ctxt callee args .absent) = some ⟨b, span, args⟩ := by
        simp only [Bindings.call?, isCallee, Option.map_some]
      rw [taken (matched.within span) found]
      simp only [references, isCallee, List.forall_mem_cons]
      exact iff_of_false (fun both => untaken (Option.isSome_of_eq_some found) both.1.2.2)
        fun both => Reference.not_accepted_unconsumed c _ both.1

/-- A declarator takes up a call that is its initial value. -/
theorem declarator {target init : Tree} (judgedTarget : Judged bs target)
    (judgedInit : Judged bs init) (span : Span) (definite : Bool) :
    Judged bs (.declarator span target init definite) := by
  refine of_parts rfl rfl fun {above c} matched => ?_
  simp only [parts, references, List.forall_mem_cons, List.not_mem_nil, false_implies,
    implies_true, and_true]
  rw [judgedTarget.part (.inl rfl) ((matched.other _).within span)]
  have rooted : c.Matches (⟨.declarator span target init definite, .init⟩ :: above) :=
    matched.step _ (by decide)
  cases call : bs.call? init with
  | none =>
      rw [List.forall_mem_append]
      exact and_congr_right fun _ => judgedInit.whole (rooted.within span)
        (fun _ => Way.not_called _ (by decide))
        fun isCall => (Option.not_isSome_iff_eq_none.mpr call isCall).elim
  | some m =>
      rw [judgedInit.taken (rooted.within m.span) call, Way.takenUp_init, rooted.atRoot_iff]
      simp only [List.forall_mem_cons, List.forall_mem_append, Reference.accepted_record_usage]
      exact and_left_comm

/-- An export list of the module itself may not mention the mock function. -/
theorem exportList (span : Span) (specifiers : List ExportSpecifier) (typeOnly : Bool) :
    Judged bs (.exportNamed span specifiers none typeOnly .absent) := by
  refine of_whole rfl fun {above c} _ _ => ?_
  rw [allowed_iff]
  simp only [parts, List.forall_mem_singleton, allowed_absent, and_true]
  constructor
  · intro accepted r mem
    obtain ⟨s, isSpecifier, mem⟩ := List.mem_flatMap.mp mem
    obtain ⟨_, _, _, _, b, rfl, found, -⟩ := ExportSpecifier.mem_references mem
    have bound := (Bindings.named?_isSome_iff _).mp (Option.isSome_of_eq_some found)
    exact (accepted.2 (.exported _ _ _ _ _ _ _ _ isSpecifier bound)).elim
  · intro accepted
    refine ⟨by rintro ⟨⟩, ?_⟩
    rintro (_ | ⟨_, _, _, _, s, subject, _, _, isSpecifier, bound⟩)
    obtain ⟨b, found⟩ := Option.isSome_iff_exists.mp
      ((Bindings.named?_isSome_iff subject.var).mpr bound)
    have listed : c.record b subject.span (.error s) ∈
        specifiers.flatMap (ExportSpecifier.references bs c) :=
      List.mem_flatMap.mpr ⟨_, isSpecifier, by
        simp only [ExportSpecifier.references, found, List.mem_singleton]⟩
    cases (accepted _ listed).2

end Judged

open List Judged in
theorem judged_of_isPlain (distinct : bs.Distinct) (t : Tree) (declared : Bool)
    (plain : t.isPlain declared = true) : Judged bs t := by
  have all {ts : List Tree} {declared : Bool} (plain : arePlain declared ts = true)
      (ih : ∀ t ∈ ts, ∀ declared, t.isPlain declared = true → Judged bs t) :
      ∀ t ∈ ts, Judged bs t :=
    fun t mem => ih t mem declared (arePlain_iff.mp plain t mem)
  induction t generalizing declared with
  | absent | leaf _ | context _ | name _ _ | string _ =>
      exact of_parts rfl rfl fun _ => iff_of_true (forall_mem_nil _) (forall_mem_nil _)
  | ident role id =>
      cases role with
      | expr => exact .ident distinct id
      | _ => exact of_parts rfl rfl fun _ => iff_of_true (forall_mem_nil _) (forall_mem_nil _)
  | shorthand id => exact .shorthand id
  | items trees ih =>
      refine of_parts rfl rfl fun matched => ?_
      simp only [parts, forall_mem_map]
      exact Judged.list (all plain ih) (.inl rfl) (matched.other _)
  | binding id typing ih =>
      obtain rfl := isAbsent_iff.mp plain
      refine of_parts rfl rfl fun matched => ?_
      simp only [parts, forall_mem_singleton]
      exact iff_of_true (allowed_absent _) (forall_mem_nil _)
  | arg spread value ih =>
      refine of_parts rfl rfl fun matched => ?_
      simp only [parts, forall_mem_singleton]
      exact (ih false plain).part (.inl rfl) (matched.other _)
  | paren role span inner ih => exact (ih false plain).paren role span
  | member role span object property ihObject ihProperty =>
      simp only [isPlain, Bool.and_eq_true] at plain
      have judgedObject := ihObject false plain.1
      have judgedProperty := ihProperty false plain.2
      cases role with
      | expr => exact judgedObject.member distinct judgedProperty span
      | _ =>
          refine of_parts rfl rfl fun matched => ?_
          simp only [parts, references, forall_mem_append, forall_mem_cons, not_mem_nil,
            false_implies, implies_true, and_true]
          exact and_congr
            (judgedObject.whole ((matched.step _ (by decide)).enter _ span)
              (fun _ => Way.not_called _ (by decide)) fun _ => id)
            (judgedProperty.part (.inl rfl) ((matched.other _).enter _ span))
  | call span ctxt callee args typeArgs ihCallee ihArgs _ =>
      simp only [isPlain, Bool.and_eq_true] at plain
      obtain ⟨⟨plainCallee, plainArgs⟩, absent⟩ := plain
      obtain rfl := isAbsent_iff.mp absent
      exact (ihCallee false plainCallee).call distinct (all plainArgs ihArgs) span ctxt
  | declaration role span _ _ _ ts ih =>
      refine of_parts rfl rfl fun matched => ?_
      simp only [parts, forall_mem_map]
      exact Judged.list (all plain ih) (.inl rfl) ((matched.other _).enter role span)
  | declarator span target init definite ihTarget ihInit =>
      simp only [isPlain, Bool.and_eq_true] at plain
      obtain ⟨⟨-, plainTarget⟩, plainInit⟩ := plain
      exact (ihTarget false plainTarget).declarator (ihInit false plainInit) span definite
  | objectPattern _ properties _ typing ihProperties _ =>
      simp only [isPlain, Bool.and_eq_true] at plain
      obtain ⟨plainProperties, absent⟩ := plain
      obtain rfl := isAbsent_iff.mp absent
      refine of_parts rfl rfl fun matched => ?_
      simp only [parts, references, forall_mem_append, forall_mem_map, forall_mem_singleton]
      exact and_congr (Judged.list (all plainProperties ihProperties) (.inl rfl) (matched.other _))
        (iff_of_true (allowed_absent _) (forall_mem_nil _))
  | patternShorthand _ _ typing value _ ihValue =>
      simp only [isPlain, Bool.and_eq_true] at plain
      obtain ⟨absent, plainValue⟩ := plain
      obtain rfl := isAbsent_iff.mp absent
      refine of_parts rfl rfl fun matched => ?_
      simp only [parts, references, nil_append, forall_mem_cons, not_mem_nil, false_implies,
        implies_true, and_true]
      exact (and_iff_right (allowed_absent _)).trans
        ((ihValue false plainValue).part (.inl rfl) (matched.other _))
  | patternPair key value ihKey ihValue | pair key value ihKey ihValue =>
      simp only [isPlain, Bool.and_eq_true] at plain
      refine of_parts rfl rfl fun matched => ?_
      simp only [parts, references, forall_mem_append, forall_mem_cons, not_mem_nil,
        false_implies, implies_true, and_true]
      exact and_congr ((ihKey false plain.1).part (.inl rfl) (matched.other _))
        ((ihValue false plain.2).part (.inl rfl) (matched.other _))
  | getter span key typing body ihKey _ ihBody =>
      simp only [isPlain, Bool.and_eq_true] at plain
      obtain ⟨⟨plainKey, absent⟩, plainBody⟩ := plain
      obtain rfl := isAbsent_iff.mp absent
      refine of_parts rfl rfl fun {above c} matched => ?_
      simp only [parts, references, forall_mem_append, forall_mem_cons, not_mem_nil,
        false_implies, implies_true, and_true]
      exact and_congr ((ihKey false plainKey).part (.inl rfl) ((matched.other _).within span))
        ((and_iff_right (allowed_absent _)).trans
          ((ihBody false plainBody).part (.inr rfl) (.below (c.within span) _)))
  | importDecl span _ _ _ attributes _ _ =>
      obtain rfl := isAbsent_iff.mp plain
      refine of_parts rfl rfl fun _ => ?_
      simp only [parts, forall_mem_singleton]
      exact iff_of_true (allowed_absent _) (forall_mem_nil _)
  | exportNamed span specifiers source typeOnly attributes _ =>
      obtain rfl := isAbsent_iff.mp plain
      cases source with
      | none => exact .exportList span specifiers typeOnly
      | some source =>
          refine of_parts rfl rfl fun _ => ?_
          simp only [parts, forall_mem_singleton]
          exact iff_of_true (allowed_absent _) (forall_mem_nil _)
  | exportDecl span _ ih =>
      refine of_parts rfl rfl fun matched => ?_
      simp only [parts, forall_mem_singleton]
      exact (ih false plain).part (.inl rfl) ((matched.other _).within span)
  | scope role kind span outer inner ihOuter ihInner =>
      simp only [isPlain, Bool.and_eq_true] at plain
      refine of_parts rfl rfl fun {above c} matched => ?_
      simp only [parts, references, forall_mem_append, forall_mem_map]
      exact and_congr
        (Judged.list (all plain.1 ihOuter) (.inl rfl) ((matched.other _).enter role span))
        (Judged.list (all plain.2 ihInner) (.inr rfl) (.below (c.enter role span) _))
  | moduleBlock span body ih =>
      refine of_parts rfl rfl fun {above c} _ => ?_
      simp only [parts, forall_mem_map]
      exact Judged.list (all plain ih) (.inr rfl) (.below c _)
  | node role kind span fields ih =>
      simp only [isPlain, Bool.and_eq_true] at plain
      refine of_parts rfl rfl fun matched => ?_
      simp only [parts, forall_mem_map]
      exact Judged.list (all plain.1 ih) (.inl rfl) ((matched.other _).enter role span)

end Tree

theorem Tree.mockSpecifiers_subset (t : Tree) : t.mockSpecifiers ⊆ t.importSpecifiers := by
  intro s mem
  simp only [mockSpecifiers] at mem
  split at mem
  · split at mem
    · exact mem
    · cases mem
  · cases mem

namespace ImportSpecifier

theorem of_namedBinding? {s : ImportSpecifier} {b : Binding} (found : s.namedBinding? = some b) :
    b = ⟨s.var, .named⟩ ∧ ∃ span binding imported typeOnly,
      s = .named span binding imported typeOnly := by
  cases s with
  | named span binding imported typeOnly =>
      obtain ⟨-, same⟩ := Option.ite_none_right_eq_some.mp found
      exact ⟨(Option.some.inj same).symm, _, _, _, _, rfl⟩
  | _ => cases found

theorem of_starBinding? {s : ImportSpecifier} {b : Binding} (found : s.starBinding? = some b) :
    b = ⟨s.var, .star⟩ ∧ ∃ span binding, s = .star span binding := by
  cases s with
  | star span binding => exact ⟨(Option.some.inj found).symm, _, _, rfl⟩
  | _ => cases found

end ImportSpecifier

theorem Module.distinct_of_nodup {m : Module} (nodup : m.importLocals.Nodup) :
    (Bindings.discover m.body).Distinct := by
  have imported {s : ImportSpecifier} (mem : s ∈ m.body.flatMap Tree.mockSpecifiers) :
      s ∈ m.body.flatMap Tree.importSpecifiers := by
    obtain ⟨t, inBody, mem⟩ := List.mem_flatMap.mp mem
    exact List.mem_flatMap.mpr ⟨t, inBody, t.mockSpecifiers_subset mem⟩
  intro v named star
  simp only [Bindings.discover, List.mem_append, List.mem_filterMap] at named star
  obtain ⟨s, memS, found⟩ | ⟨s, memS, found⟩ := named
  · obtain ⟨same, _, _, _, _, rfl⟩ := ImportSpecifier.of_namedBinding? found
    obtain ⟨u, memU, found'⟩ | ⟨u, memU, found'⟩ := star
    · cases (ImportSpecifier.of_namedBinding? found').1
    · obtain ⟨same', _, _, rfl⟩ := ImportSpecifier.of_starBinding? found'
      have vars := (congrArg Binding.var same).symm.trans (congrArg Binding.var same' :)
      cases List.inj_on_of_nodup_map nodup (imported memS) (imported memU) vars
  · cases (ImportSpecifier.of_starBinding? found).1

namespace Module

variable {m : Module}

/-- A plain module has a plan just when all its mentions of the mock function are
accepted. -/
theorem planned_iff_accepted (plain : m.isPlain = true) (nodup : m.importLocals.Nodup)
    (source : Option String) :
    (∃ plan, Plan.ofModule m source = .ok plan) ↔
      ∀ way t, m.Holds way t →
        (t.Refers (.discover m.body) → way.AtRoot ∧ way.Called) ∧
          ¬ t.Mentions (.discover m.body) := by
  have distinct := distinct_of_nodup nodup
  have judged : (∀ t ∈ m.body, t.Allowed (.discover m.body) []) ↔
      ∀ r ∈ m.references (.discover m.body), r.Accepted :=
    Tree.Judged.listAt (fun t mem =>
        Tree.judged_of_isPlain distinct t false (Tree.arePlain_iff.mp plain t mem))
      ⟨fun _ => List.forall_mem_nil _, fun _ => rfl⟩ id id
  calc (∃ plan, Plan.ofModule m source = .ok plan)
    _ ↔ ∀ r ∈ m.references (.discover m.body), r.Accepted := by
      simp only [Plan.ofModule_eq_ok_iff, exists_and_left, exists_eq, and_true]
    _ ↔ ∀ t ∈ m.body, t.Allowed (.discover m.body) [] := judged.symm
    _ ↔ _ := by
      constructor
      · rintro allowed way t ⟨item, mem, holds⟩
        exact allowed item mem way t holds
      · intro accepted item mem way t holds
        exact accepted way t ⟨item, mem, holds⟩

theorem planned_iff_accepted_plain :
    Sample.plain.isPlain = true ∧ Sample.plain.importLocals.Nodup ∧
      ∀ way t, Sample.plain.Holds way t →
        (t.Refers [⟨⟨mockName, 2⟩, .named⟩] → way.AtRoot ∧ way.Called) ∧
          ¬ t.Mentions [⟨⟨mockName, 2⟩, .named⟩] :=
  ⟨rfl, by decide,
    (planned_iff_accepted rfl (by decide) none).mp ⟨.drawn Sample.plain, Sample.plan_plain⟩⟩

end Module
end MockImport
