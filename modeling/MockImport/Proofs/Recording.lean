import MockImport.Proofs.Acceptance

/-!
What is recorded of a module. Every recorded reference stands for a node of the module, and the
way to that node tells what is recorded: whether the reference is called, what takes the result
up, and which of the enclosing nodes an error has to cite.
-/

namespace MockImport

namespace Tree

/-- An error can cite the node: an expression, a statement, a module declaration, a declarator
or a property of an object. -/
def isCitable : Tree → Bool
  | .ident role _ | .paren role _ _ | .member role _ _ _ | .variables role _ _ _ _ _
  | .scope role _ _ _ _ | .node role _ _ _ => role ≠ .plain
  | .call .. | .declarator .. | .shorthand _ | .pair .. | .getter .. | .importDecl ..
  | .exportNamed .. | .exportDecl .. => true
  | _ => false

/-- The arguments are a single `import("specifier")`. -/
def NameModule (args : List Tree) : Prop :=
  ∃ argument, args = [.arg none argument] ∧ argument.ImportsModule

/-- A declarator or a member access that takes up a mock call in an accepted way. -/
def TakesUp : Tree → Prop
  | .declarator _ target _ _ => target.PlainTarget
  | .member _ _ _ property => ∃ span text, property = .name span text
  | _ => False

end Tree

namespace Way

/-- The span of the nearest enclosing node that an error can cite. -/
def enclosing? : Way → Option Span
  | [] => none
  | ⟨t, _⟩ :: rest => if t.isCitable then some t.span else enclosing? rest

/-- Span and arguments of the call whose callee stands here, up to parentheses, and the way to
that call. -/
def caller? : Way → Option (Span × List Tree × Way)
  | ⟨_, .enclosed⟩ :: rest => caller? rest
  | ⟨.call span _ _ args _, .callee⟩ :: rest => some (span, args, rest)
  | _ => none

/-- The declarator or member access that takes up what stands here, up to parentheses. -/
def consumer? : Way → Option Tree
  | ⟨_, .enclosed⟩ :: rest => consumer? rest
  | ⟨.declarator span target init definite, .init⟩ :: _ =>
      some (.declarator span target init definite)
  | ⟨.member .expr span object property, .object⟩ :: _ =>
      some (.member .expr span object property)
  | _ => none

/-- The way from beyond the outermost of the parentheses around what stands here, if these are
expressions. -/
def beyond? : Way → Option Way
  | ⟨.paren role _ _, .enclosed⟩ :: rest =>
      (beyond? rest).or (if role = .expr then some rest else none)
  | _ => none

/-- The way to what stands here with the parentheses around it. -/
def outside (way : Way) : Way := way.beyond?.getD way

end Way

namespace Tree

/-- What a call of the mock function is recorded as, by the way to the call. -/
inductive CallRecorded (span : Span) (args : List Tree) (above : Way) : Usage → Prop where
  | unnamed (unnamed : ¬ NameModule args) : CallRecorded span args above (.error span)
  | misfit {consumer : Tree} (names : NameModule args)
      (consumed : above.consumer? = some consumer) (misfit : ¬ consumer.TakesUp) :
      CallRecorded span args above (.error consumer.span)
  | unconsumed (names : NameModule args) (unconsumed : above.consumer? = none) :
      CallRecorded span args above (.error (above.outside.enclosing?.getD span))
  | accepted {consumer : Tree} (names : NameModule args)
      (consumed : above.consumer? = some consumer) (takesUp : consumer.TakesUp)
      (taken : String × Pattern) : CallRecorded span args above (.ok taken)

/-- What a mention of the mock function is recorded as, by the way to the node. -/
inductive Recorded (bs : Bindings) (way : Way) : Tree → Reference → Prop where
  | shorthand {id : Ident} {b : Nat} (atRoot : Bool) (bound : bs.named? id.var = some b) :
      Recorded bs way (.shorthand id) ⟨b, id.span, atRoot, .error id.span⟩
  | exported {specifiers : List ExportSpecifier} {s : Span} {subject : Ident}
      {exported : Option ExportName} {specifierTypeOnly : Bool} {b : Nat} (span : Span)
      (typeOnly : Bool) (attributes : Tree) (atRoot : Bool)
      (mem : .named s (.ident subject) exported specifierTypeOnly ∈ specifiers)
      (bound : bs.named? subject.var = some b) :
      Recorded bs way (.exportNamed span specifiers none typeOnly attributes)
        ⟨b, subject.span, atRoot, .error s⟩
  | uncalled {t : Tree} {b : Nat} (atRoot : Bool) (refers : bs.reference? t = some b)
      (uncalled : way.caller? = none) :
      Recorded bs way t ⟨b, t.span, atRoot, .error (way.enclosing?.getD t.span)⟩
  | called {t : Tree} {b : Nat} {span : Span} {args : List Tree} {above : Way} {usage : Usage}
      (atRoot : Bool) (refers : bs.reference? t = some b)
      (called : way.caller? = some (span, args, above))
      (call : CallRecorded span args above usage) : Recorded bs way t ⟨b, span, atRoot, usage⟩

/-- The reference is recorded for a node of the tree. -/
def Records (bs : Bindings) (above : Way) (t : Tree) (r : Reference) : Prop :=
  ∃ way u, t.Holds above way u ∧ (r.atRoot = true ↔ way.AtRoot) ∧ u.Recorded bs way r

end Tree

namespace Way

variable (above : Way)

theorem enclosing?_cons (t : Tree) (place : Place) :
    enclosing? (⟨t, place⟩ :: above) = if t.isCitable then some t.span else above.enclosing? := rfl

theorem caller?_of_loose (t : Tree) {place : Place}
    (loose : place ≠ .enclosed ∧ place ≠ .callee) : caller? (⟨t, place⟩ :: above) = none := by
  obtain ⟨enclosed, callee⟩ := loose
  unfold caller?
  split
  · next same =>
      obtain ⟨⟨-, rfl⟩, -⟩ := same
      exact absurd rfl enclosed
  · next same =>
      obtain ⟨⟨-, rfl⟩, -⟩ := same
      exact absurd rfl callee
  · rfl

theorem consumer?_of_loose (t : Tree) {place : Place}
    (loose : place ≠ .enclosed ∧ place ≠ .init ∧ place ≠ .object) :
    consumer? (⟨t, place⟩ :: above) = none := by
  obtain ⟨enclosed, init, object⟩ := loose
  unfold consumer?
  split
  · next same =>
      obtain ⟨⟨-, rfl⟩, -⟩ := same
      exact absurd rfl enclosed
  · next same =>
      obtain ⟨⟨-, rfl⟩, -⟩ := same
      exact absurd rfl init
  · next same =>
      obtain ⟨⟨-, rfl⟩, -⟩ := same
      exact absurd rfl object
  · rfl

theorem beyond?_of_loose (t : Tree) {place : Place} (loose : place ≠ .enclosed) :
    beyond? (⟨t, place⟩ :: above) = none := by
  unfold beyond?
  split
  · next same =>
      obtain ⟨⟨-, rfl⟩, -⟩ := same
      exact absurd rfl loose
  · rfl

end Way

/-- The context knows what encloses a node. -/
structure Context.Fits (c : Context) (above : Way) : Prop where
  atRoot : c.Matches above
  frame : c.frame = above.enclosing?

namespace Context.Fits

variable {c d : Context} {above : Way}

theorem root : Context.root.Fits [] :=
  ⟨iff_of_true rfl (List.forall_mem_nil _), rfl⟩

/-- The context of a part is that of the node, with its span if it can be cited. -/
theorem part (fits : c.Fits above) {t : Tree} {place : Place}
    (atRoot : d.atRoot = (decide (place ≠ .scoped) && c.atRoot))
    (frame : d.frame = if t.isCitable then some t.span else c.frame) :
    d.Fits (⟨t, place⟩ :: above) := by
  constructor
  · rw [Matches, atRoot, Bool.and_eq_true, decide_eq_true_eq, Way.atRoot_cons]
    exact and_congr_right fun _ => fits.atRoot
  · rw [frame, fits.frame, Way.enclosing?_cons]

end Context.Fits

namespace MockCall

open MockImport.Tree (NameModule CallRecorded)

theorem specifier?_isSome_iff (m : MockCall) : m.specifier?.isSome ↔ NameModule m.args := by
  constructor
  · intro isSome
    obtain ⟨source, found⟩ := Option.isSome_iff_exists.mp isSome
    obtain ⟨argument, only, names⟩ := specifier?_eq_some_iff.mp found
    exact ⟨argument, only, argument.dynamicImport?_isSome_iff.mp (Option.isSome_of_eq_some names)⟩
  · rintro ⟨argument, only, imports⟩
    obtain ⟨source, names⟩ := Option.isSome_iff_exists.mp
      (argument.dynamicImport?_isSome_iff.mpr imports)
    exact Option.isSome_of_eq_some (specifier?_eq_some_iff.mpr ⟨argument, only, names⟩)

variable (m : MockCall) {above : Way}

theorem recorded_unnamed (unnamed : m.specifier? = none) (span : Span) (pattern : Option Pattern) :
    CallRecorded m.span m.args above (m.usage span pattern) := by
  unfold usage
  rw [unnamed]
  refine .unnamed ?_
  rw [← m.specifier?_isSome_iff, unnamed]
  exact Bool.false_ne_true

theorem recorded_usage {consumer : Tree} {pattern : Option Pattern}
    (consumed : above.consumer? = some consumer) (fit : pattern.isSome ↔ consumer.TakesUp) :
    CallRecorded m.span m.args above (m.usage consumer.span pattern) := by
  cases named : m.specifier? with
  | none => exact m.recorded_unnamed named _ _
  | some source =>
      have names := m.specifier?_isSome_iff.mp (Option.isSome_of_eq_some named)
      unfold usage
      rw [named]
      cases pattern with
      | none => exact .misfit names consumed (mt fit.mpr Bool.false_ne_true)
      | some p => exact .accepted names consumed (fit.mp rfl) _

theorem recorded_unconsumed {span : Span} (unconsumed : above.consumer? = none)
    (cited : span = above.outside.enclosing?.getD m.span) :
    CallRecorded m.span m.args above (m.usage span none) := by
  cases named : m.specifier? with
  | none => exact m.recorded_unnamed named _ _
  | some source =>
      unfold usage
      rw [named, cited]
      exact .unconsumed (m.specifier?_isSome_iff.mp (Option.isSome_of_eq_some named)) unconsumed

end MockCall

namespace Tree

variable {bs : Bindings} {above : Way} {c : Context} {t u : Tree} {r : Reference}

theorem Records.of_part {p : Place × Tree} (mem : p ∈ t.parts)
    (records : p.2.Records bs (⟨t, p.1⟩ :: above) r) : t.Records bs above r := by
  obtain ⟨way, u, holds, recorded⟩ := records
  exact ⟨way, u, holds_iff.mpr (.inr ⟨p, mem, holds⟩), recorded⟩

/-- What a callee mentions stands where the callee does, up to parentheses. -/
theorem holds_of_callee? {b : Nat} (isCallee : bs.callee? t = some b) (above : Way) :
    ∃ way u, t.Holds above way u ∧ bs.reference? u = some b ∧ way.caller? = above.caller? ∧
      (way.AtRoot ↔ above.AtRoot) := by
  fun_induction Bindings.callee? bs t generalizing above with
  | case1 role span inner ih =>
      obtain ⟨way, u, holds, refers, caller, atRoot⟩ :=
        ih isCallee (⟨.paren role span inner, .enclosed⟩ :: above)
      refine ⟨way, u, holds_iff.mpr (.inr ⟨_, List.mem_singleton_self _, holds⟩), refers, caller,
        ?_⟩
      exact atRoot.trans (Way.atRoot_of_open _ (by decide))
  | case2 t _ => exact ⟨above, t, .here, isCallee, rfl, Iff.rfl⟩

/-- A call of the mock function stands where the tree does, up to parentheses. -/
theorem holds_of_call? {m : MockCall} (found : bs.call? t = some m) (above : Way) :
    ∃ way u rest, t.Holds above way u ∧ bs.reference? u = some m.binding ∧
      way.caller? = some (m.span, m.args, rest) ∧ (way.AtRoot ↔ above.AtRoot) ∧
      rest.consumer? = above.consumer? ∧
      (above.beyond?.isSome ∨ (∀ role span inner, t ≠ .paren role span inner) →
        rest.outside = above.outside) := by
  fun_induction Bindings.call? bs t generalizing above with
  | case1 role span inner ih =>
      obtain ⟨way, u, rest, holds, refers, caller, atRoot, consumer, outside⟩ :=
        ih found (⟨.paren role span inner, .enclosed⟩ :: above)
      refine ⟨way, u, rest, holds_iff.mpr (.inr ⟨_, List.mem_singleton_self _, holds⟩), refers,
        caller, atRoot.trans (Way.atRoot_of_open _ (by decide)), consumer, fun closed => ?_⟩
      obtain ⟨w, beyond⟩ := Option.isSome_iff_exists.mp
        (closed.resolve_right fun bare => bare role span inner rfl)
      have further : Way.beyond? (⟨.paren role span inner, .enclosed⟩ :: above) = some w := by
        rw [Way.beyond?, beyond, Option.some_or]
      rw [outside (.inl (Option.isSome_of_eq_some further)), Way.outside, Way.outside, further,
        beyond]
      rfl
  | case2 span ctxt callee args typeArgs =>
      obtain ⟨b, isCallee, rfl⟩ := Option.map_eq_some_iff.mp found
      obtain ⟨way, u, holds, refers, caller, atRoot⟩ :=
        holds_of_callee? isCallee (⟨.call span ctxt callee args typeArgs, .callee⟩ :: above)
      exact ⟨way, u, above, holds_iff.mpr (.inr ⟨_, List.mem_cons_self, holds⟩), refers, caller,
        atRoot.trans (Way.atRoot_of_open _ (by decide)), rfl, fun _ => rfl⟩
  | case3 => cases found

/-- What a traversal records is recorded for the nodes that it comes to. -/
structure Located (bs : Bindings) (t : Tree) : Prop where
  /-- Of a tree that is no callee, and no call that is taken up or further parenthesised. -/
  whole : ∀ {above : Way} {c : Context}, c.Fits above →
    ((bs.callee? t).isSome → above.caller? = none) →
      ((bs.call? t).isSome → above.consumer? = none ∧ above.beyond? = none) →
        ∀ r ∈ references bs c t, t.Records bs above r
  arguments : ∀ {above : Way} {c : Context} {m : MockCall}, bs.call? t = some m →
    c.Matches above → c.frame = some m.span → ∀ r ∈ argReferences bs c t, t.Records bs above r

namespace Located

variable {d : Context}

theorem of_whole (noCall : bs.call? t = none)
    (whole : ∀ {above : Way} {c : Context}, c.Fits above →
      ((bs.callee? t).isSome → above.caller? = none) →
        ∀ r ∈ references bs c t, t.Records bs above r) : Located bs t where
  whole fits uncalled _ := whole fits uncalled
  arguments found := (Option.some_ne_none _ (found.symm.trans noCall)).elim

/-- A part that its parent neither calls nor takes up. -/
theorem part (located : Located bs u) {place : Place} (mem : (place, u) ∈ t.parts)
    (loose : place = .other ∨ place = .scoped) (fits : d.Fits (⟨t, place⟩ :: above)) :
    ∀ r ∈ references bs d u, t.Records bs above r := by
  intro r isReference
  refine .of_part mem (located.whole fits (fun _ => ?_) (fun _ => ⟨?_, ?_⟩) r isReference)
  · obtain rfl | rfl := loose <;> exact Way.caller?_of_loose _ _ (by decide)
  · obtain rfl | rfl := loose <;> exact Way.consumer?_of_loose _ _ (by decide)
  · obtain rfl | rfl := loose <;> exact Way.beyond?_of_loose _ _ (by decide)

theorem list {ts : List Tree} (located : ∀ u ∈ ts, Located bs u) {place : Place}
    (mem : ∀ u ∈ ts, (place, u) ∈ t.parts) (loose : place = .other ∨ place = .scoped)
    (fits : d.Fits (⟨t, place⟩ :: above)) :
    ∀ r ∈ referencesList bs d ts, t.Records bs above r := by
  induction ts with
  | nil => exact List.forall_mem_nil _
  | cons u rest ih =>
      obtain ⟨here, later⟩ := List.forall_mem_cons.mp located
      obtain ⟨isPart, areParts⟩ := List.forall_mem_cons.mp mem
      rw [referencesList, List.forall_mem_append]
      exact ⟨here.part isPart loose fits, ih later areParts⟩

theorem records_uncalled {b : Nat} (refers : bs.reference? t = some b) (fits : c.Fits above)
    (uncalled : above.caller? = none) : t.Records bs above (c.uncalled b t.span) := by
  refine ⟨above, t, .here, fits.atRoot, ?_⟩
  rw [Context.uncalled, Context.record, Context.cited, fits.frame]
  exact .uncalled c.atRoot refers uncalled

theorem ident (id : Ident) : Located bs (.ident .expr id) := by
  refine of_whole rfl fun {above c} fits uncalled => ?_
  cases named : bs.named? id.var with
  | none =>
      simp only [references, named]
      exact List.forall_mem_nil _
  | some b =>
      simp only [references, named, List.forall_mem_singleton]
      have refers : bs.reference? (.ident .expr id) = some b := named
      exact records_uncalled refers fits (uncalled (Option.isSome_of_eq_some named))

theorem shorthand (id : Ident) : Located bs (.shorthand id) := by
  refine of_whole rfl fun {above c} fits _ => ?_
  cases named : bs.named? id.var with
  | none =>
      simp only [references, named]
      exact List.forall_mem_nil _
  | some b =>
      simp only [references, named, List.forall_mem_singleton]
      exact ⟨above, _, .here, fits.atRoot, .shorthand c.atRoot named⟩

theorem exportNamed (span : Span) (specifiers : List ExportSpecifier)
    (source : Option StringLiteral) (typeOnly : Bool) (attributes : Tree) :
    Located bs (.exportNamed span specifiers source typeOnly attributes) := by
  refine of_whole rfl fun {above c} fits _ r mem => ?_
  cases source with
  | some _ => cases mem
  | none =>
      obtain ⟨s, isSpecifier, mem⟩ := List.mem_flatMap.mp mem
      obtain ⟨_, subject, _, _, b, rfl, found, rfl⟩ := ExportSpecifier.mem_references mem
      exact ⟨above, _, .here, fits.atRoot,
        .exported span typeOnly attributes c.atRoot isSpecifier found⟩

/-- A call whose result goes nowhere that counts, with the parentheses around it. -/
theorem records_unconsumed {m : MockCall} (found : bs.call? t = some m)
    (matched : c.Matches above) (unconsumed : above.consumer? = none)
    (closed : above.beyond?.isSome ∨ ∀ role span inner, t ≠ .paren role span inner)
    (frame : c.frame = above.outside.enclosing?) : t.Records bs above (c.unconsumed m) := by
  obtain ⟨way, u, rest, holds, refers, caller, atRoot, consumer, outside⟩ :=
    holds_of_call? found above
  refine ⟨way, u, holds, matched.trans atRoot.symm, .called c.atRoot refers caller ?_⟩
  refine m.recorded_unconsumed (consumer.trans unconsumed) ?_
  rw [Context.cited, frame, outside closed]

/-- A call that a declarator or a member access takes up. -/
theorem records_consumed {m : MockCall} (found : bs.call? t = some m) (matched : c.Matches above)
    (consumer : Tree) {pattern : Option Pattern} (consumed : above.consumer? = some consumer)
    (fit : pattern.isSome ↔ consumer.TakesUp) :
    t.Records bs above (c.record m.binding m.span (m.usage consumer.span pattern)) := by
  obtain ⟨way, u, rest, holds, refers, caller, atRoot, sameConsumer, -⟩ :=
    holds_of_call? found above
  exact ⟨way, u, holds, matched.trans atRoot.symm, .called c.atRoot refers caller
    (m.recorded_usage (sameConsumer.trans consumed) fit)⟩

theorem paren (located : Located bs t) (role : Role) (span : Span) :
    Located bs (.paren role span t) := by
  have mem : (Place.enclosed, t) ∈ (Tree.paren role span t).parts := List.mem_singleton_self _
  have inside {above : Way} {c : Context} (fits : c.Fits above) :
      (c.enter role span).Fits (⟨.paren role span t, .enclosed⟩ :: above) :=
    fits.part (by cases role <;> rfl) (by cases role <;> rfl)
  have matches_ {above : Way} {c : Context} (matched : c.Matches above) :
      c.Matches (⟨.paren role span t, .enclosed⟩ :: above) := matched.step _ (by decide)
  refine ⟨fun {above c} fits uncalled untaken => ?_, fun {above c m} found matched frame r mem' =>
    .of_part mem (located.arguments found (matches_ matched) frame r mem')⟩
  have whole (beyond : (bs.call? t).isSome →
        Way.beyond? (⟨.paren role span t, .enclosed⟩ :: above) = none) :
      ∀ r ∈ references bs (c.enter role span) t, (Tree.paren role span t).Records bs above r :=
    fun r isReference => .of_part mem (located.whole (inside fits) uncalled
      (fun isCall => ⟨(untaken isCall).1, beyond isCall⟩) r isReference)
  cases role with
  | expr =>
      cases call : bs.call? t with
      | none =>
          simp only [references, call]
          exact whole fun isCall => by
            rw [call] at isCall
            cases isCall
      | some m =>
          obtain ⟨consumer, beyond⟩ := untaken (Option.isSome_of_eq_some call)
          have closed : Way.beyond? (⟨.paren .expr span t, .enclosed⟩ :: above) = some above := by
            rw [Way.beyond?, beyond]
            rfl
          simp only [references, call, List.forall_mem_cons]
          constructor
          · refine .of_part mem (records_unconsumed call (matches_ fits.atRoot) consumer
              (.inl (Option.isSome_of_eq_some closed)) ?_)
            rw [Way.outside, closed]
            exact fits.frame
          · exact fun r isReference => .of_part mem
              (located.arguments call ((matches_ fits.atRoot).within _) rfl r isReference)
  | _ =>
      refine whole fun isCall => ?_
      rw [Way.beyond?, (untaken isCall).2]
      rfl

theorem member (locatedObject : Located bs t) (locatedProperty : Located bs u) (role : Role)
    (span : Span) : Located bs (.member role span t u) := by
  have isObject : (Place.object, t) ∈ (Tree.member role span t u).parts := List.mem_cons_self
  have isProperty : (Place.other, u) ∈ (Tree.member role span t u).parts :=
    List.mem_cons_of_mem _ (List.mem_singleton_self _)
  refine of_whole rfl fun {above c} fits uncalled => ?_
  have inside {place : Place} (open_ : place ≠ .scoped) :
      (c.enter role span).Fits (⟨.member role span t u, place⟩ :: above) :=
    fits.part (by cases role <;> cases place <;> first | rfl | exact absurd rfl open_)
      (by cases role <;> rfl)
  have ofProperty := locatedProperty.part isProperty (.inl rfl) (inside (by decide))
  have ofObject (untaken : (bs.call? t).isSome →
        Way.consumer? (⟨.member role span t u, .object⟩ :: above) = none) :
      ∀ r ∈ references bs (c.enter role span) t, (Tree.member role span t u).Records bs above r :=
    fun r isReference => .of_part isObject (locatedObject.whole (inside (by decide))
      (fun _ => Way.caller?_of_loose _ _ (by decide))
      (fun isCall => ⟨untaken isCall, Way.beyond?_of_loose _ _ (by decide)⟩) r isReference)
  cases role with
  | expr =>
      cases star : bs.member? t u with
      | some b =>
          simp only [references, star, List.forall_mem_singleton]
          have refers : bs.reference? (.member .expr span t u) = some b := star
          exact records_uncalled refers fits (uncalled (Option.isSome_of_eq_some star))
      | none =>
          cases call : bs.call? t with
          | none =>
              simp only [references, star, call, List.forall_mem_append]
              exact ⟨ofObject fun isCall => (by rw [call] at isCall; cases isCall), ofProperty⟩
          | some m =>
              have matched : c.Matches (⟨.member .expr span t u, .object⟩ :: above) :=
                fits.atRoot.step _ (by decide)
              simp only [references, star, call, List.forall_mem_append, List.forall_mem_cons]
              refine ⟨⟨.of_part isObject ?_, fun r isReference => .of_part isObject
                (locatedObject.arguments call (matched.within _) rfl r isReference)⟩, ofProperty⟩
              exact records_consumed call matched (.member .expr span t u) rfl
                u.propertyPattern?_isSome_iff
  | _ =>
      simp only [references, List.forall_mem_append]
      exact ⟨ofObject fun _ => rfl, ofProperty⟩

theorem call {callee typeArgs : Tree} {args : List Tree} (locatedCallee : Located bs callee)
    (locatedArgs : ∀ t ∈ args, Located bs t) (locatedType : Located bs typeArgs) (span : Span)
    (ctxt : Nat) : Located bs (.call span ctxt callee args typeArgs) := by
  have isCallee : (Place.callee, callee) ∈ (Tree.call span ctxt callee args typeArgs).parts :=
    List.mem_cons_self
  have areArgs : ∀ t ∈ args, (Place.other, t) ∈ (Tree.call span ctxt callee args typeArgs).parts :=
    fun t mem => List.mem_cons_of_mem _ (List.mem_append_left _ (List.mem_map_of_mem mem))
  have isType : (Place.other, typeArgs) ∈ (Tree.call span ctxt callee args typeArgs).parts :=
    List.mem_cons_of_mem _ (List.mem_append_right _ (List.mem_singleton_self _))
  have inside {above : Way} {c : Context} (fits : c.Fits above) (place : Place)
      (open_ : place ≠ .scoped) :
      (c.within span).Fits (⟨.call span ctxt callee args typeArgs, place⟩ :: above) :=
    fits.part (by cases place <;> first | rfl | exact absurd rfl open_) rfl
  refine ⟨fun {above c} fits _ untaken => ?_, fun {above c m} found matched frame => ?_⟩
  · cases called : bs.callee? callee with
    | none =>
        simp only [references, called, List.forall_mem_append]
        refine ⟨⟨fun r isReference => .of_part isCallee (locatedCallee.whole
          (inside fits .callee (by decide)) (fun isCallee => ?_) (fun _ => ⟨rfl, rfl⟩) r
            isReference), list locatedArgs areArgs (.inl rfl) (inside fits .other (by decide))⟩,
          locatedType.part isType (.inl rfl) (inside fits .other (by decide))⟩
        rw [called] at isCallee
        cases isCallee
    | some b =>
        have found : bs.call? (.call span ctxt callee args typeArgs) = some ⟨b, span, args⟩ := by
          rw [Bindings.call?, called]
          rfl
        obtain ⟨consumer, beyond⟩ := untaken (Option.isSome_of_eq_some found)
        simp only [references, called, List.forall_mem_cons]
        have bare (role : Role) (at_ : Span) (inner : Tree) :
            Tree.call span ctxt callee args typeArgs ≠ .paren role at_ inner := by
          intro same
          cases same
        refine ⟨records_unconsumed found fits.atRoot consumer (.inr bare) ?_,
          list locatedArgs areArgs (.inl rfl) (inside fits .other (by decide))⟩
        rw [Way.outside, beyond]
        exact fits.frame
  · obtain ⟨b, -, rfl⟩ := Option.map_eq_some_iff.mp found
    refine list locatedArgs areArgs (.inl rfl) ⟨matched.other _, frame.trans ?_⟩
    rfl

theorem declarator (locatedTarget : Located bs t) (locatedInit : Located bs u) (span : Span)
    (definite : Bool) : Located bs (.declarator span t u definite) := by
  have isTarget : (Place.other, t) ∈ (Tree.declarator span t u definite).parts :=
    List.mem_cons_self
  have isInit : (Place.init, u) ∈ (Tree.declarator span t u definite).parts :=
    List.mem_cons_of_mem _ (List.mem_singleton_self _)
  refine of_whole rfl fun {above c} fits _ => ?_
  have inside (place : Place) (open_ : place ≠ .scoped) :
      (c.within span).Fits (⟨.declarator span t u definite, place⟩ :: above) :=
    fits.part (by cases place <;> first | rfl | exact absurd rfl open_) rfl
  have ofTarget := locatedTarget.part isTarget (.inl rfl) (inside .other (by decide))
  cases call : bs.call? u with
  | none =>
      simp only [references, call, List.forall_mem_append]
      refine ⟨ofTarget, fun r isReference => .of_part isInit (locatedInit.whole
        (inside .init (by decide)) (fun _ => Way.caller?_of_loose _ _ (by decide))
        (fun isCall => ?_) r isReference)⟩
      rw [call] at isCall
      cases isCall
  | some m =>
      have matched : c.Matches (⟨.declarator span t u definite, .init⟩ :: above) :=
        fits.atRoot.step _ (by decide)
      simp only [references, call, List.forall_mem_append, List.forall_mem_cons]
      refine ⟨.of_part isInit ?_, ofTarget, fun r isReference => .of_part isInit
        (locatedInit.arguments call (matched.within _) rfl r isReference)⟩
      exact records_consumed call matched (.declarator span t u definite) rfl
        t.targetPattern?_isSome_iff

end Located

open Located in
theorem located (t : Tree) : Located bs t := by
  have only {t u : Tree} (same : t.parts = [(.other, u)]) : (Place.other, u) ∈ t.parts :=
    same ▸ List.mem_singleton_self _
  induction t with
  | absent | leaf _ | context _ | name _ _ | string _ =>
      exact of_whole rfl fun _ _ => List.forall_mem_nil _
  | ident role id =>
      cases role with
      | expr => exact .ident id
      | _ => exact of_whole rfl fun _ _ => List.forall_mem_nil _
  | shorthand id => exact .shorthand id
  | exportNamed span specifiers source typeOnly attributes _ =>
      exact .exportNamed span specifiers source typeOnly attributes
  | items trees ih =>
      exact of_whole rfl fun fits _ =>
        list ih (fun _ => List.mem_map_of_mem) (.inl rfl) (fits.part rfl rfl)
  | binding _ _ ih | arg _ _ ih | exportDecl _ _ ih | importDecl _ _ _ _ _ _ ih =>
      exact of_whole rfl fun fits _ => ih.part (only rfl) (.inl rfl) (fits.part rfl rfl)
  | paren role span _ ih => exact ih.paren role span
  | member role span _ _ ihObject ihProperty => exact ihObject.member ihProperty role span
  | call span ctxt _ _ _ ihCallee ihArgs ihType => exact ihCallee.call ihArgs ihType span ctxt
  | declarator span _ _ definite ihTarget ihInit => exact ihTarget.declarator ihInit span definite
  | declaration role _ _ _ _ _ ih =>
      exact of_whole rfl fun fits _ => list ih (fun _ => List.mem_map_of_mem) (.inl rfl)
        (fits.part (by cases role <;> rfl) (by cases role <;> rfl))
  | node role _ _ _ ih =>
      exact of_whole rfl fun fits _ => list ih (fun _ => List.mem_map_of_mem) (.inl rfl)
        (fits.part (by cases role <;> rfl) (by cases role <;> rfl))
  | moduleBlock _ _ ih =>
      exact of_whole rfl fun fits _ =>
        list ih (fun _ => List.mem_map_of_mem) (.inr rfl) (fits.part rfl rfl)
  | scope role kind span outer inner ihOuter ihInner =>
      refine of_whole rfl fun {above c} fits _ => ?_
      simp only [references, List.forall_mem_append]
      constructor
      · exact list ihOuter (fun u mem => List.mem_append_left _ (List.mem_map_of_mem mem))
          (.inl rfl) (fits.part (by cases role <;> rfl) (by cases role <;> rfl))
      · exact list ihInner (fun u mem => List.mem_append_right _ (List.mem_map_of_mem mem))
          (.inr rfl) (fits.part (by cases role <;> rfl) (by cases role <;> rfl))
  | objectPattern _ properties _ typing ihProperties ihType =>
      refine of_whole rfl fun {above c} fits _ => ?_
      simp only [references, List.forall_mem_append]
      exact ⟨list ihProperties (fun u mem => List.mem_append_left _ (List.mem_map_of_mem mem))
        (.inl rfl) (fits.part rfl rfl), ihType.part
          (List.mem_append_right _ (List.mem_singleton_self _)) (.inl rfl) (fits.part rfl rfl)⟩
  | patternShorthand _ _ _ _ ihA ihB | patternPair _ _ ihA ihB | pair _ _ ihA ihB =>
      refine of_whole rfl fun {above c} fits _ => ?_
      simp only [references, List.forall_mem_append]
      exact ⟨ihA.part List.mem_cons_self (.inl rfl) (fits.part rfl rfl),
        ihB.part (List.mem_cons_of_mem _ (List.mem_singleton_self _)) (.inl rfl)
          (fits.part rfl rfl)⟩
  | getter span key typing body ihKey _ ihBody =>
      refine of_whole rfl fun {above c} fits _ => ?_
      simp only [references, List.forall_mem_append]
      exact ⟨ihKey.part List.mem_cons_self (.inl rfl) (fits.part rfl rfl),
        ihBody.part (List.mem_cons_of_mem _ (List.mem_cons_of_mem _ (List.mem_singleton_self _)))
          (.inr rfl) (fits.part rfl rfl)⟩

end Tree

namespace Module

theorem references_recorded (m : Module) (bs : Bindings) : ∀ r ∈ m.references bs,
    ∃ way t, m.Holds way t ∧ (r.atRoot = true ↔ way.AtRoot) ∧ t.Recorded bs way r := by
  have items {ts : List Tree} : ∀ r ∈ Tree.referencesList bs .root ts,
      ∃ t ∈ ts, t.Records bs [] r := by
    induction ts with
    | nil => exact List.forall_mem_nil _
    | cons t rest ih =>
        rw [Tree.referencesList, List.forall_mem_append]
        refine ⟨fun r mem => ⟨t, List.mem_cons_self, ?_⟩, fun r mem => ?_⟩
        · exact t.located.whole .root (fun _ => rfl) (fun _ => ⟨rfl, rfl⟩) r mem
        · obtain ⟨u, isItem, records⟩ := ih r mem
          exact ⟨u, List.mem_cons_of_mem _ isItem, records⟩
  intro r mem
  obtain ⟨item, isItem, way, t, holds, recorded⟩ := items r mem
  exact ⟨way, t, ⟨item, isItem, holds⟩, recorded⟩

end Module
end MockImport
