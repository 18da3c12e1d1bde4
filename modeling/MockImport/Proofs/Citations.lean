import MockImport.Proofs.Recording
import MockImport.Proofs.Spans

/-!
The node that an error cites. A malformed usage is that of the first reference in processing
order that is badly used, cited as its place demands; in a text, what is cited reaches over the
reference.
-/

namespace MockImport

namespace Way

theorem mem_of_enclosing? {way : Way} {s : Span} (found : way.enclosing? = some s) :
    ∃ step ∈ way, step.parent.hasSpan = true ∧ step.parent.span = s := by
  induction way with
  | nil => cases found
  | cons step rest ih =>
      obtain ⟨t, place⟩ := step
      rw [enclosing?_cons] at found
      cases citable : t.isCitable with
      | true =>
          rw [citable, if_pos rfl] at found
          refine ⟨_, List.mem_cons_self, ?_, Option.some.inj found⟩
          cases t <;> first | rfl | cases citable
      | false =>
          rw [citable, if_neg Bool.false_ne_true] at found
          obtain ⟨step, mem, same⟩ := ih found
          exact ⟨step, List.mem_cons_of_mem _ mem, same⟩

theorem mem_of_consumer? {way : Way} {consumer : Tree} (found : way.consumer? = some consumer) :
    ∃ step ∈ way, step.parent.hasSpan = true ∧ step.parent = consumer := by
  fun_induction consumer? way with
  | case1 _ _ ih =>
      obtain ⟨step, mem, same⟩ := ih found
      exact ⟨step, List.mem_cons_of_mem _ mem, same⟩
  | case2 | case3 => exact ⟨_, List.mem_cons_self, rfl, Option.some.inj found⟩
  | case4 => cases found

theorem outside_subset (way : Way) : way.outside ⊆ way := by
  have beyond {way w : Way} (found : way.beyond? = some w) : w ⊆ way := by
    fun_induction beyond? way generalizing w with
    | case1 role span inner rest ih =>
        cases further : beyond? rest with
        | some v =>
            rw [further, Option.some_or] at found
            obtain rfl := Option.some.inj found
            exact List.Subset.trans (ih further) (List.subset_cons_self _ _)
        | none =>
            rw [further, Option.none_or] at found
            split at found
            · obtain rfl := Option.some.inj found
              exact List.subset_cons_self _ _
            · cases found
    | case2 => cases found
  rw [outside]
  cases found : way.beyond? with
  | none => exact List.Subset.refl _
  | some w => exact beyond found

end Way

namespace Module

variable {m : Module} {bs : Bindings} {way : Way} {t : Tree}

theorem holds_of_cons {step : Step} (holds : m.Holds (step :: way) t) :
    m.Holds way step.parent := by
  obtain ⟨item, isItem, holds⟩ := holds
  cases holds with
  | part holds _ => exact ⟨item, isItem, holds⟩

theorem holds_of_caller? (holds : m.Holds way t) {span : Span} {args : List Tree} {above : Way}
    (called : way.caller? = some (span, args, above)) :
    ∃ call, m.Holds above call ∧ call.extents = [span] := by
  fun_induction Way.caller? way generalizing t with
  | case1 _ _ ih => exact ih (holds_of_cons holds) called
  | case2 _ _ _ _ _ _ =>
      obtain ⟨rfl, rfl, rfl⟩ := called
      exact ⟨_, holds_of_cons holds, rfl⟩
  | case3 => cases called

theorem within_enclosing (nested : m.Nested) (holds : m.Holds way t) {s : Span}
    (own : t.extents = [s]) {around : Way} (sub : around ⊆ way) :
    s.Within (around.enclosing?.getD s) := by
  cases found : around.enclosing? with
  | none => exact .refl s
  | some cited =>
      obtain ⟨step, mem, spanned, rfl⟩ := Way.mem_of_enclosing? found
      exact m.within_of_step nested holds (sub mem) spanned s (own ▸ List.mem_singleton_self s)

/-- What is cited reaches over what is recorded. -/
theorem within_cited (nested : m.Nested) (holds : m.Holds way t) {r : Reference}
    (recorded : t.Recorded bs way r) {span : Span} (fault : r.usage = .error span) :
    r.span.Within span := by
  cases recorded with
  | shorthand _ _ =>
      obtain rfl := Except.error.inj fault
      exact .refl _
  | @exported specifiers s subject _ _ _ _ _ _ _ mem _ =>
      obtain rfl := Except.error.inj fault
      exact ((nested way _ holds).subjects (s, subject.span)
        (List.mem_filterMap.mpr ⟨_, mem, rfl⟩)).2.1
  | uncalled _ refers _ =>
      obtain rfl := Except.error.inj fault
      refine within_enclosing nested holds (Tree.extents_of_hasSpan ?_) (List.Subset.refl _)
      cases t <;> first | rfl | cases refers
  | called _ _ called call =>
      obtain ⟨caller, stands, own⟩ := holds_of_caller? holds called
      cases call with
      | unnamed _ =>
          obtain rfl := Except.error.inj fault
          exact .refl _
      | misfit _ consumed _ =>
          obtain rfl := Except.error.inj fault
          obtain ⟨step, mem, spanned, rfl⟩ := Way.mem_of_consumer? consumed
          exact m.within_of_step nested stands mem spanned _ (own ▸ List.mem_singleton_self _)
      | unconsumed _ _ =>
          obtain rfl := Except.error.inj fault
          exact within_enclosing nested stands own (Way.outside_subset _)
      | accepted _ _ _ _ => cases fault

end Module

namespace Plan

variable {m : Module} {source : Option String} {failure : Failure}

theorem failure?_of_error (failed : ofModule m source = .error failure) :
    failure? source (m.references (.discover m.body))
      (processingOrder (.discover m.body) (m.references (.discover m.body))) = some failure := by
  simp only [ofModule] at failed
  split at failed
  · cases failed
  · split at failed
    · next found =>
        obtain rfl := Except.error.inj failed
        exact found
    · cases failed

/-- The references in the order in which they are processed. -/
def inProcessingOrder (bs : Bindings) (refs : List Reference) : List Reference :=
  (processingOrder bs refs).filterMap (refs[·]?)

/-- Without references below the root, the first one at fault in processing order decides. -/
theorem failure?_eq_of_atRoot (source : Option String) (bs : Bindings) {refs : List Reference}
    (atRoot : refs.find? (!·.atRoot) = none) :
    failure? source refs (processingOrder bs refs) =
      ((inProcessingOrder bs refs).findSome? Reference.fault?).map (Failure.malformed source) := by
  rw [failure?, atRoot, inProcessingOrder, ← List.head?_filterMap, ← List.head?_filterMap,
    List.filterMap_filterMap]

theorem firstFault_of_failure? {refs : List Reference} {bs : Bindings} {span : Span}
    {snippet : String} (failed : failure? source refs (processingOrder bs refs) =
      some (.malformedUsage span snippet)) :
    (inProcessingOrder bs refs).findSome? Reference.fault? = some span ∧
      snippet = (snippet? source span).getD "<unknown source>" := by
  cases below : refs.find? (!·.atRoot) with
  | some r =>
      rw [failure?, below] at failed
      cases failed
  | none =>
      rw [failure?_eq_of_atRoot source bs below] at failed
      obtain ⟨cited, found, same⟩ := Option.map_eq_some_iff.mp failed
      obtain ⟨rfl, rfl⟩ := Failure.malformedUsage.inj same
      exact ⟨found, rfl⟩

end Plan

theorem Reference.usage_of_fault? {r : Reference} {span : Span} (fault : r.fault? = some span) :
    r.usage = .error span := by
  unfold fault? at fault
  split at fault
  · cases fault
  · next usage =>
      obtain rfl := Option.some.inj fault
      exact usage

theorem find?_of_findSome? {α β : Type} {f : α → Option β} {as : List α} {b : β}
    (found : as.findSome? f = some b) :
    ∃ a, as.find? (fun a => (f a).isSome) = some a ∧ f a = some b := by
  induction as with
  | nil => cases found
  | cons a rest ih =>
      cases here : f a with
      | none =>
          rw [List.findSome?_cons, here] at found
          obtain ⟨a', first, value⟩ := ih found
          refine ⟨a', ?_, value⟩
          rwa [List.find?_cons_of_neg (by rw [here]; exact Bool.false_ne_true)]
      | some b' =>
          rw [List.findSome?_cons, here] at found
          refine ⟨a, List.find?_cons_of_pos (Option.isSome_of_eq_some here), here.trans found⟩

namespace Module

/-- A malformed usage cites the node at fault of the first reference in processing order that
is badly used; in a text, it reaches over what is recorded of that reference. -/
theorem malformed_cites {m : Module} {source : Option String} {span : Span} {snippet : String}
    (failed : Plan.ofModule m source = .error (.malformedUsage span snippet)) :
    ∃ r, (Plan.inProcessingOrder (.discover m.body) (m.references (.discover m.body))).find?
        (·.fault?.isSome) = some r ∧ r.usage = .error span ∧
      snippet = (snippet? source span).getD "<unknown source>" ∧
      (∃ way t, m.Holds way t ∧ t.Recorded (.discover m.body) way r) ∧
      (m.Nested → r.span.Within span) := by
  obtain ⟨found, quoted⟩ := Plan.firstFault_of_failure? (Plan.failure?_of_error failed)
  obtain ⟨r, first, fault⟩ := find?_of_findSome? found
  obtain ⟨i, -, isReference⟩ := List.mem_filterMap.mp (List.mem_of_find?_eq_some first)
  obtain ⟨way, t, holds, -, recorded⟩ :=
    m.references_recorded _ r (List.mem_of_getElem? isReference)
  have usage := Reference.usage_of_fault? fault
  exact ⟨r, first, usage, quoted, ⟨way, t, holds, recorded⟩,
    fun nested => within_cited nested holds recorded usage⟩

end Module

namespace Sample

/-- `import { mock } from "@userlike/joke"; f(mock(import("m")));` -/
def passedOn : Module :=
  ⟨⟨1, 61⟩, [importMockAt, .node .stmt .expressionStatement ⟨40, 61⟩
    [.call ⟨40, 60⟩ 0 (identAt 40 "f") [.arg none (mockedAt 42 "m")] .absent]], none⟩

end Sample

namespace Module

/-- The call that the mocked module is passed to is cited. -/
theorem malformed_cites_passedOn : Sample.passedOn.Nested ∧
    Plan.ofModule Sample.passedOn none = .error (.malformedUsage ⟨40, 60⟩ "<unknown source>") ∧
      ∃ r, (Plan.inProcessingOrder (.discover Sample.passedOn.body)
          (Sample.passedOn.references (.discover Sample.passedOn.body))).find?
            (·.fault?.isSome) = some r ∧ r.usage = .error ⟨40, 60⟩ ∧
        "<unknown source>" = (snippet? none ⟨40, 60⟩).getD "<unknown source>" ∧
        (∃ way t, Sample.passedOn.Holds way t ∧
          t.Recorded (.discover Sample.passedOn.body) way r) ∧
        (Sample.passedOn.Nested → r.span.Within ⟨40, 60⟩) :=
  ⟨by decide, rfl, malformed_cites rfl⟩

end Module

end MockImport
