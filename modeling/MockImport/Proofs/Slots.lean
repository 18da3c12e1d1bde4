import MockImport.Settling
import MockImport.Site
import MockImport.Proofs.Marks

/-!
What a settling traversal comes across: the identifiers and declarators that stay, and
the call sites, each of which uses up one action. The result of a traversal is then
the list of slots with the actions filled in, whatever the actions are.
-/

namespace MockImport

/-- The call site that a mock call makes together with what takes its result up. -/
def MockCall.site? (call : MockCall) (pattern : Option Pattern) : Option Site :=
  call.specifier?.bind fun source => pattern.map fun p => ⟨call.binding, source, p⟩

/-- The call site that a member access is. -/
def Bindings.accessedSite? (bs : Bindings) (object property : Tree) : Option Site :=
  (bs.call? object).bind (·.site? property.propertyPattern?)

/-- The call site that a declarator is. -/
def Bindings.declaredSite? (bs : Bindings) : Tree → Option Site
  | .declarator _ target init _ => (bs.call? init).bind (·.site? target.targetPattern?)
  | _ => none

inductive Slot where
  | mark (m : Mark)
  /-- A member access on a mock call, with what it holds. -/
  | access (site : Option Site) (standing : Standing) (own : List Mark)
  /-- A declarator whose initial value is a mock call. -/
  | declaration (site : Option Site)

namespace Slot

/-- The call site that uses up an action here, if one does. -/
def site? : Slot → Option (Option Site)
  | .mark _ => none
  | .access site _ _ => some site
  | .declaration site => some site

def outward : Slot → Slot
  | .mark m => .mark m.outward
  | .access site _ own => .access site .outside (own.map Mark.outward)
  | .declaration site => .declaration site

theorem site?_outward (s : Slot) : s.outward.site? = s.site? := by
  cases s <;> rfl

theorem filterMap_site?_mark (m : Mark) (ss : List Slot) :
    (.mark m :: ss).filterMap site? = ss.filterMap site? := rfl

theorem filterMap_site?_marks (ms : List Mark) : (ms.map Slot.mark).filterMap site? = [] := by
  rw [List.filterMap_map, List.filterMap_eq_nil_iff]
  exact fun _ _ => rfl

theorem filterMap_site?_outward (ss : List Slot) :
    (ss.map outward).filterMap site? = ss.filterMap site? := by
  rw [List.filterMap_map]
  exact List.filterMap_congr fun s _ => s.site?_outward

/-- Fills actions in. A declarator goes away with its action; a member access gives way
to the variable of its action, or stays if that is none. -/
def fill : List Slot → List SiteAction → List Mark
  | [], _ => []
  | .mark m :: rest, actions => m :: fill rest actions
  | .declaration _ :: rest, actions => fill rest actions.tail
  | .access _ standing own :: rest, actions =>
      (match actions.head? with
      | some (.replace v) => [.ident standing .generated v]
      | _ => own) ++ fill rest actions.tail

/-- The number of actions that slots use up. -/
def uses (slots : List Slot) : Nat := (slots.filterMap site?).length

theorem uses_append (ss us : List Slot) : uses (ss ++ us) = uses ss + uses us := by
  simp only [uses, List.filterMap_append, List.length_append]

theorem fill_append (ss us : List Slot) (actions : List SiteAction) :
    fill (ss ++ us) actions = fill ss actions ++ fill us (actions.drop (uses ss)) := by
  induction ss generalizing actions with
  | nil => rfl
  | cons s rest ih =>
      cases s with
      | mark m => simp only [List.cons_append, fill, ih]; rfl
      | declaration site =>
          simp only [List.cons_append, fill, ih, List.drop_tail]
          rfl
      | access site standing own =>
          simp only [List.cons_append, fill, ih, List.drop_tail, List.append_assoc]
          rfl

theorem fill_marks (ms : List Mark) (actions : List SiteAction) :
    fill (ms.map .mark) actions = ms := by
  induction ms with
  | nil => rfl
  | cons m rest ih => exact congrArg (m :: ·) ih

theorem uses_marks (ms : List Mark) : uses (ms.map .mark) = 0 :=
  congrArg List.length (filterMap_site?_marks ms)

theorem fill_outward (ss : List Slot) (actions : List SiteAction) :
    fill (ss.map outward) actions = (fill ss actions).map Mark.outward := by
  induction ss generalizing actions with
  | nil => rfl
  | cons s rest ih =>
      cases s with
      | mark m => exact congrArg (m.outward :: ·) (ih actions)
      | declaration site => exact ih actions.tail
      | access site standing own =>
          simp only [List.map_cons, outward, fill, ih, List.map_append]
          congr 1
          split <;> rfl

theorem uses_outward (ss : List Slot) : uses (ss.map outward) = uses ss :=
  congrArg List.length (filterMap_site?_outward ss)

end Slot

namespace Tree

mutual

/-- What settling a tree comes across. -/
def slots (bs : Bindings) : Tree → List Slot
  | .absent | .leaf _ | .context _ | .name _ _ | .string _ => []
  | .items trees => slotsList bs trees
  | .ident role id => [.mark (id.mark (if role = .expr then .use else .other))]
  | .shorthand id => [.mark (id.mark .use)]
  | .binding id typing => .mark (id.mark .other) :: slots bs typing
  | .paren _ _ inner => slots bs inner
  | .member role _ object property =>
      if role = .expr ∧ (bs.call? object).isSome then
        [.access (bs.accessedSite? object property) .use (marks object ++ marks property)]
      else slots bs object ++ slots bs property
  | .call _ _ callee args typeArgs =>
      slots bs callee ++ slotsList bs args ++ slots bs typeArgs
  | .arg _ value => slots bs value
  | .variables _ _ _ _ _ declarators => slotsDeclarators bs declarators
  | .declarator span target init _ =>
      .mark (.declarator span) :: (slots bs target ++ slots bs init)
  | .objectPattern _ properties _ typing => slotsList bs properties ++ slots bs typing
  | .patternShorthand _ key typing value =>
      .mark (key.mark .other) :: (slots bs typing ++ slots bs value)
  | .patternPair key value | .pair key value => slots bs key ++ slots bs value
  | .getter _ key typing body => slots bs key ++ slots bs typing ++ slots bs body
  | .importDecl _ specifiers _ _ attributes _ =>
      (specifiers.flatMap ImportSpecifier.marks).map .mark ++ slots bs attributes
  | .exportNamed _ specifiers none _ attributes =>
      (specifiers.flatMap ExportSpecifier.marks).map .mark ++
        (slots bs attributes).map Slot.outward
  | .exportNamed _ specifiers (some _) _ attributes =>
      ((specifiers.flatMap ExportSpecifier.marks).map Mark.outward).map .mark ++
        (slots bs attributes).map Slot.outward
  | .exportDecl _ declaration => slots bs declaration
  | .scope _ _ _ outer inner => slotsList bs outer ++ slotsList bs inner
  | .moduleBlock _ body => slotsList bs body
  | .node _ _ _ fields => slotsList bs fields

def slotsList (bs : Bindings) : List Tree → List Slot
  | [] => []
  | t :: rest => slots bs t ++ slotsList bs rest

def slotsDeclarators (bs : Bindings) : List Tree → List Slot
  | [] => []
  | t :: rest =>
      if t.isDeclaratorSite bs then
        .declaration (bs.declaredSite? t) :: slotsDeclarators bs rest
      else slots bs t ++ slotsDeclarators bs rest

end

variable (bs : Bindings)

theorem slotsList_append (ts us : List Tree) :
    slotsList bs (ts ++ us) = slotsList bs ts ++ slotsList bs us := by
  induction ts with
  | nil => rfl
  | cons t rest ih => simp only [List.cons_append, slotsList, ih, List.append_assoc]

theorem marksList_filter_isEmptied (ts : List Tree) :
    marksList (ts.filter (!·.isEmptied)) = marksList ts := by
  have nothing (t : Tree) (emptied : t.isEmptied = true) : marks t = [] := by
    simp only [isEmptied] at emptied
    split at emptied
    · rfl
    · rfl
    · cases emptied
  induction ts with
  | nil => rfl
  | cons t rest ih =>
      cases emptied : t.isEmptied with
      | true => simp [emptied, marksList, ih, nothing t emptied]
      | false => simp [emptied, marksList, ih]

end Tree

/-- A traversal gives the marks that the slots give with the actions filled in, and
leaves the actions that they do not use up. -/
def Slot.Followed (ss : List Slot) (run : List SiteAction → List Mark × List SiteAction) :
    Prop :=
  ∀ actions, run actions = (fill ss actions, actions.drop (uses ss))

namespace Slot.Followed

theorem stay (ms : List Mark) : Followed (ms.map .mark) fun actions => (ms, actions) := by
  intro actions
  rw [fill_marks, uses_marks, List.drop_zero]

theorem append {ss us : List Slot} {f g : List SiteAction → List Mark × List SiteAction}
    (first : Followed ss f) (second : Followed us g) :
    Followed (ss ++ us) fun actions =>
      ((f actions).1 ++ (g (f actions).2).1, (g (f actions).2).2) := by
  intro actions
  simp only [first actions, second _, fill_append, uses_append, List.drop_drop]

theorem outward {ss : List Slot} {f : List SiteAction → List Mark × List SiteAction}
    (inside : Followed ss f) :
    Followed (ss.map Slot.outward) fun actions =>
      ((f actions).1.map Mark.outward, (f actions).2) := by
  intro actions
  simp only [inside actions, fill_outward, uses_outward]

end Slot.Followed

namespace Tree

variable (bs : Bindings)

/-- The marks of what a traversal returns, and the actions it leaves. -/
def settledMarks (settling : Settling Tree) (actions : List SiteAction) :
    List Mark × List SiteAction :=
  (marks (settling.run actions).1, (settling.run actions).2)

def settledMarksList (settling : Settling (List Tree)) (actions : List SiteAction) :
    List Mark × List SiteAction :=
  (marksList (settling.run actions).1, (settling.run actions).2)

section

open Slot.Followed

theorem settleList_followed (ts : List Tree)
    (ih : ∀ t ∈ ts, Slot.Followed (slots bs t) (settledMarks (settle bs t))) :
    Slot.Followed (slotsList bs ts) (settledMarksList (settleList bs ts)) := by
  induction ts with
  | nil => exact stay []
  | cons t rest ihRest =>
      exact (ih t List.mem_cons_self).append
        (ihRest fun u mem => ih u (List.mem_cons_of_mem t mem))

theorem settleDeclarators_followed (ts : List Tree)
    (ih : ∀ t ∈ ts, Slot.Followed (slots bs t) (settledMarks (settle bs t))) :
    Slot.Followed (slotsDeclarators bs ts) (settledMarksList (settleDeclarators bs ts)) := by
  induction ts with
  | nil => exact stay []
  | cons t rest ihRest =>
      have later := ihRest fun u mem => ih u (List.mem_cons_of_mem t mem)
      cases site : t.isDeclaratorSite bs with
      | true =>
          -- A declarator that is a call site takes one action and leaves no mark.
          intro actions
          simp only [slotsDeclarators, settleDeclarators, site, if_true]
          exact (later actions.tail).trans (by rw [List.drop_tail]; rfl)
      | false =>
          simp only [slotsDeclarators, settleDeclarators, site, Bool.false_eq_true, if_false]
          exact (ih t List.mem_cons_self).append later

/-- Settling a tree fills its slots, whatever the actions are. -/
theorem settle_followed (t : Tree) : Slot.Followed (slots bs t) (settledMarks (settle bs t)) := by
  induction t with
  | absent | leaf _ | context _ | name _ _ | string _ => exact stay []
  | ident role id => exact stay [id.mark (if role = .expr then .use else .other)]
  | shorthand id => exact stay [id.mark .use]
  | items trees ih => exact settleList_followed bs trees ih
  | binding id typing ih => exact (stay [id.mark .other]).append ih
  | paren _ _ _ ih | arg _ _ ih | exportDecl _ _ ih => exact ih
  | member role span object property ihObject ihProperty =>
      by_cases site : role = .expr ∧ (bs.call? object).isSome
      · intro actions
        simp only [settle, slots, site, and_self, if_true]
        cases actions with
        | nil => simp only [Slot.fill, List.append_nil]; rfl
        | cons action rest =>
            cases action <;> simp only [Slot.fill, List.append_nil] <;> rfl
      · simp only [settle, slots, site, if_false]
        exact ihObject.append ihProperty
  | call _ _ _ args _ ihCallee ihArgs ihType =>
      exact (ihCallee.append (settleList_followed bs args ihArgs)).append ihType
  | declaration _ _ _ _ _ ts ih => exact settleDeclarators_followed bs ts ih
  | declarator span _ _ _ ihTarget ihInit =>
      exact (stay [.declarator span]).append (ihTarget.append ihInit)
  | objectPattern _ properties _ _ ihProperties ihType =>
      exact (settleList_followed bs properties ihProperties).append ihType
  | patternShorthand _ key _ _ ihType ihValue =>
      exact (stay [key.mark .other]).append (ihType.append ihValue)
  | patternPair _ _ ihKey ihValue | pair _ _ ihKey ihValue => exact ihKey.append ihValue
  | getter _ _ _ _ ihKey ihType ihBody => exact (ihKey.append ihType).append ihBody
  | importDecl _ specifiers _ _ _ _ ih =>
      exact (stay (specifiers.flatMap ImportSpecifier.marks)).append ih
  | exportNamed _ specifiers source _ _ ih =>
      cases source with
      | none => exact (stay (specifiers.flatMap ExportSpecifier.marks)).append ih.outward
      | some source =>
          exact (stay ((specifiers.flatMap ExportSpecifier.marks).map Mark.outward)).append
            ih.outward
  | scope _ _ _ outer inner ihOuter ihInner =>
      exact (settleList_followed bs outer ihOuter).append (settleList_followed bs inner ihInner)
  | moduleBlock _ body ih =>
      intro actions
      refine Eq.trans ?_ (settleList_followed bs body ih actions)
      exact congrArg (·, _) (marksList_filter_isEmptied _)
  | node _ _ _ fields ih => exact settleList_followed bs fields ih

end

theorem settleItems_followed (ts : List Tree) :
    Slot.Followed (slotsList bs ts) (settledMarksList (settleItems bs ts)) :=
  settle_followed bs (.moduleBlock .generated ts)

end Tree
end MockImport
