import MockImport.Proofs.Slots

/-!
Settling in which every call site gets an action of its own. When the actions are those
of the sites that a traversal meets, in the order in which it meets them, the stateful
traversal is a plain recursion that reads the action off the site.
-/

namespace MockImport

/-- The call sites that settling meets, in the order in which they use up actions. -/
def Tree.met (bs : Bindings) (t : Tree) : List (Option Site) := (slots bs t).filterMap Slot.site?

def Tree.metList (bs : Bindings) (ts : List Tree) : List (Option Site) :=
  (slotsList bs ts).filterMap Slot.site?

namespace Tree

variable (bs : Bindings) (own : Option Site → SiteAction)

mutual

/-- Settles every call site by the action that the site itself determines. -/
def settleBy : Tree → Tree
  | .absent => .absent
  | .leaf value => .leaf value
  | .context ctxt => .context ctxt
  | .name span text => .name span text
  | .string literal => .string literal
  | .ident role id => .ident role id
  | .shorthand id => .shorthand id
  | .items trees => .items (settleListBy trees)
  | .binding id typing => .binding id (settleBy typing)
  | .paren role span inner => .paren role span (settleBy inner)
  | .member role span object property =>
      if role = .expr ∧ (bs.call? object).isSome then
        match own (bs.accessedSite? object property) with
        | .replace v => .ident .expr (.generated v)
        | .remove => .member role span object property
      else .member role span (settleBy object) (settleBy property)
  | .call span ctxt callee args typeArgs =>
      .call span ctxt (settleBy callee) (settleListBy args) (settleBy typeArgs)
  | .arg spread value => .arg spread (settleBy value)
  | .variables role span ctxt kind declare declarators =>
      .variables role span ctxt kind declare (settleDeclaratorsBy declarators)
  | .declarator span target init definite =>
      .declarator span (settleBy target) (settleBy init) definite
  | .objectPattern span properties optional typing =>
      .objectPattern span (settleListBy properties) optional (settleBy typing)
  | .patternShorthand span key typing value =>
      .patternShorthand span key (settleBy typing) (settleBy value)
  | .patternPair key value => .patternPair (settleBy key) (settleBy value)
  | .pair key value => .pair (settleBy key) (settleBy value)
  | .getter span key typing body =>
      .getter span (settleBy key) (settleBy typing) (settleBy body)
  | .importDecl span specifiers source typeOnly attributes phase =>
      .importDecl span specifiers source typeOnly (settleBy attributes) phase
  | .exportNamed span specifiers source typeOnly attributes =>
      .exportNamed span specifiers source typeOnly (settleBy attributes)
  | .exportDecl span declaration => .exportDecl span (settleBy declaration)
  | .scope role kind span outer inner =>
      .scope role kind span (settleListBy outer) (settleListBy inner)
  | .moduleBlock span body => .moduleBlock span ((settleListBy body).filter (!·.isEmptied))
  | .node role kind span fields => .node role kind span (settleListBy fields)

def settleListBy : List Tree → List Tree
  | [] => []
  | t :: rest => settleBy t :: settleListBy rest

def settleDeclaratorsBy : List Tree → List Tree
  | [] => []
  | t :: rest =>
      if t.isDeclaratorSite bs then settleDeclaratorsBy rest
      else settleBy t :: settleDeclaratorsBy rest

end

def settleItemsBy (items : List Tree) : List Tree :=
  (settleListBy bs own items).filter (!·.isEmptied)

theorem metList_cons (t : Tree) (rest : List Tree) :
    metList bs (t :: rest) = met bs t ++ metList bs rest := by
  simp only [metList, met, slotsList, List.filterMap_append]

theorem metList_append (ts us : List Tree) :
    metList bs (ts ++ us) = metList bs ts ++ metList bs us := by
  simp only [metList, slotsList_append, List.filterMap_append]

theorem settleListBy_eq_map (ts : List Tree) :
    settleListBy bs own ts = ts.map (settleBy bs own) := by
  induction ts with
  | nil => rfl
  | cons t rest ih => simp only [settleListBy, ih, List.map_cons]

theorem settleItemsBy_append (ts us : List Tree) :
    settleItemsBy bs own (ts ++ us) = settleItemsBy bs own ts ++ settleItemsBy bs own us := by
  simp only [settleItemsBy, settleListBy_eq_map, List.map_append, List.filter_append]

end Tree

/-- With the actions of the slots in front of any others, a traversal uses up just these
and comes to the given result. -/
def Settling.Comes {α : Type} (settling : Settling α) (own : Option Site → SiteAction)
    (ss : List Slot) (result : α) : Prop :=
  ∀ rest, settling.run ((ss.filterMap Slot.site?).map own ++ rest) = (result, rest)

namespace Settling.Comes

variable {α β γ δ : Type} {own : Option Site → SiteAction} {ss us vs : List Slot}

theorem pure (a : α) : Comes (pure a) own [] a := fun _ => rfl

theorem bind {first : Settling α} {a : α} {next : α → Settling β} {b : β}
    (comes : first.Comes own ss a) (goesOn : (next a).Comes own us b) :
    (first >>= next).Comes own (ss ++ us) b := by
  intro rest
  rw [List.filterMap_append, List.map_append, List.append_assoc, StateT.run_bind, comes]
  exact goesOn rest

theorem one {first : Settling α} {a : α} (f : α → β) (comes : first.Comes own ss a) :
    (first >>= fun x => Pure.pure (f x)).Comes own ss (f a) := by
  rw [← List.append_nil ss]
  exact comes.bind (.pure (f a))

theorem two {first : Settling α} {second : Settling β} {a : α} {b : β} (f : α → β → γ)
    (comes : first.Comes own ss a) (goesOn : second.Comes own us b) :
    (first >>= fun x => second >>= fun y => Pure.pure (f x y)).Comes own (ss ++ us) (f a b) :=
  comes.bind (goesOn.one (f a))

theorem three {first : Settling α} {second : Settling β} {third : Settling γ} {a : α} {b : β}
    {c : γ} (f : α → β → γ → δ) (comes : first.Comes own ss a)
    (goesOn : second.Comes own us b) (ends : third.Comes own vs c) :
    (first >>= fun x => second >>= fun y => third >>= fun z => Pure.pure (f x y z)).Comes own
      (ss ++ us ++ vs) (f a b c) := by
  rw [List.append_assoc]
  exact comes.bind (goesOn.two (f a) ends)

/-- Marks use up no action. -/
theorem stay {settling : Settling α} {a : α} (ms : List Mark)
    (comes : settling.Comes own ss a) : settling.Comes own (ms.map .mark ++ ss) a := by
  intro rest
  rw [List.filterMap_append, Slot.filterMap_site?_marks]
  exact comes rest

theorem outward {settling : Settling α} {a : α} (comes : settling.Comes own ss a) :
    settling.Comes own (ss.map Slot.outward) a := by
  intro rest
  rw [Slot.filterMap_site?_outward]
  exact comes rest

end Settling.Comes

namespace Tree

variable (bs : Bindings) (own : Option Site → SiteAction)

private theorem settleList_comes (ts : List Tree)
    (ih : ∀ t ∈ ts, (settle bs t).Comes own (slots bs t) (settleBy bs own t)) :
    (settleList bs ts).Comes own (slotsList bs ts) (settleListBy bs own ts) := by
  induction ts with
  | nil => exact .pure []
  | cons t rest ihRest =>
      exact (ih t List.mem_cons_self).two List.cons
        (ihRest fun u mem => ih u (List.mem_cons_of_mem t mem))

theorem settleDeclarators_comes (ts : List Tree)
    (ih : ∀ t ∈ ts, (settle bs t).Comes own (slots bs t) (settleBy bs own t)) :
    (settleDeclarators bs ts).Comes own (slotsDeclarators bs ts)
      (settleDeclaratorsBy bs own ts) := by
  induction ts with
  | nil => exact .pure []
  | cons t rest ihRest =>
      have later := ihRest fun u mem => ih u (List.mem_cons_of_mem t mem)
      cases site : t.isDeclaratorSite bs with
      | true =>
          simp only [slotsDeclarators, settleDeclarators, settleDeclaratorsBy, site, if_true]
          exact later
      | false =>
          simp only [slotsDeclarators, settleDeclarators, settleDeclaratorsBy, site,
            Bool.false_eq_true, if_false]
          exact (ih t List.mem_cons_self).two List.cons later

open Settling.Comes in
theorem settle_comes (t : Tree) :
    (settle bs t).Comes own (slots bs t) (settleBy bs own t) := by
  induction t with
  | absent | leaf _ | context _ | name _ _ | string _ => exact .pure _
  | ident _ _ => exact stay [_] (.pure _)
  | shorthand _ => exact stay [_] (.pure _)
  | items trees ih => exact (settleList_comes bs own trees ih).one Tree.items
  | binding id _ ih => exact stay [_] (ih.one (Tree.binding id))
  | paren role span _ ih => exact ih.one (Tree.paren role span)
  | member role span object property ihObject ihProperty =>
      by_cases site : role = .expr ∧ (bs.call? object).isSome
      · intro rest
        simp only [settle, slots, settleBy, site, and_self, if_true]
        cases action : own (bs.accessedSite? object property) with
        | remove => simp only [List.filterMap_cons, Slot.site?, List.map_cons, action]; rfl
        | replace v => simp only [List.filterMap_cons, Slot.site?, List.map_cons, action]; rfl
      · simp only [settle, slots, settleBy, site, if_false]
        exact ihObject.two (Tree.member role span) ihProperty
  | call span ctxt _ args _ ihCallee ihArgs ihType =>
      exact ihCallee.three (Tree.call span ctxt) (settleList_comes bs own args ihArgs) ihType
  | arg spread _ ih => exact ih.one (Tree.arg spread)
  | declaration role span ctxt kind declare ts ih =>
      exact (settleDeclarators_comes bs own ts ih).one
        (Tree.variables role span ctxt kind declare)
  | declarator span _ _ definite ihTarget ihInit =>
      exact stay [_] (ihTarget.two (Tree.declarator span · · definite) ihInit)
  | objectPattern span properties optional _ ihProperties ihType =>
      exact (settleList_comes bs own properties ihProperties).two
        (Tree.objectPattern span · optional ·) ihType
  | patternShorthand span key _ _ ihType ihValue =>
      exact stay [_] (ihType.two (Tree.patternShorthand span key) ihValue)
  | patternPair _ _ ihKey ihValue => exact ihKey.two Tree.patternPair ihValue
  | pair _ _ ihKey ihValue => exact ihKey.two Tree.pair ihValue
  | getter span _ _ _ ihKey ihType ihBody => exact ihKey.three (Tree.getter span) ihType ihBody
  | importDecl span specifiers source typeOnly _ phase ih =>
      exact stay _ (ih.one (Tree.importDecl span specifiers source typeOnly · phase))
  | exportNamed span specifiers source typeOnly _ ih =>
      have comes := ih.outward.one (Tree.exportNamed span specifiers source typeOnly)
      cases source with
      | none => exact stay _ comes
      | some source => exact stay _ comes
  | exportDecl span _ ih => exact ih.one (Tree.exportDecl span)
  | scope role kind span outer inner ihOuter ihInner =>
      exact (settleList_comes bs own outer ihOuter).two (Tree.scope role kind span)
        (settleList_comes bs own inner ihInner)
  | moduleBlock span body ih =>
      exact (settleList_comes bs own body ih).one fun body =>
        Tree.moduleBlock span (body.filter (!·.isEmptied))
  | node role kind span fields ih =>
      exact (settleList_comes bs own fields ih).one (Tree.node role kind span)

theorem settleItems_comes (items : List Tree) :
    (settleItems bs items).Comes own (slotsList bs items) (settleItemsBy bs own items) :=
  (settleList_comes bs own items fun t _ => settle_comes bs own t).one
    (List.filter fun item : Tree => !item.isEmptied)

/-- Handed the actions of the sites it meets, settling module items uses them all up and
settles each site by its own. -/
theorem settleItems_run (items : List Tree) :
    (settleItems bs items).run ((metList bs items).map own) =
      (settleItemsBy bs own items, []) := by
  have comes := settleItems_comes bs own items []
  rwa [List.append_nil] at comes

end Tree

namespace Slot

/-- The marks that a slot leaves behind when every call site is settled by its own action. -/
def settledBy (own : Option Site → SiteAction) : Slot → List Mark
  | .mark m => [m]
  | .declaration _ => []
  | .access site standing held =>
      match own site with
      | .replace v => [.ident standing .generated v]
      | .remove => held

theorem fill_own (own : Option Site → SiteAction) (ss : List Slot) :
    fill ss ((ss.filterMap site?).map own) = ss.flatMap (settledBy own) := by
  induction ss with
  | nil => rfl
  | cons s rest ih =>
      cases s with
      | mark m => exact congrArg (m :: ·) ih
      | declaration site => exact ih
      | access site standing held =>
          simp only [List.filterMap_cons, site?, List.map_cons, fill, List.head?_cons,
            List.tail_cons, ih, List.flatMap_cons, settledBy]
          cases own site <;> rfl

end Slot

theorem Tree.marksList_settleItemsBy (bs : Bindings) (own : Option Site → SiteAction)
    (items : List Tree) :
    marksList (settleItemsBy bs own items) = (slotsList bs items).flatMap (Slot.settledBy own) := by
  have filled := settleItems_followed bs items ((metList bs items).map own)
  rw [settledMarksList, settleItems_run] at filled
  exact (congrArg Prod.fst filled).trans (Slot.fill_own own _)

end MockImport
