import MockImport.Proofs.Assembly

/-!
Where the identifiers of a settled module come from. Whatever the actions are, a settled
tree holds identifiers that stood in the tree before, in the same order, and the
variables of actions.
-/

namespace MockImport

/-- An identifier or declarator of a settled module, and whether it was there before. -/
structure Origin where
  inherited : Bool
  mark : Mark

/-- The marks that were there before. -/
def Origin.kept (origins : List Origin) : List Mark :=
  (origins.filter (·.inherited)).map Origin.mark

namespace Origin

theorem kept_append (os us : List Origin) : kept (os ++ us) = kept os ++ kept us := by
  simp only [kept, List.filter_append, List.map_append]

theorem kept_made (ms : List Mark) : kept (ms.map (Origin.mk false)) = [] := by
  rw [kept, List.map_eq_nil_iff, List.filter_eq_nil_iff]
  intro o mem
  obtain ⟨m, -, rfl⟩ := List.mem_map.mp mem
  exact Bool.false_ne_true

end Origin

namespace Slot

/-- The marks that may stay. -/
def kept : Slot → List Mark
  | .mark m => [m]
  | .access _ _ own => own
  | .declaration _ => []

/-- Fills actions in, and keeps track of what was there before. -/
def traced : List Slot → List SiteAction → List Origin
  | [], _ => []
  | .mark m :: rest, actions => ⟨true, m⟩ :: traced rest actions
  | .declaration _ :: rest, actions => traced rest actions.tail
  | .access _ standing own :: rest, actions =>
      (match actions.head? with
      | some (.replace v) => [⟨false, .ident standing .generated v⟩]
      | _ => own.map (⟨true, ·⟩)) ++ traced rest actions.tail

theorem map_mark_inherited (ms : List Mark) :
    (ms.map (Origin.mk true)).map Origin.mark = ms := by
  rw [List.map_map]
  exact List.map_id ms

theorem map_mark_traced (ss : List Slot) (actions : List SiteAction) :
    (traced ss actions).map Origin.mark = fill ss actions := by
  induction ss generalizing actions with
  | nil => rfl
  | cons s rest ih =>
      cases s with
      | mark m => exact congrArg (m :: ·) (ih actions)
      | declaration site => exact ih actions.tail
      | access site standing own =>
          simp only [traced, fill, List.map_append, ih]
          congr 1
          cases actions with
          | nil => exact map_mark_inherited own
          | cons action later =>
              cases action with
              | remove => exact map_mark_inherited own
              | replace v => rfl

theorem kept_traced_sublist (ss : List Slot) (actions : List SiteAction) :
    (Origin.kept (traced ss actions)).Sublist (ss.flatMap kept) := by
  induction ss generalizing actions with
  | nil => exact .slnil
  | cons s rest ih =>
      cases s with
      | mark m => exact (ih actions).cons_cons m
      | declaration site => exact ih actions.tail
      | access site standing own =>
          simp only [traced, Origin.kept, List.filter_append, List.map_append]
          refine List.Sublist.append ?_ (ih actions.tail)
          split
          · exact List.nil_sublist own
          · rw [List.filter_map, map_mark_inherited]
            exact List.filter_sublist

/-- What was not there before is the variable of an action. -/
theorem made_of_traced {ss : List Slot} {actions : List SiteAction} {o : Origin}
    (mem : o ∈ traced ss actions) (made : o.inherited = false) :
    ∃ standing v, .replace v ∈ actions ∧ o.mark = .ident standing .generated v := by
  induction ss generalizing actions with
  | nil => cases mem
  | cons s rest ih =>
      have later (mem : o ∈ traced rest actions.tail) : ∃ standing v,
          .replace v ∈ actions ∧ o.mark = .ident standing .generated v := by
        obtain ⟨standing, v, used, same⟩ := ih mem
        exact ⟨standing, v, List.mem_of_mem_tail used, same⟩
      cases s with
      | mark m =>
          obtain rfl | mem := List.mem_cons.mp mem
          · cases made
          · exact ih mem
      | declaration site => exact later mem
      | access site standing own =>
          obtain mem | mem := List.mem_append.mp mem
          · split at mem
            · next v first =>
                rw [List.mem_singleton.mp mem]
                exact ⟨standing, v, List.mem_of_mem_head? first, rfl⟩
            · obtain ⟨m, -, rfl⟩ := List.mem_map.mp mem
              cases made
          · exact later mem

theorem flatMap_kept_marks (ms : List Mark) : (ms.map Slot.mark).flatMap kept = ms := by
  rw [List.flatMap_map]
  exact List.flatMap_singleton' ms

theorem flatMap_kept_outward (ss : List Slot) :
    (ss.map outward).flatMap kept = (ss.flatMap kept).map Mark.outward := by
  rw [List.flatMap_map, List.map_flatMap]
  exact List.flatMap_congr fun s _ => by cases s <;> rfl

end Slot

namespace Tree

variable (bs : Bindings)

open Slot

theorem kept_slotsList_sublist {ts : List Tree}
    (kept : ∀ t ∈ ts, ((slots bs t).flatMap Slot.kept).Sublist (marks t)) :
    ((slotsList bs ts).flatMap Slot.kept).Sublist (marksList ts) := by
  induction ts with
  | nil => exact .slnil
  | cons t rest ih =>
      obtain ⟨here, later⟩ := List.forall_mem_cons.mp kept
      rw [slotsList, marksList, List.flatMap_append]
      exact here.append (ih later)

theorem kept_slotsDeclarators_sublist {ts : List Tree}
    (kept : ∀ t ∈ ts, ((slots bs t).flatMap Slot.kept).Sublist (marks t)) :
    ((slotsDeclarators bs ts).flatMap Slot.kept).Sublist (marksList ts) := by
  induction ts with
  | nil => exact .slnil
  | cons t rest ih =>
      obtain ⟨here, later⟩ := List.forall_mem_cons.mp kept
      rw [slotsDeclarators, marksList]
      split
      · exact (ih later).trans (List.sublist_append_right _ _)
      · rw [List.flatMap_append]
        exact here.append (ih later)

/-- Settling keeps nothing that was not there, and keeps its order. -/
theorem kept_slots_sublist (t : Tree) : ((slots bs t).flatMap kept).Sublist (marks t) := by
  induction t with
  | absent | leaf _ | context _ | name _ _ | string _ => exact .slnil
  | ident _ _ | shorthand _ => exact List.Sublist.refl _
  | items trees ih => exact kept_slotsList_sublist bs ih
  | binding id _ ih => exact ih.cons_cons _
  | paren _ _ _ ih | arg _ _ ih | exportDecl _ _ ih => exact ih
  | member role _ object property ihObject ihProperty =>
      rw [slots, marks]
      split
      · rw [List.flatMap_singleton]
        exact List.Sublist.refl _
      · rw [List.flatMap_append]
        exact ihObject.append ihProperty
  | call _ _ _ args _ ihCallee ihArgs ihType =>
      simp only [slots, marks, List.flatMap_append]
      exact (ihCallee.append (kept_slotsList_sublist bs ihArgs)).append ihType
  | declaration _ _ _ _ _ ts ih => exact kept_slotsDeclarators_sublist bs ih
  | declarator _ _ _ _ ihA ihB | patternShorthand _ _ _ _ ihA ihB =>
      simp only [slots, marks, List.flatMap_cons, List.flatMap_append]
      exact (ihA.append ihB).cons_cons _
  | objectPattern _ properties _ _ ihProperties ihType =>
      simp only [slots, marks, List.flatMap_append]
      exact (kept_slotsList_sublist bs ihProperties).append ihType
  | patternPair _ _ ihKey ihValue | pair _ _ ihKey ihValue =>
      simp only [slots, marks, List.flatMap_append]
      exact ihKey.append ihValue
  | getter _ _ _ _ ihKey ihType ihBody =>
      simp only [slots, marks, List.flatMap_append]
      exact (ihKey.append ihType).append ihBody
  | importDecl _ _ _ _ _ _ ih =>
      simp only [slots, marks, List.flatMap_append, flatMap_kept_marks]
      exact (List.Sublist.refl _).append ih
  | exportNamed _ _ source _ _ ih =>
      cases source <;>
        simp only [slots, marks, List.flatMap_append, flatMap_kept_marks,
          flatMap_kept_outward] <;>
        exact (List.Sublist.refl _).append (ih.map _)
  | scope _ _ _ outer inner ihOuter ihInner =>
      simp only [slots, marks, List.flatMap_append]
      exact (kept_slotsList_sublist bs ihOuter).append (kept_slotsList_sublist bs ihInner)
  | moduleBlock _ body ih => exact kept_slotsList_sublist bs ih
  | node _ _ _ fields ih => exact kept_slotsList_sublist bs ih

end Tree

namespace Progress

variable (bs : Bindings) (p : Progress) (body : List Tree)

/-- Where the identifiers below the generated imports come from. -/
def origins : List Origin :=
  Slot.traced (Tree.slotsList bs (splitAtImports body).1) p.allActions ++
    ((Tree.marksList (p.registered.map registration)).map (Origin.mk false) ++
      Slot.traced (Tree.slotsList bs (splitAtImports body).2)
        (p.allActions.drop (Slot.uses (Tree.slotsList bs (splitAtImports body).1))))

theorem marksList_below :
    Tree.marksList ((Tree.settleItems bs (p.below body)).run p.allActions).1 =
      (p.origins bs body).map Origin.mark := by
  have followed := congrArg Prod.fst
    (Tree.settleItems_followed bs (p.below body) p.allActions)
  refine followed.trans ?_
  simp only [below, Tree.slotsList_append,
    Tree.slotsList_inert bs (Tree.inert_registrations bs p.registered), Slot.fill_append,
    Slot.fill_marks, Slot.uses_marks, List.drop_zero, origins, List.map_append,
    Slot.map_mark_traced, List.map_map]
  exact congrArg (_ ++ ·) (congrArg (· ++ _) (List.map_id _).symm)

theorem kept_origins_sublist :
    (Origin.kept (p.origins bs body)).Sublist (Tree.marksList body) := by
  have part (ts : List Tree) (actions : List SiteAction) :
      (Origin.kept (Slot.traced (Tree.slotsList bs ts) actions)).Sublist (Tree.marksList ts) :=
    (Slot.kept_traced_sublist _ actions).trans (Tree.kept_slots_sublist bs (.items ts))
  have whole : Tree.marksList body =
      Tree.marksList (splitAtImports body).1 ++ Tree.marksList (splitAtImports body).2 := by
    rw [← Tree.marksList_append, splitAtImports_append]
  rw [whole, origins, Origin.kept_append, Origin.kept_append, Origin.kept_made,
    List.nil_append]
  exact (part _ _).append (part _ _)

/-- What is not inherited is the registrar or the variable of an action. -/
theorem made_of_origins {o : Origin} (mem : o ∈ p.origins bs body)
    (made : o.inherited = false) :
    ∃ standing v, o.mark = .ident standing .generated v ∧
      (v = ⟨registrar, 0⟩ ∨ .replace v ∈ p.allActions) := by
  obtain mem | mem := List.mem_append.mp mem
  · obtain ⟨standing, v, used, same⟩ := Slot.made_of_traced mem made
    exact ⟨standing, v, same, .inr used⟩
  · obtain mem | mem := List.mem_append.mp mem
    · obtain ⟨mark, isMark, rfl⟩ := List.mem_map.mp mem
      rw [Tree.marksList_eq_flatMap, List.flatMap_map] at isMark
      obtain ⟨specifier, -, isMark⟩ := List.mem_flatMap.mp isMark
      exact ⟨.use, ⟨registrar, 0⟩, List.mem_singleton.mp isMark, .inl rfl⟩
    · obtain ⟨standing, v, used, same⟩ := Slot.made_of_traced mem made
      exact ⟨standing, v, same, .inr (List.mem_of_mem_drop used)⟩

end Progress
end MockImport
