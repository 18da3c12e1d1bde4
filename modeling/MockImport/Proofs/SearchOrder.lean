import MockImport.Proofs.Assignments
import MockImport.Proofs.Parts

/-!
The search for references. What is recorded of a node is what is recorded of its parts, one
after the other, unless the node is a mention itself or takes up a mock call; so whatever the
search comes to is recorded.
-/

namespace MockImport

/-- Enters a part, which may stand in a scope of its own. -/
def Context.into (c : Context) (place : Place) : Context :=
  if place = .scoped then c.below else c

namespace Tree

/-- A call whose callee is the mock function. -/
def isMockCall (bs : Bindings) : Tree → Bool
  | .call _ _ callee _ _ => (bs.callee? callee).isSome
  | _ => false

/-- The parts of a node in the order in which they are searched. -/
def searched (bs : Bindings) : Tree → List (Place × Tree)
  | .member .expr _ object property =>
      if (bs.member? object property).isSome then [] else [(.object, object), (.other, property)]
  | .call _ _ callee args typeArgs =>
      (.callee, callee) :: (args.map (.other, ·) ++
        if (bs.callee? callee).isSome then [] else [(.other, typeArgs)])
  | .getter _ key _ body => [(.other, key), (.scoped, body)]
  | .exportNamed .. => []
  | t => t.parts

/-- The search in a tree that stands somewhere comes to the node. -/
inductive Searches (bs : Bindings) (root : Tree) (above : Way) : Way → Tree → Prop where
  | here : Searches bs root above above root
  | part {way : Way} {t u : Tree} {place : Place} (searches : Searches bs root above way t)
      (mem : (place, u) ∈ t.searched bs) : Searches bs root above (⟨t, place⟩ :: way) u

/-- All that is recorded of a node. -/
inductive RecordCase (bs : Bindings) (c : Context) : Tree → List Reference → Prop
  | parts {t : Tree} {rs : List Reference} {d : Context} (same : d.atRoot = c.atRoot)
      (unread : t.isRead bs = false) (uncalled : t.isMockCall bs = false)
      (recorded : rs = (t.searched bs).flatMap fun p => references bs (d.into p.1) p.2) :
      RecordCase bs c t rs
  | reference {t : Tree} {b : Nat} (usage : Usage) (refers : bs.reference? t = some b) :
      RecordCase bs c t [c.record b t.span usage]
  | shorthand {id : Ident} {b : Nat} (usage : Usage) (bound : bs.named? id.var = some b) :
      RecordCase bs c (.shorthand id) [c.record b id.span usage]
  | exported (span : Span) (specifiers : List ExportSpecifier) (typeOnly : Bool)
      (attributes : Tree) :
      RecordCase bs c (.exportNamed span specifiers none typeOnly attributes)
        (specifiers.flatMap (ExportSpecifier.references bs c))
  | enclosed {inner : Tree} {m : MockCall} {d : Context} (span : Span) (usage : Usage)
      (found : bs.call? inner = some m) (same : d.atRoot = c.atRoot) :
      RecordCase bs c (.paren .expr span inner)
        (c.record m.binding m.span usage :: argReferences bs d inner)
  | accessed {object property : Tree} {m : MockCall} {d e : Context} (span : Span)
      (usage : Usage) (unread : bs.member? object property = none)
      (found : bs.call? object = some m) (same : d.atRoot = c.atRoot)
      (same' : e.atRoot = c.atRoot) :
      RecordCase bs c (.member .expr span object property)
        (c.record m.binding m.span usage :: argReferences bs d object ++
          references bs e property)
  | called {span : Span} {callee : Tree} {b : Nat} {d : Context} (ctxt : Nat)
      (args : List Tree) (typeArgs : Tree) (usage : Usage) (isCallee : bs.callee? callee = some b)
      (same : d.atRoot = c.atRoot) :
      RecordCase bs c (.call span ctxt callee args typeArgs)
        (c.record b span usage :: referencesList bs d args)
  | declared {target init : Tree} {m : MockCall} {d e : Context} (span : Span) (definite : Bool)
      (usage : Usage) (found : bs.call? init = some m) (same : d.atRoot = c.atRoot)
      (same' : e.atRoot = c.atRoot) :
      RecordCase bs c (.declarator span target init definite)
        (c.record m.binding m.span usage ::
          (references bs d target ++ argReferences bs e init))

section

variable {bs : Bindings} {above way : Way} {t u : Tree}

theorem searched_subset (bs : Bindings) (t : Tree) : t.searched bs ⊆ t.parts := by
  cases t with
  | member role span object property =>
      cases role with
      | expr =>
          rw [searched]
          split
          · exact List.nil_subset _
          · exact List.Subset.refl _
      | _ => exact List.Subset.refl _
  | call _ _ callee args typeArgs =>
      rw [searched, parts]
      refine List.cons_subset_cons _ (List.append_subset.mpr
        ⟨List.subset_append_left _ _, ?_⟩)
      split
      · exact List.nil_subset _
      · exact List.subset_append_right _ _
  | getter _ _ _ _ => exact List.cons_subset_cons _ (List.subset_cons_self _ _)
  | exportNamed _ _ _ _ _ => exact List.nil_subset _
  | _ => exact List.Subset.refl _

theorem searched_of_reference? {b : Nat} (refers : bs.reference? t = some b) :
    t.searched bs = [] := by
  cases t with
  | ident role id => rfl
  | member role span object property =>
      cases role with
      | expr => exact if_pos (Option.isSome_of_eq_some refers)
      | _ => cases refers
  | _ => cases refers

theorem searches_iff :
    t.Searches bs above way u ↔
      (way = above ∧ u = t) ∨
        ∃ p ∈ t.searched bs, p.2.Searches bs (⟨t, p.1⟩ :: above) way u := by
  constructor
  · intro searches
    induction searches with
    | here => exact .inl ⟨rfl, rfl⟩
    | part _ mem ih =>
        obtain ⟨rfl, rfl⟩ | ⟨p, isPart, inside⟩ := ih
        · exact .inr ⟨_, mem, .here⟩
        · exact .inr ⟨p, isPart, inside.part mem⟩
  · rintro (⟨rfl, rfl⟩ | ⟨p, isPart, inside⟩)
    · exact .here
    · induction inside with
      | here => exact .part .here isPart
      | part _ mem ih => exact ih.part mem

theorem Searches.holds (searches : t.Searches bs above way u) : t.Holds above way u := by
  induction searches with
  | here => exact .here
  | part _ mem ih => exact ih.part (searched_subset _ _ mem)

theorem referencesList_eq_flatMap (bs : Bindings) (c : Context) (place : Place)
    (ts : List Tree) :
    referencesList bs (c.into place) ts =
      (ts.map (place, ·)).flatMap fun p => references bs (c.into p.1) p.2 := by
  induction ts with
  | nil => rfl
  | cons t rest ih => rw [referencesList, ih, List.map_cons, List.flatMap_cons]

theorem references_paren_of_ne {role : Role} (other : role ≠ .expr) (c : Context) (span : Span)
    (inner : Tree) :
    references bs c (.paren role span inner) = references bs (c.enter role span) inner := by
  cases role with
  | expr => exact absurd rfl other
  | _ => rfl

theorem references_member_of_ne {role : Role} (other : role ≠ .expr) (c : Context) (span : Span)
    (object property : Tree) :
    references bs c (.member role span object property) =
      references bs (c.enter role span) object ++ references bs (c.enter role span) property := by
  cases role with
  | expr => exact absurd rfl other
  | _ => rfl

theorem searched_member_of_ne {role : Role} (other : role ≠ .expr) (span : Span)
    (object property : Tree) :
    (Tree.member role span object property).searched bs =
      [(.object, object), (.other, property)] := by
  cases role with
  | expr => exact absurd rfl other
  | _ => rfl

namespace RecordCase

variable {c d : Context} {rs : List Reference} {p q : Place × Tree}

theorem one (same : d.atRoot = c.atRoot) (unread : t.isRead bs = false)
    (uncalled : t.isMockCall bs = false) (searched : t.searched bs = [p])
    (recorded : rs = references bs (d.into p.1) p.2) : RecordCase bs c t rs := by
  refine .parts same unread uncalled ?_
  rw [recorded, searched, List.flatMap_singleton]

theorem two (same : d.atRoot = c.atRoot) (unread : t.isRead bs = false)
    (uncalled : t.isMockCall bs = false) (searched : t.searched bs = [p, q])
    (recorded : rs = references bs (d.into p.1) p.2 ++ references bs (d.into q.1) q.2) :
    RecordCase bs c t rs := by
  refine .parts same unread uncalled ?_
  rw [recorded, searched, List.flatMap_cons, List.flatMap_singleton]

end RecordCase

theorem recordCase (bs : Bindings) (c : Context) (t : Tree) :
    RecordCase bs c t (references bs c t) := by
  have entered (role : Role) (span : Span) : (c.enter role span).atRoot = c.atRoot := by
    cases role <;> rfl
  have list (d : Context) (place : Place) (ts : List Tree) :=
    referencesList_eq_flatMap bs d place ts
  cases t with
  | absent | leaf _ | context _ | name _ _ | string _ => exact .parts rfl rfl rfl rfl
  | ident role id =>
      cases role with
      | expr =>
          cases named : bs.named? id.var with
          | none =>
              simp only [references, named]
              exact .parts rfl (by rw [isRead, named]; rfl) rfl rfl
          | some b =>
              simp only [references, named]
              exact .reference _ named
      | _ => exact .parts rfl rfl rfl rfl
  | shorthand id =>
      cases named : bs.named? id.var with
      | none =>
          simp only [references, named]
          exact .parts rfl (by rw [isRead, named]; rfl) rfl rfl
      | some b =>
          simp only [references, named]
          exact .shorthand _ named
  | exportNamed span specifiers source typeOnly attributes =>
      cases source with
      | some _ => exact .parts rfl rfl rfl rfl
      | none => exact .exported span specifiers typeOnly attributes
  | paren role span inner =>
      by_cases expr : role = .expr
      · subst expr
        cases call : bs.call? inner with
        | none =>
            simp only [references, call]
            exact .one (d := c.within span) rfl rfl rfl rfl rfl
        | some m =>
            simp only [references, call]
            exact .enclosed span _ call rfl
      · exact .one (entered role span) rfl rfl rfl (references_paren_of_ne expr c span inner)
  | member role span object property =>
      by_cases expr : role = .expr
      · subst expr
        cases star : bs.member? object property with
        | some b =>
            simp only [references, star]
            exact .reference _ star
        | none =>
            cases call : bs.call? object with
            | none =>
                simp only [references, star, call]
                exact .two (d := c.within span) rfl (by rw [isRead, star]; rfl) rfl
                  (by rw [searched, star]; rfl) rfl
            | some m =>
                simp only [references, star, call]
                exact .accessed span _ star call rfl rfl
      · exact .two (entered role span) (by cases role <;> first | rfl | exact absurd rfl expr) rfl
          (searched_member_of_ne expr span object property)
          (references_member_of_ne expr c span object property)
  | call span ctxt callee args typeArgs =>
      cases isCallee : bs.callee? callee with
      | some b =>
          simp only [references, isCallee]
          exact .called ctxt args typeArgs _ isCallee rfl
      | none =>
          have all : (Tree.call span ctxt callee args typeArgs).searched bs =
              (.callee, callee) :: (args.map (.other, ·) ++ [(.other, typeArgs)]) := by
            rw [searched, isCallee]
            rfl
          refine .parts (d := c.within span) rfl rfl (by rw [isMockCall, isCallee]; rfl) ?_
          simp only [references, isCallee]
          rw [all, List.flatMap_cons, List.flatMap_append, List.flatMap_singleton,
            ← list (c.within span) .other args, ← List.append_assoc]
          rfl
  | declarator span target init definite =>
      cases call : bs.call? init with
      | some m =>
          simp only [references, call]
          exact .declared span definite _ call rfl rfl
      | none =>
          simp only [references, call]
          exact .two (d := c.within span) rfl rfl rfl rfl rfl
  | items ts => exact .parts (d := c) rfl rfl rfl (list c .other ts)
  | «variables» role span _ _ _ ts | node role _ span ts =>
      exact .parts (entered role span) rfl rfl (list (c.enter role span) .other ts)
  | moduleBlock _ ts => exact .parts (d := c) rfl rfl rfl (list c .scoped ts)
  | scope role _ span outer inner =>
      refine .parts (entered role span) rfl rfl ?_
      change _ = (outer.map (Place.other, ·) ++ inner.map (Place.scoped, ·)).flatMap _
      rw [references, List.flatMap_append, ← list, ← list]
      rfl
  | objectPattern _ properties _ typing =>
      refine .parts (d := c) rfl rfl rfl ?_
      change _ = (properties.map (Place.other, ·) ++ [(Place.other, typing)]).flatMap _
      rw [references, List.flatMap_append, ← list, List.flatMap_singleton]
      rfl
  | binding _ inner | arg _ inner => exact .one (d := c) rfl rfl rfl rfl rfl
  | importDecl span _ _ _ inner _ | exportDecl span inner =>
      exact .one (d := c.within span) rfl rfl rfl rfl rfl
  | patternShorthand _ _ _ _ | patternPair _ _ => exact .two (d := c) rfl rfl rfl rfl rfl
  | pair key value =>
      exact .two (d := c.within (key.span.cover value.span)) rfl rfl rfl rfl rfl
  | getter span key _ body => exact .two (d := c.within span) rfl rfl rfl rfl rfl

end

end Tree

/-- What the second reference says of the mention that it stands for, at the end of the way, the
first one says as well, apart from how it is used. -/
structure Reference.Answers (r : Reference) (way : Way) (q : Reference) : Prop where
  binding : r.binding = q.binding
  span : r.span = q.span
  atRoot : r.atRoot = true ↔ way.AtRoot

namespace Context.Matches

variable {c d : Context} {above : Way}

theorem of_same (matched : c.Matches above) (same : d.atRoot = c.atRoot) : d.Matches above := by
  rw [Matches, same]
  exact matched

theorem into (matched : c.Matches above) (parent : Tree) (place : Place) :
    (c.into place).Matches (⟨parent, place⟩ :: above) := by
  by_cases below : place = .scoped
  · subst below
    exact .below c parent
  · rw [Context.into, if_neg below]
    exact matched.step parent below

end Context.Matches

namespace Tree

variable {bs : Bindings} {above way : Way} {t u : Tree} {q : Reference}

theorem mem_referencesList {c : Context} {r : Reference} {ts : List Tree} (mem : t ∈ ts)
    (isReference : r ∈ references bs c t) : r ∈ referencesList bs c ts := by
  induction ts with
  | nil => cases mem
  | cons u rest ih =>
      rw [referencesList, List.mem_append]
      obtain rfl | later := List.mem_cons.mp mem
      · exact .inl isReference
      · exact .inr (ih later)

theorem eq_paren_of_enclosed (mem : (Place.enclosed, u) ∈ t.parts) :
    ∃ role span, t = .paren role span u := by
  cases t with
  | paren role span inner =>
      obtain ⟨-, rfl⟩ := List.mem_singleton.mp mem
      exact ⟨role, span, rfl⟩
  | _ => simp [parts] at mem

theorem eq_call_of_callee (mem : (Place.callee, u) ∈ t.parts) :
    ∃ span ctxt args typeArgs, t = .call span ctxt u args typeArgs := by
  cases t with
  | call span ctxt callee args typeArgs =>
      obtain ⟨-, rfl⟩ | later := List.mem_cons.mp mem
      · exact ⟨span, ctxt, args, typeArgs, rfl⟩
      · simp at later
  | _ => simp [parts] at mem

/-- A part that is called stands in the parentheses of one that is called. -/
theorem caller?_of_mem_searched {p : Place × Tree} (mem : p ∈ t.searched bs)
    (uncalled : t.isMockCall bs = false) (loose : (bs.callee? t).isSome → above.caller? = none)
    (isCallee : (bs.callee? p.2).isSome) : Way.caller? (⟨t, p.1⟩ :: above) = none := by
  have isPart := searched_subset bs t mem
  obtain ⟨place, u⟩ := p
  cases place with
  | enclosed =>
      obtain ⟨role, span, rfl⟩ := eq_paren_of_enclosed isPart
      exact loose isCallee
  | callee =>
      obtain ⟨span, ctxt, args, typeArgs, rfl⟩ := eq_call_of_callee isPart
      exact absurd isCallee (Bool.eq_false_iff.mp uncalled)
  | _ => exact Way.caller?_of_loose _ _ (by simp)

theorem callee?_of_reference? {b : Nat} (refers : bs.reference? t = some b) :
    (bs.callee? t).isSome := by
  cases t <;> first | exact Option.isSome_of_eq_some refers | cases refers

theorem Recorded.of_reference? {b : Nat} (refers : bs.reference? t = some b)
    (recorded : t.Recorded bs way q) : q.binding = b ∧
      (way.caller? = none ∧ q.span = t.span ∨
        ∃ args rest, way.caller? = some (q.span, args, rest)) := by
  cases recorded with
  | shorthand _ _ => cases refers
  | exported _ _ _ _ _ _ => cases refers
  | uncalled _ refers' uncalled =>
      exact ⟨Option.some.inj (refers'.symm.trans refers), .inl ⟨uncalled, rfl⟩⟩
  | called _ refers' called _ =>
      exact ⟨Option.some.inj (refers'.symm.trans refers), .inr ⟨_, _, called⟩⟩

/-- Where a callee stands, its call is recorded. -/
theorem recorded_of_callee? {b : Nat} (isCallee : bs.callee? t = some b) {span : Span}
    {args : List Tree} {rest : Way} (called : above.caller? = some (span, args, rest))
    (searches : t.Searches bs above way u) (recorded : u.Recorded bs way q) :
    q.binding = b ∧ q.span = span ∧ (way.AtRoot ↔ above.AtRoot) := by
  fun_induction Bindings.callee? bs t generalizing above with
  | case1 role at_ inner ih =>
      obtain ⟨rfl, rfl⟩ | ⟨p, mem, inside⟩ := searches_iff.mp searches
      · cases recorded.isRead
      · obtain rfl := List.mem_singleton.mp mem
        have called' : Way.caller? (⟨.paren role at_ inner, .enclosed⟩ :: above) =
            some (span, args, rest) := called
        obtain ⟨binding, own, atRoot⟩ := ih isCallee called' inside
        exact ⟨binding, own, atRoot.trans (Way.atRoot_of_open _ (by decide))⟩
  | case2 t _ =>
      have refers : bs.reference? t = some b := isCallee
      obtain ⟨rfl, rfl⟩ | ⟨p, mem, -⟩ := searches_iff.mp searches
      · obtain ⟨binding, ⟨uncalled, -⟩ | ⟨args', rest', called'⟩⟩ := recorded.of_reference? refers
        · cases uncalled.symm.trans called
        · obtain ⟨own, -⟩ := Prod.mk.inj (Option.some.inj (called'.symm.trans called))
          exact ⟨binding, own, Iff.rfl⟩
      · rw [searched_of_reference? refers] at mem
        cases mem

/-- Every mention that the search comes to is recorded, or belongs to the mock call itself. -/
structure Covered (bs : Bindings) (t : Tree) : Prop where
  whole : ∀ {above : Way} {c : Context}, c.Matches above →
    ((bs.callee? t).isSome → above.caller? = none) → ∀ {way : Way} {u : Tree} {q : Reference},
      t.Searches bs above way u → u.Recorded bs way q →
        ∃ r ∈ references bs c t, r.Answers way q
  arguments : ∀ {above : Way} {c : Context} {m : MockCall}, bs.call? t = some m →
    c.Matches above → ∀ {way : Way} {u : Tree} {q : Reference},
      t.Searches bs above way u → u.Recorded bs way q →
        (q.binding = m.binding ∧ q.span = m.span ∧ (way.AtRoot ↔ above.AtRoot)) ∨
          ∃ r ∈ argReferences bs c t, r.Answers way q

/-- A mock call is recorded first, then what its arguments hold. -/
theorem answers_of_call {c : Context} {m : MockCall} {rs : List Reference}
    (matched : c.Matches above) (usage : Usage)
    (answered : (q.binding = m.binding ∧ q.span = m.span ∧ (way.AtRoot ↔ above.AtRoot)) ∨
      ∃ r ∈ rs, r.Answers way q) :
    ∃ r ∈ c.record m.binding m.span usage :: rs, r.Answers way q := by
  obtain ⟨own, at_, atRoot⟩ | ⟨r, isReference, answers⟩ := answered
  · exact ⟨_, List.mem_cons_self, own.symm, at_.symm, matched.trans atRoot.symm⟩
  · exact ⟨r, List.mem_cons_of_mem _ isReference, answers⟩

theorem covered (bs : Bindings) (t : Tree) : Covered bs t := by
  induction t using parts_induction with
  | step t ih =>
      have part {p : Place × Tree} (mem : p ∈ t.searched bs) : Covered bs p.2 :=
        ih p (searched_subset bs t mem)
      -- Unless the tree is the mention itself, it stands in a part that is searched.
      have below {above way : Way} {u : Tree} {q : Reference} (unread : t.isRead bs = false)
          (searches : t.Searches bs above way u) (recorded : u.Recorded bs way q) :
          ∃ p ∈ t.searched bs, p.2.Searches bs (⟨t, p.1⟩ :: above) way u := by
        refine (searches_iff.mp searches).resolve_left ?_
        rintro ⟨rfl, rfl⟩
        rw [recorded.isRead] at unread
        cases unread
      have arguments {above : Way} {c : Context} {m : MockCall} (found : bs.call? t = some m)
          (matched : c.Matches above) {way : Way} {u : Tree} {q : Reference}
          (searches : t.Searches bs above way u) (recorded : u.Recorded bs way q) :
          (q.binding = m.binding ∧ q.span = m.span ∧ (way.AtRoot ↔ above.AtRoot)) ∨
            ∃ r ∈ argReferences bs c t, r.Answers way q := by
        cases t with
        | paren role span inner =>
            obtain ⟨p, mem, inside⟩ := below rfl searches recorded
            have covered := part mem
            obtain rfl := List.mem_singleton.mp mem
            have outer : Way.AtRoot (⟨.paren role span inner, .enclosed⟩ :: above) ↔
                above.AtRoot := Way.atRoot_of_open above (by decide)
            refine (covered.arguments found (matched.step _ (by simp)) inside recorded).imp_left ?_
            rintro ⟨own, at_, atRoot⟩
            exact ⟨own, at_, atRoot.trans outer⟩
        | call span ctxt callee args typeArgs =>
            obtain ⟨b, isCallee, rfl⟩ := Option.map_eq_some_iff.mp found
            obtain ⟨p, mem, inside⟩ := below rfl searches recorded
            have covered := part mem
            rw [searched, isCallee, Option.isSome_some, if_pos rfl, List.append_nil] at mem
            obtain rfl | isArg := List.mem_cons.mp mem
            · have outer : Way.AtRoot (⟨.call span ctxt callee args typeArgs, .callee⟩ :: above) ↔
                  above.AtRoot := Way.atRoot_of_open above (by decide)
              obtain ⟨own, at_, atRoot⟩ := recorded_of_callee? isCallee rfl inside recorded
              exact .inl ⟨own, at_, atRoot.trans outer⟩
            · obtain ⟨arg, inArgs, rfl⟩ := List.mem_map.mp isArg
              obtain ⟨r, isReference, answers⟩ := covered.whole (matched.step _ (by simp))
                (fun _ => Way.caller?_of_loose _ _ (by simp)) inside recorded
              exact .inr ⟨r, mem_referencesList inArgs isReference, answers⟩
        | _ => cases found
      refine ⟨fun {above c} matched loose {way u q} searches recorded => ?_, arguments⟩
      have kept := recordCase bs c t
      generalize references bs c t = rs at kept ⊢
      cases kept with
      | @parts _ _ d same unread uncalled all =>
          obtain ⟨p, mem, inside⟩ := below unread searches recorded
          obtain ⟨r, isReference, answers⟩ := (part mem).whole
            ((matched.of_same same).into t p.1) (caller?_of_mem_searched mem uncalled loose) inside
              recorded
          exact ⟨r, all ▸ List.mem_flatMap.mpr ⟨p, mem, isReference⟩, answers⟩
      | reference usage refers =>
          obtain ⟨rfl, rfl⟩ | ⟨p, mem, -⟩ := searches_iff.mp searches
          · obtain ⟨own, ⟨-, at_⟩ | ⟨_, _, called⟩⟩ := recorded.of_reference? refers
            · exact ⟨_, List.mem_singleton_self _, own.symm, at_.symm, matched⟩
            · rw [loose (callee?_of_reference? refers)] at called
              cases called
          · rw [searched_of_reference? refers] at mem
            cases mem
      | shorthand usage bound =>
          obtain ⟨rfl, rfl⟩ | ⟨p, mem, -⟩ := searches_iff.mp searches
          · cases recorded with
            | shorthand _ bound' =>
                exact ⟨_, List.mem_singleton_self _,
                  Option.some.inj (bound.symm.trans bound'), rfl, matched⟩
            | uncalled _ refers _ => cases refers
            | called _ refers _ _ => cases refers
          · cases mem
      | exported span specifiers typeOnly attributes =>
          obtain ⟨rfl, rfl⟩ | ⟨p, mem, -⟩ := searches_iff.mp searches
          · cases recorded with
            | @exported _ s subject _ _ b _ _ _ _ mem bound =>
                refine ⟨c.record b subject.span (.error s), List.mem_flatMap.mpr ⟨_, mem, ?_⟩,
                  rfl, rfl, matched⟩
                simp only [ExportSpecifier.references, bound, List.mem_singleton]
            | uncalled _ refers _ => cases refers
            | called _ refers _ _ => cases refers
          · cases mem
      | enclosed span usage found same =>
          exact answers_of_call matched usage
            (arguments found (matched.of_same same) searches recorded)
      | called ctxt args typeArgs usage isCallee same =>
          exact answers_of_call matched usage (arguments
            (Option.map_eq_some_iff.mpr ⟨_, isCallee, rfl⟩) (matched.of_same same) searches recorded)
      | accessed span usage unread found same same' =>
          obtain ⟨p, mem, inside⟩ := below (by rw [isRead, unread]; rfl) searches recorded
          have covered := part mem
          rw [searched, unread] at mem
          obtain rfl | mem := List.mem_cons.mp mem
          · obtain ⟨r, isReference, answers⟩ := answers_of_call (matched.step _ (by simp)) usage
              (covered.arguments found ((matched.of_same same).step _ (by simp)) inside recorded)
            exact ⟨r, List.mem_append_left _ isReference, answers⟩
          · obtain rfl := List.mem_singleton.mp mem
            obtain ⟨r, isReference, answers⟩ := covered.whole
              ((matched.of_same same').step _ (by simp))
              (fun _ => Way.caller?_of_loose _ _ (by simp)) inside recorded
            exact ⟨r, List.mem_append_right _ isReference, answers⟩
      | declared span definite usage found same same' =>
          obtain ⟨p, mem, inside⟩ := below rfl searches recorded
          have covered := part mem
          obtain rfl | mem := List.mem_cons.mp mem
          · obtain ⟨r, isReference, answers⟩ := covered.whole
              ((matched.of_same same).step _ (by simp))
              (fun _ => Way.caller?_of_loose _ _ (by simp)) inside recorded
            exact ⟨r, List.mem_cons_of_mem _ (List.mem_append_left _ isReference), answers⟩
          · obtain rfl := List.mem_singleton.mp mem
            obtain ⟨r, isReference, answers⟩ := answers_of_call (matched.step _ (by simp)) usage
              (covered.arguments found ((matched.of_same same').step _ (by simp)) inside recorded)
            refine ⟨r, List.mem_cons.mpr ?_, answers⟩
            exact (List.mem_cons.mp isReference).imp_right (List.mem_append_right _)

end Tree

namespace Module

variable {m : Module} {bs : Bindings} {way : Way} {t : Tree}

/-- The search for references in the module comes to the node. -/
def Searches (bs : Bindings) (m : Module) (way : Way) (t : Tree) : Prop :=
  ∃ item ∈ m.body, item.Searches bs [] way t

/-- Whatever the search comes to is recorded. -/
theorem recorded_of_searches (searches : m.Searches bs way t) {q : Reference}
    (recorded : t.Recorded bs way q) : ∃ r ∈ m.references bs, r.Answers way q := by
  obtain ⟨item, isItem, searches⟩ := searches
  obtain ⟨r, isReference, answers⟩ := (Tree.covered bs item).whole
    Context.Fits.root.atRoot (fun _ => rfl) searches recorded
  exact ⟨r, Tree.mem_referencesList isItem isReference, answers⟩

end Module

end MockImport
