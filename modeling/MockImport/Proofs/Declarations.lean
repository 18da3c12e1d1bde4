import MockImport.Proofs.Assembly
import MockImport.Proofs.Parts

/-!
What becomes of variable declarations that consist of call sites only. Settling takes
all their declarators, and what is left of them is dropped where module items stand,
exported or not. Anywhere else a declaration is left that declares nothing.
-/

namespace MockImport

namespace Tree

/-- A variable declaration without declarators. -/
def declaresNothing : Tree → Bool
  | .variables _ _ _ _ _ [] => true
  | _ => false

/-- Every variable declaration in the tree declares something. -/
def Whole (t : Tree) : Prop := ∀ way u, t.Holds [] way u → u.declaresNothing = false

/-- A variable declaration all of whose declarators are call sites. -/
def OnlySites (bs : Bindings) : Tree → Prop
  | .variables _ _ _ _ _ declarators => ∀ t ∈ declarators, t.isDeclaratorSite bs = true
  | _ => False

end Tree

namespace Way

def InDeclaration : Way → Prop
  | ⟨.variables .., _⟩ :: _ => True
  | _ => False

/-- Settling comes here: no call site is on the way. -/
def Entered (bs : Bindings) : Way → Prop
  | [] => True
  | ⟨t, _⟩ :: rest =>
      t.isAccessSite bs = false ∧ ¬ (t.isDeclaratorSite bs = true ∧ InDeclaration rest) ∧
        Entered bs rest

/-- Module items stand here. -/
def AtTop : Way → Prop
  | [] | ⟨.moduleBlock .., _⟩ :: _ => True
  | _ => False

/-- A declaration that stands here is a module item, or what one exports. -/
def AtItem : Way → Prop
  | ⟨.exportDecl .., _⟩ :: rest => AtTop rest
  | way => AtTop way

theorem AtTop.atItem {way : Way} (top : way.AtTop) : way.AtItem := by
  unfold AtItem
  split
  · cases top
  · exact top

end Way

namespace Tree

theorem whole_iff {t : Tree} :
    t.Whole ↔ t.declaresNothing = false ∧ ∀ p ∈ t.parts, p.2.Whole := by
  constructor
  · intro whole
    refine ⟨whole _ _ .here, fun p mem way u holds => ?_⟩
    obtain ⟨way', holds'⟩ := holds.elsewhere [⟨t, p.1⟩]
    exact whole way' u (holds_iff.mpr (.inr ⟨p, mem, holds'⟩))
  · rintro ⟨declares, parts⟩ way u holds
    obtain ⟨rfl, rfl⟩ | ⟨p, mem, inside⟩ := holds_iff.mp holds
    · exact declares
    · obtain ⟨way', holds'⟩ := inside.elsewhere []
      exact parts p mem way' u holds'

mutual

/-- Checks every variable declaration of a tree. -/
def isWhole : Tree → Bool
  | .absent | .leaf _ | .context _ | .ident _ _ | .name _ _ | .string _ | .shorthand _ => true
  | .items trees => areWhole trees
  | .binding _ typing => isWhole typing
  | .paren _ _ inner => isWhole inner
  | .member _ _ object property => isWhole object && isWhole property
  | .call _ _ callee args typeArgs => isWhole callee && (areWhole args && isWhole typeArgs)
  | .arg _ value => isWhole value
  | .variables _ _ _ _ _ declarators => !declarators.isEmpty && areWhole declarators
  | .declarator _ target init _ => isWhole target && isWhole init
  | .objectPattern _ properties _ typing => areWhole properties && isWhole typing
  | .patternShorthand _ _ typing value => isWhole typing && isWhole value
  | .patternPair key value | .pair key value => isWhole key && isWhole value
  | .getter _ key typing body => isWhole key && (isWhole typing && isWhole body)
  | .importDecl _ _ _ _ attributes _ => isWhole attributes
  | .exportNamed _ _ _ _ attributes => isWhole attributes
  | .exportDecl _ declaration => isWhole declaration
  | .scope _ _ _ outer inner => areWhole outer && areWhole inner
  | .moduleBlock _ body => areWhole body
  | .node _ _ _ fields => areWhole fields

def areWhole : List Tree → Bool
  | [] => true
  | t :: rest => isWhole t && areWhole rest

end

theorem areWhole_eq_all (ts : List Tree) : areWhole ts = ts.all isWhole := by
  induction ts with
  | nil => rfl
  | cons t rest ih => rw [areWhole, ih, List.all_cons]

theorem isWhole_eq (t : Tree) :
    t.isWhole = (!t.declaresNothing && t.parts.all (·.2.isWhole)) := by
  cases t with
  | «variables» _ _ _ _ _ ts =>
      cases ts <;> simp [isWhole, declaresNothing, parts, areWhole_eq_all, Function.comp_def]
  | _ => simp [isWhole, declaresNothing, parts, areWhole_eq_all, Function.comp_def]

theorem isWhole_iff (t : Tree) : t.isWhole = true ↔ t.Whole := by
  induction t using parts_induction with
  | step t ih =>
    rw [isWhole_eq, whole_iff, Bool.and_eq_true, Bool.not_eq_true', List.all_eq_true]
    exact and_congr_right fun _ => forall₂_congr ih

instance (t : Tree) : Decidable t.Whole := decidable_of_iff _ t.isWhole_iff

variable {bs : Bindings} {above way : Way} {t u : Tree}

/-- Wherever a declaration of call sites only is settled, what is left of it is dropped. -/
def Tidy (bs : Bindings) (above : Way) (t : Tree) : Prop :=
  ∀ way u, t.Holds above way u → u.OnlySites bs → way.Entered bs → way.AtItem

theorem tidy_iff :
    t.Tidy bs above ↔ (t.OnlySites bs → above.Entered bs → above.AtItem) ∧
      ∀ p ∈ t.parts, p.2.Tidy bs (⟨t, p.1⟩ :: above) := by
  constructor
  · intro tidy
    exact ⟨tidy _ _ .here, fun p mem way u inside =>
      tidy way u (holds_iff.mpr (.inr ⟨p, mem, inside⟩))⟩
  · rintro ⟨here, parts⟩ way u holds
    obtain ⟨rfl, rfl⟩ | ⟨p, mem, inside⟩ := holds_iff.mp holds
    · exact here
    · exact parts p mem way u inside

theorem tidy_iff_of_quiet (quiet : ¬ t.OnlySites bs) :
    t.Tidy bs above ↔ ∀ p ∈ t.parts, p.2.Tidy bs (⟨t, p.1⟩ :: above) :=
  tidy_iff.trans (and_iff_right fun only => absurd only quiet)

theorem Holds.entered (holds : t.Holds above way u) (entered : way.Entered bs) :
    above.Entered bs := by
  induction holds with
  | here => exact entered
  | part _ _ ih => exact ih entered.2.2

/-- Nothing is settled below a call site. -/
theorem tidy_of_not_entered (barred : ¬ above.Entered bs) : t.Tidy bs above :=
  fun _ _ holds _ entered => absurd (holds.entered entered) barred

/-- What settling leaves at a place is whole, or it is dropped there. -/
def InOrder (above : Way) (t : Tree) : Prop :=
  t.Whole ∨ above.AtTop ∧ t.isEmptied = true ∨ above.AtItem ∧ t.declaresNothing = true

theorem isEmptied_of_declaresNothing (nothing : t.declaresNothing = true) :
    t.isEmptied = true := by
  unfold declaresNothing at nothing
  split at nothing
  · rfl
  · cases nothing

theorem isEmptied_exportDecl (span : Span) (t : Tree) :
    (exportDecl span t).isEmptied = t.declaresNothing := by
  cases t with
  | «variables» _ _ _ _ _ ts => cases ts <;> rfl
  | _ => rfl

theorem isEmptied_eq_false_iff : t.isEmptied = false ↔ t.declaresNothing = false ∧
    ∀ span declaration, t = .exportDecl span declaration → declaration.declaresNothing = false := by
  cases t with
  | «variables» _ _ _ _ _ ts => cases ts <;> simp [isEmptied, declaresNothing]
  | exportDecl span declaration => simp [isEmptied_exportDecl, declaresNothing]
  | _ => simp [isEmptied, declaresNothing]

end Tree

private theorem forall_iff_of_forall₂ {α β : Type} {R : α → β → Prop} {p : α → Prop}
    {q : β → Prop} {as : List α} {bs : List β} (related : List.Forall₂ R as bs)
    (each : ∀ a ∈ as, ∀ b, R a b → (q b ↔ p a)) : (∀ b ∈ bs, q b) ↔ ∀ a ∈ as, p a := by
  induction related with
  | nil => exact iff_of_true (List.forall_mem_nil _) (List.forall_mem_nil _)
  | cons here _ ih =>
      obtain ⟨head, rest⟩ := List.forall_mem_cons.mp each
      rw [List.forall_mem_cons, List.forall_mem_cons, head _ here, ih rest]

namespace Tree

variable {bs : Bindings} {above : Way} {t u : Tree}

theorem inOrder_iff_of_keepsParts (keeps : u.keepsParts = true) :
    u.InOrder above ↔ ∀ p ∈ u.parts, p.2.Whole := by
  have declares : u.declaresNothing = false ∧ u.isEmptied = false := by
    cases u <;> first | exact ⟨rfl, rfl⟩ | cases keeps
  rw [InOrder, declares.1, declares.2, whole_iff, declares.1]
  simp

theorem inOrder_below (inside : ¬ above.AtTop ∧ ¬ above.AtItem) : u.InOrder above ↔ u.Whole := by
  simp only [InOrder, inside.1, inside.2, false_and, or_false]

theorem inOrder_exportDecl (span span' : Span) (t : Tree) (place : Place) :
    (exportDecl span u).InOrder above ↔ u.InOrder (⟨.exportDecl span' t, place⟩ :: above) := by
  have wholes : (exportDecl span u).Whole ↔ u.Whole := by
    rw [whole_iff]
    simp [parts, declaresNothing]
  simp [InOrder, wholes, isEmptied_exportDecl, declaresNothing, Way.AtTop, Way.AtItem]

theorem inOrder_at_top (top : above.AtTop) :
    u.InOrder above ↔ (u.isEmptied = false → u.Whole) := by
  cases emptied : u.isEmptied with
  | true => exact iff_of_true (.inr (.inl ⟨top, emptied⟩)) (fun kept => by cases kept)
  | false =>
      have declares : u.declaresNothing = false := Bool.eq_false_iff.mpr fun nothing => by
        rw [isEmptied_of_declaresNothing nothing] at emptied
        cases emptied
      simp [InOrder, emptied, declares]

/-- Dropping what is emptied puts a list of module items in order. -/
theorem forall_inOrder_iff (top : above.AtTop) (us : List Tree) :
    (∀ u ∈ us, u.InOrder above) ↔ ∀ u ∈ us.filter (!·.isEmptied), u.Whole := by
  simp [inOrder_at_top top]

theorem inOrder_moduleBlock (span span' : Span) (ts us : List Tree) (place : Place) :
    (moduleBlock span (us.filter (!·.isEmptied))).InOrder above ↔
      ∀ u ∈ us, u.InOrder (⟨.moduleBlock span' ts, place⟩ :: above) := by
  have wholes (body : List Tree) : (moduleBlock span body).Whole ↔ ∀ u ∈ body, u.Whole := by
    rw [whole_iff, parts, List.forall_mem_map]
    exact and_iff_right rfl
  have top : Way.AtTop (⟨.moduleBlock span' ts, place⟩ :: above) := trivial
  rw [forall_inOrder_iff top, InOrder, wholes]
  exact or_iff_left (by rintro (⟨-, ⟨⟩⟩ | ⟨-, ⟨⟩⟩))

theorem inOrder_variables (role : Role) (span : Span) (ctxt : Nat) (kind : String)
    (declare : Bool) (us : List Tree) :
    (.variables role span ctxt kind declare us : Tree).InOrder above ↔
      (us = [] → above.AtItem) ∧ ∀ u ∈ us, u.Whole := by
  rw [InOrder, whole_iff]
  cases us with
  | nil => simp [isEmptied, declaresNothing, parts]; exact fun top => top.atItem
  | cons u rest => simp [isEmptied, declaresNothing, parts]

/-- A declarator that is a call site is dropped as a whole. -/
theorem tidy_of_isDeclaratorSite (site : t.isDeclaratorSite bs = true)
    (declared : above.InDeclaration) : t.Tidy bs above := by
  rw [tidy_iff_of_quiet (by cases t <;> first | exact id | cases site)]
  exact fun p _ => tidy_of_not_entered fun entered => entered.2.1 ⟨site, declared⟩

theorem tidy_of_isAccessSite (site : t.isAccessSite bs = true) : t.Tidy bs above := by
  rw [tidy_iff_of_quiet (by cases t <;> first | exact id | cases site)]
  exact fun p _ => tidy_of_not_entered fun entered => Bool.false_ne_true (entered.1 ▸ site)

theorem tidy_variables_iff (role : Role) (span : Span) (ctxt : Nat) (kind : String)
    (declare : Bool) (ts : List Tree) :
    (.variables role span ctxt kind declare ts : Tree).Tidy bs above ↔
      (ts.filter (!·.isDeclaratorSite bs) = [] → above.Entered bs → above.AtItem) ∧
        ∀ t ∈ ts.filter (!·.isDeclaratorSite bs),
          t.Tidy bs (⟨.variables role span ctxt kind declare ts, .other⟩ :: above) := by
  have only : ts.filter (!·.isDeclaratorSite bs) = [] ↔
      ∀ t ∈ ts, t.isDeclaratorSite bs = true := by
    simp [List.filter_eq_nil_iff]
  rw [tidy_iff, only, parts, List.forall_mem_map]
  refine and_congr_right fun _ => ⟨fun tidy t mem => tidy t (List.mem_of_mem_filter mem), ?_⟩
  intro tidy t mem
  cases site : t.isDeclaratorSite bs with
  | true => exact tidy_of_isDeclaratorSite site trivial
  | false => exact tidy t (List.mem_filter.mpr ⟨mem, by rw [site]; rfl⟩)

/-- A place is in order after settling just when the tree that stood there was tidy. -/
theorem inOrder_iff_tidy (t : Tree) {u : Tree} {above : Way} (settled : t.Settled bs u)
    (whole : t.Whole) (entered : above.Entered bs)
    (stays : ¬ (t.isDeclaratorSite bs = true ∧ above.InDeclaration)) :
    u.InOrder above ↔ t.Tidy bs above := by
  induction t using parts_induction generalizing u above with
  | step t ih =>
    have part {u : Tree} (p : Place × Tree) (mem : p ∈ t.parts) (settled : p.2.Settled bs u)
        (noSite : t.isAccessSite bs = false)
        (kept : ¬ (p.2.isDeclaratorSite bs = true ∧ Way.InDeclaration (⟨t, p.1⟩ :: above))) :
        u.InOrder (⟨t, p.1⟩ :: above) ↔ p.2.Tidy bs (⟨t, p.1⟩ :: above) :=
      ih p mem settled ((whole_iff.mp whole).2 p mem) ⟨noSite, stays, entered⟩ kept
    obtain ⟨actions, rfl⟩ := settled
    have made := settleCase bs t actions
    generalize ((settle bs t).run actions).1 = u at made
    cases made with
    | site access same =>
        refine iff_of_true (.inl ?_) (tidy_of_isAccessSite access)
        obtain rfl | ⟨id, rfl⟩ := same
        · exact whole
        · exact whole_iff.mpr ⟨rfl, List.forall_mem_nil _⟩
    | declaration settled =>
        rw [inOrder_variables, tidy_variables_iff]
        refine and_congr ?_ (forall_iff_of_forall₂ settled fun t mem u settled => ?_)
        · rw [List.eq_nil_iff_length_eq_zero, ← settled.length_eq,
            ← List.eq_nil_iff_length_eq_zero]
          exact ⟨fun dropped only _ => dropped only, fun dropped only => dropped only entered⟩
        · obtain ⟨mem, noSite⟩ := List.mem_filter.mp mem
          rw [← part (.other, t) (List.mem_map_of_mem mem) settled rfl fun both => by
            simp [both.1] at noSite]
          exact (inOrder_below ⟨id, id⟩).symm
    | @exported span t u settled =>
        rw [inOrder_exportDecl span span t .other, tidy_iff_of_quiet id, Tree.parts,
          List.forall_mem_singleton]
        exact part (.other, t) (List.mem_singleton_self _) settled rfl fun both => both.2
    | @block span ts us settled =>
        rw [inOrder_moduleBlock span span ts us .scoped, tidy_iff_of_quiet id, Tree.parts,
          List.forall_mem_map]
        refine forall_iff_of_forall₂ settled fun t mem u settled => ?_
        exact part (.scoped, t) (List.mem_map_of_mem mem) settled rfl fun both => both.2
    | node before after noSite settled =>
        have quiet : ¬ t.OnlySites bs := by cases t <;> first | exact id | cases before
        have inside (place : Place) : (¬ Way.AtTop (⟨t, place⟩ :: above) ∧
            ¬ Way.AtItem (⟨t, place⟩ :: above)) ∧ ¬ Way.InDeclaration (⟨t, place⟩ :: above) := by
          cases t <;> first | exact ⟨⟨id, id⟩, id⟩ | cases before
        rw [inOrder_iff_of_keepsParts after, tidy_iff_of_quiet quiet]
        refine forall_iff_of_forall₂ settled fun p mem q both => ?_
        rw [← inOrder_below (inside p.1).1]
        exact part p mem both.2 noSite fun both => (inside p.1).2 both.2

theorem declaresNothing_rename (r : Renaming) (t : Tree) :
    (rename r t).declaresNothing = t.declaresNothing := by
  cases t with
  | «variables» _ _ _ _ _ ts => cases ts <;> rfl
  | shorthand id =>
      rw [rename, Ident.renameShorthand]
      split <;> rfl
  | exportNamed _ _ source _ _ => cases source <;> rfl
  | _ => rfl

theorem isEmptied_rename (r : Renaming) (t : Tree) : (rename r t).isEmptied = t.isEmptied := by
  cases t with
  | «variables» _ _ _ _ _ ts => cases ts <;> rfl
  | exportDecl span declaration =>
      rw [rename, isEmptied_exportDecl, isEmptied_exportDecl, declaresNothing_rename]
  | shorthand id =>
      rw [rename, Ident.renameShorthand]
      split <;> rfl
  | exportNamed _ _ source _ _ => cases source <;> rfl
  | _ => rfl

/-- Renaming touches no declaration. -/
theorem whole_rename (r : Renaming) (t : Tree) : (rename r t).Whole ↔ t.Whole := by
  induction t using parts_induction with
  | step t ih =>
    rw [whole_iff, whole_iff, declaresNothing_rename]
    refine and_congr_right fun _ => ?_
    obtain parts | ⟨id, rfl⟩ | parts := parts_rename r t
    · rw [parts, List.forall_mem_map]
      exact forall₂_congr ih
    · have whole : (rename r (.shorthand id)).isWhole = true := by
        rw [rename, Ident.renameShorthand]
        split <;> rfl
      exact iff_of_true (whole_iff.mp ((isWhole_iff _).mp whole)).2 (List.forall_mem_nil _)
    · rw [parts]

end Tree

namespace Module

/-- Every variable declaration in the module declares something. -/
def Whole (m : Module) : Prop := ∀ way t, m.Holds way t → t.declaresNothing = false

theorem whole_iff {m : Module} : m.Whole ↔ ∀ t ∈ m.body, t.Whole :=
  ⟨fun whole item mem way t holds => whole way t ⟨item, mem, holds⟩,
    fun wholes way t ⟨item, mem, holds⟩ => wholes item mem way t holds⟩

/-- A declaration of call sites only, settled where what is left of it stays. -/
def Tidy (m : Module) (bs : Bindings) : Prop :=
  ∀ way t, m.Holds way t → t.OnlySites bs → way.Entered bs → way.AtItem

theorem tidy_iff {m : Module} {bs : Bindings} : m.Tidy bs ↔ ∀ t ∈ m.body, t.Tidy bs [] :=
  ⟨fun tidy item mem way t holds => tidy way t ⟨item, mem, holds⟩,
    fun each way t ⟨item, mem, holds⟩ => each item mem way t holds⟩

end Module

/-- A tree without empty declarations that settling can leave alone is tidy. -/
theorem Tree.tidy_of_settled_self {bs : Bindings} {t : Tree} (whole : t.Whole)
    (stays : t.Settled bs t) : t.Tidy bs [] := by
  have same : t.InOrder [] ↔ t.Tidy bs [] :=
    inOrder_iff_tidy t stays whole trivial fun both => both.2
  exact same.mp (.inl whole)

namespace Module

variable {m m' : Module} {source : Option String} {options : Options} {count : Nat}

theorem whole_toTree (i : GeneratedImport) (ctxt : Nat) : (i.toTree ctxt).Whole :=
  (Tree.isWhole_iff _).mp (by cases i <;> rfl)

theorem whole_registration (specifier : String) : (registration specifier).Whole :=
  (Tree.isWhole_iff _).mp rfl

/-- Generated items leave no declaration empty. -/
theorem whole_assemble (whole : m.Whole) (p : Progress) : ∀ t ∈ p.assemble m.body, t.Whole :=
  (Progress.forall_assemble_iff _ _ (fun i _ => whole_toTree i _)
    fun s _ => whole_registration s).mpr (whole_iff.mp whole)

theorem apply_whole_iff (whole : m.Whole) (plan : Plan) (options : Options) :
    (m.apply plan options).Whole ↔ m.Tidy plan.bindings := by
  have wholes := whole_assemble whole (m.progress plan options)
  have settled := Tree.settleList_settled plan.bindings
    ((m.progress plan options).assemble m.body) (m.progress plan options).allActions
  calc (m.apply plan options).Whole
    _ ↔ ∀ t ∈ m.settled plan options, t.Whole := by
      rw [whole_iff, apply, Tree.renameList_eq_map, List.forall_mem_map]
      exact forall₂_congr fun t _ => t.whole_rename _
    _ ↔ ∀ u ∈ ((Tree.settleList plan.bindings ((m.progress plan options).assemble m.body)).run
        (m.progress plan options).allActions).1, u.InOrder [] :=
      Iff.symm (Tree.forall_inOrder_iff (by trivial) _)
    _ ↔ ∀ t ∈ (m.progress plan options).assemble m.body, t.Tidy plan.bindings [] :=
      forall_iff_of_forall₂ settled fun t mem u settled =>
        t.inOrder_iff_tidy settled (wholes t mem) (by trivial) (by exact fun both => both.2)
    _ ↔ ∀ t ∈ m.body, t.Tidy plan.bindings [] :=
      Progress.forall_assemble_iff _ _
        (fun i _ => Tree.tidy_of_settled_self (whole_toTree i _) ⟨[], by cases i <;> rfl⟩)
        fun s _ => Tree.tidy_of_settled_self (whole_registration s) ⟨[], rfl⟩
    _ ↔ m.Tidy plan.bindings := tidy_iff.symm

/-- An expansion leaves a declaration that declares nothing just when it settles the call
sites of a declaration that has no other declarators and is no module item. -/
theorem expand_whole_iff (whole : m.Whole)
    (expanded : m.expand source options = .ok (count, m')) :
    m'.Whole ↔ count = 0 ∨ ∀ way t, m.Holds way t →
      t.OnlySites (.discover m.body) → way.Entered (.discover m.body) → way.AtItem := by
  obtain ⟨plan, ok, rfl, ⟨none, rfl⟩ | ⟨sites, rfl⟩⟩ := expand_cases expanded
  · exact iff_of_true whole (.inl (congrArg List.length none))
  · obtain ⟨-, rfl⟩ := Plan.ofModule_eq_ok_iff.mp ok
    rw [apply_whole_iff whole, or_iff_right (mt List.length_eq_zero_iff.mp sites)]
    rfl

end Module

namespace Sample

/-- `if (ready) var api = mock(import("api")); api.get();` -/
def guarded : Module :=
  ⟨.generated, [importMock,
    .node .stmt .ifStatement .generated [ident "ready",
      .variables .stmt .generated 0 "var" false
        [.declarator .generated (.binding (.generated ⟨"api", 2⟩) .absent) (mocked "api") false],
      .absent],
    statement (.call .generated 0
      (.member .expr .generated (ident "api") (.name .generated "get")) [] .absent)], none⟩

end Sample

namespace Module

theorem expand_whole_iff_plain :
    Sample.plain.Whole ∧ ∃ m', Sample.plain.expand none {} = .ok (3, m') ∧
      (m'.Whole ↔ (3 : Nat) = 0 ∨ ∀ way t, Sample.plain.Holds way t →
        t.OnlySites (.discover Sample.plain.body) →
          way.Entered (.discover Sample.plain.body) → way.AtItem) := by
  have whole : Sample.plain.Whole := whole_iff.mpr (by decide)
  obtain ⟨m', expanded⟩ : ∃ m', Sample.plain.expand none {} = .ok (3, m') := ⟨_, rfl⟩
  exact ⟨whole, m', expanded, expand_whole_iff whole expanded⟩

/-- The body of the `if` is left as a declaration without declarators. -/
theorem guarded_not_whole :
    Sample.guarded.Whole ∧
      ∃ m', Sample.guarded.expand none {} = .ok (1, m') ∧ ¬ m'.Whole := by
  refine ⟨whole_iff.mpr (by decide), _, rfl, ?_⟩
  rw [whole_iff]
  decide

end Module
end MockImport
