import MockImport.Proofs.Declarations

/-!
What a node is besides its parts, and what renaming and settling make of that. A node keeps
its kind, spans, context and flags, and its identifiers and specifiers as far as they hold no
alias; a node without aliases all of whose parts stay is the same tree.
-/

namespace MockImport

def ExportName.vars : ExportName → List Variable
  | .ident id => [id.var]
  | .string _ => []

/-- The identifiers and strings of a specifier. -/
def ImportSpecifier.held : ImportSpecifier → List ExportName
  | .named _ binding imported _ => .ident binding :: imported.toList
  | .default _ binding | .star _ binding => [.ident binding]

def ExportSpecifier.held : ExportSpecifier → List ExportName
  | .named _ subject exported _ => subject :: exported.toList
  | .default exported => [.ident exported]
  | .star _ name => [name]

/-- Syntax that is no tree and belongs to the node that holds it. -/
inductive Piece where
  | name (n : ExportName)
  | imported (s : ImportSpecifier)
  | exported (s : ExportSpecifier)

namespace Piece

/-- The variables of all identifiers in it. -/
def vars : Piece → List Variable
  | .name n => n.vars
  | .imported s => s.held.flatMap ExportName.vars
  | .exported s => s.held.flatMap ExportName.vars

/-- It holds no identifier that is an alias. -/
def Free (aliases : List Variable) (p : Piece) : Prop := ∀ v ∈ p.vars, v ∉ aliases

/-- A specifier and what it holds. -/
def withHeld (s : Piece) (held : List ExportName) : List Piece := s :: held.map .name

end Piece

namespace Tree

/-- The identifiers and specifiers of a node that are in none of its parts. -/
def pieces : Tree → List Piece
  | .ident _ id | .binding id _ | .patternShorthand _ id _ _ | .shorthand id =>
      [.name (.ident id)]
  | .importDecl _ specifiers _ _ _ _ =>
      specifiers.flatMap fun s => (Piece.imported s).withHeld s.held
  | .exportNamed _ specifiers _ _ _ =>
      specifiers.flatMap fun s => (Piece.exported s).withHeld s.held
  | _ => []

/-- A node without its parts and pieces: its kind, spans, context and flags. -/
def shell : Tree → Tree
  | .absent => .absent
  | .leaf value => .leaf value
  | .context ctxt => .context ctxt
  | .items _ => .items []
  | .ident role _ => .ident role default
  | .binding _ _ => .binding default .absent
  | .name span text => .name span text
  | .string literal => .string literal
  | .paren role span _ => .paren role span .absent
  | .member role span _ _ => .member role span .absent .absent
  | .call span ctxt _ _ _ => .call span ctxt .absent [] .absent
  | .arg spread _ => .arg spread .absent
  | .variables role span ctxt kind declare _ => .variables role span ctxt kind declare []
  | .declarator span _ _ definite => .declarator span .absent .absent definite
  | .objectPattern span _ optional _ => .objectPattern span [] optional .absent
  | .patternShorthand span _ _ _ => .patternShorthand span default .absent .absent
  | .patternPair _ _ => .patternPair .absent .absent
  | .shorthand _ => .shorthand default
  | .pair _ _ => .pair .absent .absent
  | .getter span _ _ _ => .getter span .absent .absent .absent
  | .importDecl span _ source typeOnly _ phase =>
      .importDecl span [] source typeOnly .absent phase
  | .exportNamed span _ source typeOnly _ => .exportNamed span [] source typeOnly .absent
  | .exportDecl span _ => .exportDecl span .absent
  | .scope role kind span _ _ => .scope role kind span [] []
  | .moduleBlock span _ => .moduleBlock span []
  | .node role kind span _ => .node role kind span []

/-- A call site: a member access on a mock call, or a declarator that one initializes. -/
def isSite (bs : Bindings) (t : Tree) : Bool := t.isAccessSite bs || t.isDeclaratorSite bs

end Tree

/-- The renaming touches no other variables than these. -/
def Renaming.Spares (r : Renaming) (aliases : List Variable) : Prop :=
  ∀ v, v ∉ aliases → r.lookup v = none

theorem Renaming.spares_nil (aliases : List Variable) : Renaming.Spares [] aliases :=
  fun _ _ => rfl

section

variable {aliases : List Variable} {r : Renaming} (spares : r.Spares aliases)
include spares

theorem Ident.rename_eq_self {id : Ident} (free : id.var ∉ aliases) : id.rename r = id := by
  rw [Ident.rename, spares _ free]
  rfl

theorem ExportName.rename_eq_self {n : ExportName} (free : ∀ v ∈ n.vars, v ∉ aliases) :
    n.rename r = n := by
  cases n with
  | ident id => rw [rename, Ident.rename_eq_self spares (free _ (List.mem_singleton_self _))]
  | string _ => rfl

namespace ImportSpecifier

theorem mem_held_rename {s : ImportSpecifier} {n : ExportName} (mem : n ∈ s.held)
    (free : ∀ v ∈ n.vars, v ∉ aliases) : n ∈ (s.rename r).held := by
  have renamed : (s.rename r).held = s.held.map (ExportName.rename r) := by
    cases s with
    | named _ _ imported _ => cases imported <;> rfl
    | _ => rfl
  rw [renamed]
  exact List.mem_map.mpr ⟨n, mem, n.rename_eq_self spares free⟩

theorem rename_eq_self {s : ImportSpecifier} (free : ∀ n ∈ s.held, ∀ v ∈ n.vars, v ∉ aliases) :
    s.rename r = s := by
  have own {id : Ident} (mem : .ident id ∈ s.held) : id.rename r = id :=
    Ident.rename_eq_self spares (free _ mem _ (List.mem_singleton_self _))
  cases s with
  | named span binding imported typeOnly =>
      rw [rename, own List.mem_cons_self]
      cases imported with
      | none => rfl
      | some n =>
          have held : n ∈ (named span binding (some n) typeOnly).held :=
            List.mem_cons_of_mem _ (List.mem_singleton_self n)
          rw [Option.map_some, n.rename_eq_self spares (free n held)]
  | _ => rw [rename, own List.mem_cons_self]

end ImportSpecifier

namespace ExportSpecifier

/-- A renamed export keeps its name for the outside. -/
theorem mem_held_rename {s : ExportSpecifier} {n : ExportName} (mem : n ∈ s.held)
    (free : ∀ v ∈ n.vars, v ∉ aliases) : n ∈ (s.rename r).held := by
  unfold rename
  split
  · next span subject exported typeOnly =>
      split
      · next new known =>
          obtain rfl | outside := List.mem_cons.mp mem
          · exact absurd (known.symm.trans (spares _ (free _ (List.mem_singleton_self _)))) nofun
          · rw [Option.mem_toList.mp outside]
            exact List.mem_cons_of_mem _ List.mem_cons_self
      · exact mem
  · exact mem

theorem rename_eq_self {s : ExportSpecifier} (free : ∀ n ∈ s.held, ∀ v ∈ n.vars, v ∉ aliases) :
    s.rename r = s := by
  unfold rename
  split
  · rw [spares _ (free _ List.mem_cons_self _ (List.mem_singleton_self _))]
  · rfl

end ExportSpecifier

namespace Tree

omit spares in
theorem mem_specifiers_map {σ : Type} {wrap : σ → Piece} {held : σ → List ExportName} {f : σ → σ}
    (same : ∀ s, (wrap s).Free aliases → f s = s)
    (keeps : ∀ s n, n ∈ held s → (Piece.name n).Free aliases → n ∈ held (f s)) {ss : List σ}
    {p : Piece} (mem : p ∈ ss.flatMap fun s => (wrap s).withHeld (held s))
    (free : p.Free aliases) : p ∈ (ss.map f).flatMap fun s => (wrap s).withHeld (held s) := by
  obtain ⟨s, isSpecifier, inside⟩ := List.mem_flatMap.mp mem
  refine List.mem_flatMap.mpr ⟨f s, List.mem_map_of_mem isSpecifier, ?_⟩
  obtain rfl | inside := List.mem_cons.mp inside
  · rw [same s free]
    exact List.mem_cons_self
  · obtain ⟨n, isHeld, rfl⟩ := List.mem_map.mp inside
    exact List.mem_cons_of_mem _ (List.mem_map_of_mem (keeps s n isHeld free))

omit spares in
theorem free_of_specifiers {σ : Type} {wrap : σ → Piece} {held : σ → List ExportName}
    {ss : List σ}
    (free : ∀ p ∈ ss.flatMap fun s => (wrap s).withHeld (held s), p.Free aliases) :
    ∀ s ∈ ss, ∀ n ∈ held s, (Piece.name n).Free aliases :=
  fun s mem _ isHeld => free _ (List.mem_flatMap.mpr
    ⟨s, mem, List.mem_cons_of_mem _ (List.mem_map_of_mem isHeld)⟩)

omit spares in
theorem free_of_held {held : List ExportName}
    (free : ∀ v ∈ held.flatMap ExportName.vars, v ∉ aliases) :
    ∀ n ∈ held, (Piece.name n).Free aliases :=
  fun n mem v isVariable => free v (List.mem_flatMap.mpr ⟨n, mem, isVariable⟩)

theorem mem_pieces_rename {t : Tree} {p : Piece} (mem : p ∈ t.pieces) (free : p.Free aliases) :
    p ∈ (rename r t).pieces := by
  have own {id : Ident} (mem : p ∈ [Piece.name (.ident id)]) :
      p = .name (.ident (id.rename r)) ∧ r.lookup id.var = none := by
    obtain rfl := List.mem_singleton.mp mem
    have unknown := free _ (List.mem_singleton_self _)
    exact ⟨by rw [Ident.rename_eq_self spares unknown], spares _ unknown⟩
  cases t with
  | ident _ _ | binding _ _ | patternShorthand _ _ _ _ => exact List.mem_singleton.mpr (own mem).1
  | shorthand id =>
      rw [rename, Ident.renameShorthand, (own mem).2]
      exact mem
  | importDecl _ specifiers _ _ _ _ =>
      exact mem_specifiers_map (fun s free => s.rename_eq_self spares (free_of_held free))
        (fun s n mem free => s.mem_held_rename spares mem free) mem free
  | exportNamed _ specifiers source _ _ =>
      cases source with
      | some source => exact mem
      | none =>
          exact mem_specifiers_map (fun s free => s.rename_eq_self spares (free_of_held free))
            (fun s n mem free => s.mem_held_rename spares mem free) mem free
  | _ => cases mem

/-- A node whose pieces are free of aliases stays if its parts do. -/
theorem rename_of_parts {t : Tree} (free : ∀ p ∈ t.pieces, p.Free aliases)
    (stays : ∀ p ∈ t.parts, rename r p.2 = p.2) : rename r t = t := by
  have own {id : Ident} (mem : .name (.ident id) ∈ t.pieces) : id.var ∉ aliases :=
    free _ mem _ (List.mem_singleton_self _)
  have list {ts : List Tree} {place : Place}
      (stays : ∀ p ∈ ts.map (Prod.mk place), rename r p.2 = p.2) : renameList r ts = ts :=
    renameList_eq_self (List.forall_mem_map.mp stays)
  cases t with
  | absent | leaf _ | context _ | name _ _ | string _ => rfl
  | ident _ _ => rw [rename, Ident.rename_eq_self spares (own List.mem_cons_self)]
  | shorthand id => rw [rename, Ident.renameShorthand, spares _ (own List.mem_cons_self)]
  | binding _ _ =>
      rw [rename, Ident.rename_eq_self spares (own List.mem_cons_self),
        stays _ (List.mem_singleton_self _)]
  | patternShorthand _ _ _ _ =>
      simp only [parts, List.forall_mem_cons] at stays
      rw [rename, Ident.rename_eq_self spares (own List.mem_cons_self), stays.1, stays.2.1]
  | importDecl _ specifiers _ _ _ _ =>
      have same : specifiers.map (ImportSpecifier.rename r) = specifiers :=
        (List.map_congr_left fun s mem => s.rename_eq_self spares
          (free_of_specifiers free s mem)).trans (List.map_id' _)
      rw [rename, same, stays _ (List.mem_singleton_self _)]
  | exportNamed _ specifiers source _ _ =>
      cases source with
      | some _ => rfl
      | none =>
          have same : specifiers.map (ExportSpecifier.rename r) = specifiers :=
            (List.map_congr_left fun s mem => s.rename_eq_self spares
              (free_of_specifiers free s mem)).trans (List.map_id' _)
          rw [rename, same]
  | items _ | «variables» _ _ _ _ _ _ | moduleBlock _ _ | node _ _ _ _ => rw [rename, list stays]
  | paren _ _ _ | arg _ _ | exportDecl _ _ => rw [rename, stays _ (List.mem_singleton_self _)]
  | member _ _ _ _ | declarator _ _ _ _ | patternPair _ _ | pair _ _ =>
      simp only [parts, List.forall_mem_cons] at stays
      rw [rename, stays.1, stays.2.1]
  | getter _ _ _ _ =>
      simp only [parts, List.forall_mem_cons] at stays
      rw [rename, stays.1, stays.2.1, stays.2.2.1]
  | call _ _ _ _ _ =>
      simp only [parts, List.forall_mem_cons, List.forall_mem_append] at stays
      rw [rename, stays.1, list stays.2.1, stays.2.2.1]
  | objectPattern _ _ _ _ =>
      simp only [parts, List.forall_mem_cons, List.forall_mem_append] at stays
      rw [rename, list stays.1, stays.2.1]
  | scope _ _ _ _ _ =>
      simp only [parts, List.forall_mem_append] at stays
      rw [rename, list stays.1, list stays.2]

end Tree

end

namespace Tree

variable {bs : Bindings} {aliases : List Variable} {t u : Tree}

theorem settleList_eq_pure {ts : List Tree} (stays : ∀ t ∈ ts, settle bs t = pure t) :
    settleList bs ts = pure ts := by
  induction ts with
  | nil => rfl
  | cons t rest ih =>
      obtain ⟨here, later⟩ := List.forall_mem_cons.mp stays
      simp only [settleList, here, ih later, pure_bind]

theorem settleDeclarators_eq_pure {ts : List Tree}
    (loose : ∀ t ∈ ts, t.isDeclaratorSite bs = false) (stays : ∀ t ∈ ts, settle bs t = pure t) :
    settleDeclarators bs ts = pure ts := by
  induction ts with
  | nil => rfl
  | cons t rest ih =>
      obtain ⟨noSite, noSites⟩ := List.forall_mem_cons.mp loose
      obtain ⟨here, later⟩ := List.forall_mem_cons.mp stays
      simp only [settleDeclarators, noSite, Bool.false_eq_true, if_false, here, ih noSites later,
        pure_bind]

theorem isEmptied_of_whole (whole : t.Whole) : t.isEmptied = false := by
  obtain ⟨declares, parts⟩ := whole_iff.mp whole
  unfold isEmptied
  split
  · exact declares
  · exact (whole_iff.mp (parts _ (List.mem_singleton_self _))).1
  · rfl

/-- A node stays if its parts do and neither it nor one of them is a call site. -/
theorem settle_of_parts (noSite : t.isSite bs = false) (whole : t.Whole)
    (loose : ∀ p ∈ t.parts, p.2.isSite bs = false)
    (stays : ∀ p ∈ t.parts, settle bs p.2 = pure p.2) : settle bs t = pure t := by
  have list {ts : List Tree} {place : Place}
      (stays : ∀ p ∈ ts.map (Prod.mk place), settle bs p.2 = pure p.2) :
      settleList bs ts = pure ts := settleList_eq_pure (List.forall_mem_map.mp stays)
  cases t with
  | absent | leaf _ | context _ | name _ _ | string _ | ident _ _ | shorthand _ => rfl
  | items _ | node _ _ _ _ => simp only [settle, list stays, pure_bind]
  | «variables» _ _ _ _ _ ts =>
      have noSites : ∀ t ∈ ts, t.isDeclaratorSite bs = false := fun t mem =>
        (Bool.or_eq_false_iff.mp (loose _ (List.mem_map_of_mem mem))).2
      simp only [settle, settleDeclarators_eq_pure noSites (List.forall_mem_map.mp stays),
        pure_bind]
  | moduleBlock _ body =>
      have kept : body.filter (!·.isEmptied) = body := List.filter_eq_self.mpr fun t mem => by
        rw [isEmptied_of_whole ((whole_iff.mp whole).2 _ (List.mem_map_of_mem mem))]
        rfl
      simp only [settle, list stays, pure_bind, kept]
  | binding _ _ | paren _ _ _ | arg _ _ | importDecl _ _ _ _ _ _ | exportNamed _ _ _ _ _
  | exportDecl _ _ => simp only [settle, stays _ (List.mem_singleton_self _), pure_bind]
  | member role _ object _ =>
      have other : ¬ (role = .expr ∧ (bs.call? object).isSome) := by
        rintro ⟨rfl, site⟩
        exact absurd site (by simpa [isSite, isAccessSite] using (Bool.or_eq_false_iff.mp noSite).1)
      simp only [parts, List.forall_mem_cons] at stays
      simp only [settle, other, if_false, stays.1, stays.2.1, pure_bind]
  | declarator _ _ _ _ | patternShorthand _ _ _ _ | patternPair _ _ | pair _ _ =>
      simp only [parts, List.forall_mem_cons] at stays
      simp only [settle, stays.1, stays.2.1, pure_bind]
  | getter _ _ _ _ =>
      simp only [parts, List.forall_mem_cons] at stays
      simp only [settle, stays.1, stays.2.1, stays.2.2.1, pure_bind]
  | call _ _ _ _ _ =>
      simp only [parts, List.forall_mem_cons, List.forall_mem_append] at stays
      simp only [settle, stays.1, list stays.2.1, stays.2.2.1, pure_bind]
  | objectPattern _ _ _ _ =>
      simp only [parts, List.forall_mem_cons, List.forall_mem_append] at stays
      simp only [settle, list stays.1, stays.2.1, pure_bind]
  | scope _ _ _ _ _ =>
      simp only [parts, List.forall_mem_append] at stays
      simp only [settle, list stays.1, list stays.2, pure_bind]

theorem rename_nil (t : Tree) : rename [] t = t := by
  induction t using parts_induction with
  | step t ih => exact rename_of_parts (Renaming.spares_nil []) (fun _ _ _ _ => List.not_mem_nil) ih

/-- Settling keeps everything of a node but its parts, unless it replaces the node. -/
theorem shell_of_settled (settled : Settled bs t u) :
    (t.isAccessSite bs = true ∧ ∃ v, u = .ident .expr (.generated v)) ∨
      u.shell = t.shell ∧ u.pieces = t.pieces := by
  obtain ⟨actions, rfl⟩ := settled
  cases t with
  | member role span object property =>
      obtain ⟨site, same | ⟨v, same⟩⟩ | ⟨-, _, same⟩ :=
        settle_member_cases bs role span object property actions
      · exact .inr (by rw [same]; exact ⟨rfl, rfl⟩)
      · exact .inl ⟨site, v, same⟩
      · exact .inr (by rw [same]; exact ⟨rfl, rfl⟩)
  | _ => exact .inr ⟨rfl, rfl⟩

theorem shell_rename (r : Renaming) (t : Tree) :
    (rename r t).shell = t.shell ∨ ∃ id new, t = .shorthand id ∧ r.lookup id.var = some new := by
  cases t with
  | shorthand id =>
      cases known : r.lookup id.var with
      | none => exact .inl (by rw [rename, Ident.renameShorthand, known])
      | some new => exact .inr ⟨id, new, rfl, known⟩
  | exportNamed _ _ source _ _ => exact .inl (by cases source <;> rfl)
  | _ => exact .inl rfl

end Tree
end MockImport
