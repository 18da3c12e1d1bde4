import MockImport.Site

/-!
What the recognisers of a call site's surroundings accept, and what they make of it.
-/

namespace MockImport

theorem isSome_mapM_iff {α β : Type} (f : α → Option β) (xs : List α) :
    (xs.mapM f).isSome ↔ ∀ x ∈ xs, (f x).isSome := by
  induction xs with
  | nil => exact iff_of_true rfl (List.forall_mem_nil _)
  | cons x rest ih =>
      rw [List.forall_mem_cons, ← ih, List.mapM_cons]
      cases f x with
      | none => simp
      | some y => cases rest.mapM f <;> simp

theorem mem_of_mapM_eq_some {α β : Type} {f : α → Option β} {xs : List α} {ys : List β}
    (made : xs.mapM f = some ys) {y : β} (mem : y ∈ ys) : ∃ x ∈ xs, f x = some y := by
  induction xs generalizing ys with
  | nil =>
      obtain rfl := Option.some.inj made
      cases mem
  | cons x rest ih =>
      rw [List.mapM_cons] at made
      obtain ⟨z, first, made⟩ := Option.bind_eq_some_iff.mp made
      obtain ⟨zs, later, made⟩ := Option.bind_eq_some_iff.mp made
      obtain rfl := Option.some.inj made
      obtain rfl | mem := List.mem_cons.mp mem
      · exact ⟨x, List.mem_cons_self, first⟩
      · obtain ⟨w, isMember, made⟩ := ih later mem
        exact ⟨w, List.mem_cons_of_mem x isMember, made⟩

/-- What is done to each member and undone from each result changes no answer. -/
theorem mapM_map_of_commutes {α β γ δ : Type} {f : α → Option β} {f' : γ → Option δ}
    {g : α → γ} {h : β → δ} (each : ∀ x, f' (g x) = (f x).map h) (xs : List α) :
    (xs.map g).mapM f' = (xs.mapM f).map (List.map h) := by
  induction xs with
  | nil => rfl
  | cons x rest ih =>
      rw [List.map_cons, List.mapM_cons, List.mapM_cons, each, ih]
      cases f x with
      | none => rfl
      | some y => cases rest.mapM f <;> rfl

namespace Tree

def isImportKeyword : Tree → Bool
  | .node _ kind _ _ => kind = .importKeyword
  | _ => false

/-- The only argument of a call, if nothing is spread. -/
def plainArg? : List Tree → Option Tree
  | [.arg none t] => some t
  | _ => none

def literal? : Tree → Option String
  | .string literal => some literal.value
  | _ => none

theorem plainArg?_eq_some_iff {args : List Tree} {t : Tree} :
    plainArg? args = some t ↔ args = [.arg none t] := by
  constructor
  · intro found
    rw [plainArg?.eq_def] at found
    split at found
    · rw [Option.some.inj found]
    · cases found
  · rintro rfl
    rfl

theorem dynamicImport?_call (span : Span) (ctxt : Nat) (callee : Tree) (args : List Tree)
    (typeArgs : Tree) : (Tree.call span ctxt callee args typeArgs).dynamicImport? =
      if callee.isImportKeyword then (plainArg? args).bind literal? else none := by
  rw [dynamicImport?.eq_def]
  split
  · next same => cases same
  · next same =>
      cases same
      rfl
  · next other =>
      split
      · next keyword =>
          cases only : plainArg? args with
          | none => rfl
          | some t =>
              obtain rfl := plainArg?_eq_some_iff.mp only
              cases callee with
              | node role kind at_ fields =>
                  obtain rfl : kind = .importKeyword := of_decide_eq_true keyword
                  cases t with
                  | string literal => exact (other _ _ _ _ _ literal _ rfl).elim
                  | _ => rfl
              | _ => cases keyword
      · rfl

variable {t : Tree}

theorem propertyPattern?_eq_some_iff {p : Pattern} :
    t.propertyPattern? = some p ↔
      ∃ span property, t = .name span property ∧ p = .member property := by
  constructor
  · intro found
    cases t with
    | name span property => exact ⟨span, property, rfl, (Option.some.inj found).symm⟩
    | _ => cases found
  · rintro ⟨span, property, rfl, rfl⟩
    rfl

theorem destructuredPair?_eq_some_iff {pair : String × Variable} :
    t.destructuredPair? = some pair ↔
      (∃ span key typing, t = .patternShorthand span key typing .absent ∧
        pair = (key.var.name, key.var)) ∨
      ∃ span property id typing, t = .patternPair (.name span property) (.binding id typing) ∧
        pair = (property, id.var) := by
  constructor
  · intro found
    simp only [destructuredPair?] at found
    split at found
    · exact .inl ⟨_, _, _, rfl, (Option.some.inj found).symm⟩
    · exact .inr ⟨_, _, _, _, rfl, (Option.some.inj found).symm⟩
    · cases found
  · rintro (⟨span, key, typing, rfl, rfl⟩ | ⟨span, property, id, typing, rfl, rfl⟩) <;> rfl

theorem targetPattern?_eq_some_iff {p : Pattern} :
    t.targetPattern? = some p ↔
      (∃ id typing, t = .binding id typing ∧ p = .alias id.var) ∨
      ∃ span properties optional typing pairs,
        t = .objectPattern span properties optional typing ∧
          properties.mapM destructuredPair? = some pairs ∧ p = .destructure pairs := by
  constructor
  · intro found
    cases t with
    | binding id typing => exact .inl ⟨id, typing, rfl, (Option.some.inj found).symm⟩
    | objectPattern span properties optional typing =>
        obtain ⟨pairs, made, same⟩ := Option.map_eq_some_iff.mp found
        exact .inr ⟨span, properties, optional, typing, pairs, rfl, made, same.symm⟩
    | _ => cases found
  · rintro (⟨id, typing, rfl, rfl⟩ | ⟨span, properties, optional, typing, pairs, rfl, made, rfl⟩)
    · rfl
    · rw [targetPattern?, made, Option.map_some]

end Tree

theorem MockCall.specifier?_eq_some_iff {call : MockCall} {source : String} :
    call.specifier? = some source ↔
      ∃ t, call.args = [.arg none t] ∧ t.dynamicImport? = some source := by
  simp only [specifier?]
  split
  · next t only => simp [only]
  · next other =>
      refine iff_of_false (Option.some_ne_none _ ·.symm) ?_
      rintro ⟨t, only, -⟩
      exact other t only

theorem MockCall.specifier?_eq_bind (call : MockCall) :
    call.specifier? = (Tree.plainArg? call.args).bind Tree.dynamicImport? := by
  cases only : Tree.plainArg? call.args with
  | some t => rw [specifier?, Tree.plainArg?_eq_some_iff.mp only]; rfl
  | none =>
      simp only [specifier?]
      split
      · next t args => rw [Tree.plainArg?_eq_some_iff.mpr args] at only; cases only
      · rfl

/-- A usage is good if the call names a module and something takes its result up. -/
theorem MockCall.usage_cases (call : MockCall) (consumer : Span) (pattern : Option Pattern) :
    (∃ source p, call.specifier? = some source ∧ pattern = some p ∧
      call.usage consumer pattern = .ok (source, p)) ∨
    ∃ span, (call.specifier? = none ∨ pattern = none) ∧
      call.usage consumer pattern = .error span := by
  simp only [usage]
  cases call.specifier? with
  | none => exact .inr ⟨_, .inl rfl, rfl⟩
  | some source =>
      cases pattern with
      | none => exact .inr ⟨_, .inr rfl, rfl⟩
      | some p => exact .inl ⟨source, p, rfl, rfl, rfl⟩

end MockImport
