import Mathlib.Data.List.DropRight
import Mathlib.Data.Nat.Nth
import Mathlib.Data.Set.Finite.Lemmas
import MockImport.Proofs.Synthesis

/-!
The names that one stem gets over a whole run. A stem never ends in a digit, so it can be
read back from each of its candidates, and the candidates of different stems never meet. What
is asked for under other stems therefore leaves the names of a stem alone: these are its
candidates that were free to begin with, one after the other.
-/

namespace MockImport

namespace Stem

theorem dropTrailingDigits_append {ds : List Char} (digits : ∀ c ∈ ds, isAsciiDigit c = true)
    (cs : List Char) : dropTrailingDigits (cs ++ ds) = dropTrailingDigits cs := by
  simp only [dropTrailingDigits, List.reverse_append]
  rw [List.dropWhile_append_of_pos fun c mem => digits c (List.mem_reverse.mp mem)]

theorem dropTrailingDigits_ofHint (hint : List Char) :
    dropTrailingDigits (ofHint hint) = ofHint hint :=
  List.rdropWhile_idempotent _ _

theorem getLast?_ofHint (hint : List Char) :
    ∀ c ∈ (ofHint hint).getLast?, isAsciiDigit c = false := by
  intro c last
  obtain ⟨nonempty, rfl⟩ := List.mem_getLast?_eq_getLast last
  exact Bool.eq_false_iff.mpr (List.rdropWhile_last_not isAsciiDigit _ nonempty)

example : ["foo2", "_2", "a-1"].map (fun hint => ofHint hint.toList) =
    ["foo", "", "a"].map String.toList := by
  decide +kernel

end Stem

/-- What a name is made from: the hint or, for a whole module, what it is imported from. -/
def Wanted.hinted (w : Wanted) (hint : String) : String :=
  match w.imported with
  | some _ => hint
  | none => w.source

def Wanted.stem (w : Wanted) (hint : String) : List Char := Stem.ofHint (w.hinted hint).toList

private theorem dropTrailingDigits_underscore (cs : List Char) :
    Stem.dropTrailingDigits ('_' :: cs) = '_' :: Stem.dropTrailingDigits cs := by
  simp only [Stem.dropTrailingDigits, List.reverse_cons, List.dropWhile_append]
  cases kept : cs.reverse.dropWhile Stem.isAsciiDigit with
  | nil => rfl
  | cons c rest => simp

/-- A stem is read back from each of its candidates. -/
theorem dropTrailingDigits_candidateName (hint : List Char) (k : Nat) :
    Stem.dropTrailingDigits (candidateName (Stem.ofHint hint) k).toList =
      '_' :: Stem.ofHint hint := by
  rw [candidateName, String.toList_append, String.toList_ofList,
    Stem.dropTrailingDigits_append, dropTrailingDigits_underscore,
    Stem.dropTrailingDigits_ofHint]
  exact fun c mem => isAsciiDigit_of_mem_candidateNumber mem

theorem candidateName_stem_inj {hint hint' : List Char} {i j : Nat} (hi : 1 ≤ i) (hj : 1 ≤ j)
    (same : candidateName (Stem.ofHint hint) i = candidateName (Stem.ofHint hint') j) :
    Stem.ofHint hint = Stem.ofHint hint' ∧ i = j := by
  have stems : '_' :: Stem.ofHint hint = '_' :: Stem.ofHint hint' := by
    rw [← dropTrailingDigits_candidateName hint i, same, dropTrailingDigits_candidateName]
  have stem := (List.cons.inj stems).2
  exact ⟨stem, candidateName_inj hi hj (stem ▸ same)⟩

section

variable (taken : List String) (stem : List Char)

/-- The candidate is none of the names taken to begin with. -/
def IsFree (k : Nat) : Prop := 1 ≤ k ∧ candidateName stem k ∉ taken

instance : DecidablePred (IsFree taken stem) := fun _ => inferInstanceAs (Decidable (_ ∧ _))

/-- However many names are taken, no stem runs out of free candidates. -/
theorem infinite_isFree : {k | IsFree taken stem k}.Infinite := by
  have used : {k | 1 ≤ k ∧ candidateName stem k ∈ taken}.Finite := by
    refine Set.Finite.of_finite_image (f := candidateName stem) ?_ ?_
    · refine (List.finite_toSet taken).subset ?_
      rintro _ ⟨k, ⟨-, mem⟩, rfl⟩
      exact mem
    · exact fun i hi j hj same => candidateName_inj hi.1 hj.1 same
  have positive : {k : Nat | 1 ≤ k}.Infinite :=
    Set.infinite_of_forall_exists_gt fun n => ⟨n + 1, Nat.le_add_left 1 n, Nat.lt_succ_self n⟩
  refine (positive.sdiff used).mono ?_
  rintro k ⟨counted, unused⟩
  exact ⟨counted, fun mem => unused ⟨counted, mem⟩⟩

end

/-- Of the candidates of each stem that were free to begin with, so many are now in use,
always the first ones. -/
structure InUse (taken used : List String) (count : List Char → Nat) : Prop where
  kept : taken ⊆ used
  used_iff : ∀ hint k, IsFree taken (Stem.ofHint hint) k →
    (candidateName (Stem.ofHint hint) k ∈ used ↔
      k.count (IsFree taken (Stem.ofHint hint)) < count (Stem.ofHint hint))

section

variable {taken used : List String} {count : List Char → Nat}

theorem InUse.start (taken : List String) : InUse taken taken fun _ => 0 where
  kept := List.Subset.refl taken
  used_iff := fun _ _ free => iff_of_false free.2 (Nat.not_lt_zero _)

/-- The next name of a stem is the next of its candidates that were free to begin with. -/
theorem InUse.freshName_eq (inUse : InUse taken used count) (hint : String) :
    ∃ k, IsFree taken (Stem.ofHint hint.toList) k ∧
      k.count (IsFree taken (Stem.ofHint hint.toList)) = count (Stem.ofHint hint.toList) ∧
      freshName used hint = candidateName (Stem.ofHint hint.toList) k := by
  obtain ⟨k, positive, found, free, passed⟩ := freshName_first used hint
  have initially : IsFree taken (Stem.ofHint hint.toList) k :=
    ⟨positive, fun mem => free (inUse.kept mem)⟩
  have enough := Nat.le_of_not_lt (mt (inUse.used_iff _ k initially).mpr free)
  refine ⟨k, initially, Nat.le_antisymm (Nat.le_of_not_lt fun more => ?_) enough, found⟩
  -- a candidate counted beyond those in use would have been found first
  have infinite := infinite_isFree taken (Stem.ofHint hint.toList)
  have skipped := Nat.nth_mem_of_infinite infinite (count (Stem.ofHint hint.toList))
  have earlier := passed _ skipped.1 (Nat.nth_lt_of_lt_count more)
  have inside := (inUse.used_iff _ _ skipped).mp earlier
  rw [Nat.count_nth_of_infinite infinite] at inside
  exact Nat.lt_irrefl _ inside

theorem InUse.next (inUse : InUse taken used count) (hint : String) :
    InUse taken (freshName used hint :: used) fun stem =>
      if stem = Stem.ofHint hint.toList then count stem + 1 else count stem where
  kept := fun _ mem => List.mem_cons_of_mem _ (inUse.kept mem)
  used_iff := by
    intro other k free
    obtain ⟨new, newFree, counted, found⟩ := inUse.freshName_eq hint
    rw [found, List.mem_cons, inUse.used_iff other k free]
    split
    · next same =>
        rw [same] at free ⊢
        have self : candidateName (Stem.ofHint hint.toList) k =
            candidateName (Stem.ofHint hint.toList) new ↔
              k.count (IsFree taken (Stem.ofHint hint.toList)) =
                count (Stem.ofHint hint.toList) := by
          rw [← counted]
          exact ⟨fun equal => by rw [candidateName_inj free.1 newFree.1 equal],
            fun equal => by rw [Nat.count_injective free newFree equal]⟩
        rw [self]
        omega
    · next differ =>
        have apart : candidateName (Stem.ofHint other) k ≠
            candidateName (Stem.ofHint hint.toList) new :=
          fun equal => differ (candidateName_stem_inj free.1 newFree.1 equal).1
        simp [apart]

end

namespace Draft

variable {d : Draft} {w : Wanted}

theorem declareNamed_taken (d : Draft) (source : String) (s : ImportSpecifier) :
    (d.declareNamed source s).taken = d.taken ∧ (d.declareNamed source s).ctxt = d.ctxt := by
  rw [declareNamed]
  split <;> exact ⟨rfl, rfl⟩

/-- What the tables do not hold gets a fresh name. -/
theorem add_of_unknown (unknown : d.entries.lookup w = none) (hint : String) :
    (d.add w hint).1 = .generated ⟨freshName d.taken (w.hinted hint), d.ctxt⟩ ∧
      (d.add w hint).2.taken = freshName d.taken (w.hinted hint) :: d.taken ∧
      (d.add w hint).2.ctxt = d.ctxt := by
  obtain ⟨source, imported⟩ := w
  cases imported with
  | some imported =>
      rw [← lookup_named] at unknown
      simp only [add, addNamed, unknown, fresh, declareNamed_taken, Wanted.hinted]
      trivial
  | none =>
      rw [← lookup_stars] at unknown
      simp only [add, addStar, unknown]
      exact ⟨rfl, rfl, rfl⟩

/-- The requests among calls that the tables do not answer, with the stems of the names that
they get and the locals that they are answered with. -/
def grants (d : Draft) : List Call → List (List Char × Ident)
  | [] => []
  | .add w hint :: rest =>
      let later := (d.perform (.add w hint)).grants rest
      if d.entries.lookup w = none then (w.stem hint, (d.add w hint).1) :: later else later
  | .register source :: rest => (d.perform (.register source)).grants rest

/-- The requests granted under a stem. -/
def grantedUnder (d : Draft) (calls : List Call) (stem : List Char) : List (List Char × Ident) :=
  (d.grants calls).filter (·.1 = stem)

theorem grantedUnder_add_of_unknown (unknown : d.entries.lookup w = none) (hint : String)
    (rest : List Call) (stem : List Char) :
    d.grantedUnder (.add w hint :: rest) stem =
      if w.stem hint = stem then
        (w.stem hint, (d.add w hint).1) :: (d.add w hint).2.grantedUnder rest stem
      else (d.add w hint).2.grantedUnder rest stem := by
  simp only [grantedUnder, grants, perform, unknown, if_true, List.filter_cons, decide_eq_true_eq]

theorem grantedUnder_add_of_known {id : Ident} (known : d.entries.lookup w = some id)
    (hint : String) (rest : List Call) (stem : List Char) :
    d.grantedUnder (.add w hint :: rest) stem = d.grantedUnder rest stem := by
  simp only [grantedUnder, grants, perform, known, add_of_known known hint, reduceCtorEq, if_false]

/-- Whatever the calls: a stem goes on with its candidates that were free to begin with. -/
theorem locals_grantedUnder {taken : List String} {count : List Char → Nat}
    (inUse : InUse taken d.taken count) (calls : List Call) (hint : List Char) :
    let stem := Stem.ofHint hint
    (d.grantedUnder calls stem).map Prod.snd =
      (List.range' (count stem) (d.grantedUnder calls stem).length).map fun j =>
        .generated ⟨candidateName stem (Nat.nth (IsFree taken stem) j), d.ctxt⟩ := by
  intro stem
  induction calls generalizing d count with
  | nil => rfl
  | cons call rest ih =>
      cases call with
      | register source => exact ih (d := d.register source) inUse
      | add w hint' =>
          cases found : d.entries.lookup w with
          | some id =>
              rw [grantedUnder_add_of_known found]
              exact ih inUse
          | none =>
              obtain ⟨answer, used, ctxt⟩ := add_of_unknown found hint'
              have later := ih (used ▸ inUse.next (w.hinted hint'))
              rw [ctxt] at later
              rw [grantedUnder_add_of_unknown found]
              split
              · next same =>
                  have stemmed : stem = Stem.ofHint (w.hinted hint').toList := same.symm
                  obtain ⟨k, free, counted, named⟩ := inUse.freshName_eq (w.hinted hint')
                  have next : Nat.nth (IsFree taken stem) (count stem) = k := by
                    rw [stemmed, ← counted, Nat.nth_count free]
                  rw [if_pos stemmed] at later
                  rw [List.map_cons, List.length_cons, List.range'_succ, List.map_cons, later,
                    next, answer, named, ← stemmed]
              · next differ =>
                  rwa [if_neg fun stemmed => differ stemmed.symm] at later

end Draft

/-- The names of a stem do not depend on what else is asked for. Of its candidates, those not
among the names taken to begin with go one after the other to the requests made under it that
the tables do not answer; and no two stems, however their hints end, have a candidate in common. -/
theorem Draft.names_by_stem (ctxt : Nat) (taken : List String) (items : List Tree)
    (calls : List Draft.Call) :
    (∀ hint, let stem := Stem.ofHint hint
      let granted := (Draft.start ctxt taken items).grantedUnder calls stem
      {k | IsFree taken stem k}.Infinite ∧
      granted.map Prod.snd = (List.range granted.length).map fun j =>
        .generated ⟨candidateName stem (Nat.nth (IsFree taken stem) j), ctxt⟩) ∧
    (∀ hint hint' i j, 1 ≤ i → 1 ≤ j →
      candidateName (Stem.ofHint hint) i = candidateName (Stem.ofHint hint') j →
      Stem.ofHint hint = Stem.ofHint hint' ∧ i = j) ∧
    ∀ hint, ∀ c ∈ (Stem.ofHint hint).getLast?, Stem.isAsciiDigit c = false := by
  refine ⟨fun hint => ⟨infinite_isFree taken _, ?_⟩, fun hint hint' i j hi hj same =>
    candidateName_stem_inj hi hj same, Stem.getLast?_ofHint⟩
  rw [List.range_eq_range']
  exact Draft.locals_grantedUnder (d := .start ctxt taken items) (.start taken) calls hint

end MockImport
