import Mathlib.Algebra.Group.Nat.Defs
import Mathlib.Data.Nat.Find
import MockImport.Draft
import MockImport.Proofs.FreshNames

/-!
The search for a free name as a loop that nothing bounds. It passes over taken candidates only,
and these are pairwise different, so it ends with one test more than there are taken names at
the latest, and finds what the bounded search gives. A counter of 32 bits is enough while fewer
than `2 ^ 31 - 1` names are taken; with more, the loop may go round for ever.
-/

namespace MockImport

/-- What a search comes to. -/
structure FoundName (κ : Type) where
  name : String
  /-- The names that are taken from then on. -/
  taken : Finset String
  /-- Where the counter stood, test by test. -/
  counts : List κ

section

variable {κ : Type} [OfNat κ 1] [LT κ] [DecidableLT κ] [ToString κ]

/-- The stem, with the counter behind it once that has gone beyond one. -/
def numberedName (stem : List Char) (i : κ) : String :=
  String.ofList ('_' :: stem) ++ if 1 < i then toString i else ""

theorem numberedName_eq {stem : List Char} {i : κ} {k : Nat} (beyond : 1 < i ↔ 1 < k)
    (digits : toString i = k.repr) : numberedName stem i = candidateName stem k := by
  rw [numberedName, candidateName]
  by_cases more : 1 < k
  · rw [if_pos (beyond.mpr more), if_neg (Nat.not_le_of_lt more), digits]
  · rw [if_neg (mt beyond.mp more), if_pos (Nat.le_of_not_lt more)]

variable [Add κ]

/-- What the search finds that counts on from a number. A search without end finds nothing. -/
inductive Finds (stem : List Char) (taken : Finset String) : κ → FoundName κ → Prop where
  | free {i : κ} (unused : numberedName stem i ∉ taken) :
      Finds stem taken i ⟨numberedName stem i, insert (numberedName stem i) taken, [i]⟩
  | next {i : κ} {found : FoundName κ} (used : numberedName stem i ∈ taken)
      (rest : Finds stem taken (i + 1) found) :
      Finds stem taken i { found with counts := i :: found.counts }

namespace Finds

variable {stem : List Char} {taken : Finset String} {i : κ} {found found' : FoundName κ}

theorem unique (one : Finds stem taken i found) (other : Finds stem taken i found') :
    found' = found := by
  induction one generalizing found' with
  | free unused =>
      cases other with
      | free => rfl
      | next used => exact absurd used unused
  | next used _ ih =>
      cases other with
      | free unused => exact absurd used unused
      | next _ rest => rw [ih rest]

theorem iff_eq (finds : Finds stem taken i found) :
    Finds stem taken i found' ↔ found' = found :=
  ⟨finds.unique, fun same => same ▸ finds⟩

theorem exists_unused (finds : Finds stem taken i found) :
    ∃ j : κ, numberedName stem j ∉ taken := by
  induction finds with
  | free unused => exact ⟨_, unused⟩
  | next _ _ ih => exact ih

/-- The search goes from one candidate to the first that is free, if the counter gives the
candidates up to there their numbers. -/
theorem of_passed {count : Nat → κ} (next : ∀ j, count (j + 1) = count j + 1) {k n : Nat}
    (numbers : ∀ j, k ≤ j → j ≤ k + n → numberedName stem (count j) = candidateName stem j)
    (passed : ∀ j, k ≤ j → j < k + n → candidateName stem j ∈ taken)
    (unused : candidateName stem (k + n) ∉ taken) :
    Finds stem taken (count k)
      ⟨candidateName stem (k + n), insert (candidateName stem (k + n)) taken,
        (List.range' k (n + 1)).map count⟩ := by
  -- on the number of candidates that are still to be passed over
  induction n generalizing k with
  | zero =>
      have here := numbers k (Nat.le_refl _) (Nat.le_refl _)
      rw [Nat.add_zero, ← here] at unused ⊢
      exact .free unused
  | succ n ih =>
      have here := numbers k (Nat.le_refl _) (Nat.le_add_right _ _)
      have used := passed k (Nat.le_refl _) (by omega)
      have shift : k + (n + 1) = k + 1 + n := by omega
      have rest := @ih (k + 1) (fun j from_ upTo => numbers j (by omega) (by omega))
        (fun j from_ before => passed j (by omega) (by omega)) (shift ▸ unused)
      rw [next] at rest
      rw [shift, List.range'_succ]
      exact .next (here ▸ used) rest

end Finds
end

section

variable {stem : List Char} {k : Nat}

theorem numberedName_nat (stem : List Char) (k : Nat) :
    numberedName stem k = candidateName stem k :=
  numberedName_eq Iff.rfl rfl

theorem numberedName_of_toInt {i : Int32} (reads : i.toInt = k) :
    numberedName stem i = candidateName stem k := by
  refine numberedName_eq ?_ ?_
  · rw [Int32.lt_iff_toInt_lt, reads]
    exact Int.ofNat_lt
  · change toString i.toInt = k.repr
    rw [reads]
    rfl

/-- Whatever a counter of 32 bits holds, the candidate has a number that fits. -/
theorem exists_numberedName_eq (stem : List Char) (i : Int32) :
    ∃ k, 1 ≤ k ∧ k < 2 ^ 31 ∧ numberedName stem i = candidateName stem k := by
  by_cases beyond : 1 < i
  · have more : 1 < i.toInt := Int32.lt_iff_toInt_lt.mp beyond
    have fits : i.toInt < 2 ^ 31 := i.toInt_lt
    have reads : i.toInt = i.toInt.toNat := by omega
    exact ⟨i.toInt.toNat, by omega, by omega, numberedName_of_toInt reads⟩
  · refine ⟨1, by decide, by decide, ?_⟩
    rw [numberedName, if_neg beyond, candidateName, if_pos (Nat.le_refl 1)]

end

/-- The `k`th candidate is the first that is not taken. -/
structure FirstFree (stem : List Char) (taken : Finset String) (k : Nat) : Prop where
  positive : 1 ≤ k
  unused : candidateName stem k ∉ taken
  passed : ∀ j, 1 ≤ j → j < k → candidateName stem j ∈ taken

theorem firstFree_freshName (taken : List String) (hint : String) :
    ∃ k, FirstFree (Stem.ofHint hint.toList) taken.toFinset k ∧
      freshName taken hint = candidateName (Stem.ofHint hint.toList) k := by
  obtain ⟨k, positive, found, unused, passed⟩ := freshName_first taken hint
  refine ⟨k, ⟨positive, mt List.mem_toFinset.mp unused, fun j from_ before => ?_⟩, found⟩
  exact List.mem_toFinset.mpr (passed j from_ before)

namespace FirstFree

variable {stem : List Char} {taken : Finset String} {k : Nat}

theorem le_card (first : FirstFree stem taken k) : k ≤ taken.card + 1 := by
  have many : k - 1 ≤ taken.card :=
    le_card_of_candidates_mem fun j before => first.passed (1 + j) (by omega) (by omega)
  omega

theorem exists_le (positive : 1 ≤ k) (unused : candidateName stem k ∉ taken) :
    ∃ j ≤ k, FirstFree stem taken j := by
  have found : ∃ j, 1 ≤ j ∧ candidateName stem j ∉ taken := ⟨k, positive, unused⟩
  refine ⟨Nat.find found, Nat.find_le ⟨positive, unused⟩, ?_⟩
  refine ⟨(Nat.find_spec found).1, (Nat.find_spec found).2, fun j from_ before => ?_⟩
  exact not_not.mp (not_and.mp (Nat.find_min found before) from_)

/-- From one on, a counter that gives the candidates their numbers comes to the first free. -/
theorem finds {κ : Type} [OfNat κ 1] [LT κ] [DecidableLT κ] [ToString κ] [Add κ]
    (first : FirstFree stem taken k) {count : Nat → κ}
    (next : ∀ j, count (j + 1) = count j + 1)
    (numbers : ∀ j ≤ k, numberedName stem (count j) = candidateName stem j) :
    Finds stem taken (count 1)
      ⟨candidateName stem k, insert (candidateName stem k) taken,
        (List.range' 1 k).map count⟩ := by
  obtain ⟨n, rfl⟩ := Nat.exists_eq_add_of_le first.positive
  have found := Finds.of_passed next (fun j _ upTo => numbers j upTo) first.passed first.unused
  rwa [Nat.add_comm n 1] at found

theorem finds_nat (first : FirstFree stem taken k) :
    Finds stem taken 1
      ⟨candidateName stem k, insert (candidateName stem k) taken, List.range' 1 k⟩ := by
  have found := first.finds (fun _ => rfl) fun j _ => numberedName_nat stem j
  rwa [List.map_id'] at found

theorem finds_int32 (first : FirstFree stem taken k) (fits : k < 2 ^ 31) :
    Finds stem taken (1 : Int32)
      ⟨candidateName stem k, insert (candidateName stem k) taken,
        (List.range' 1 k).map Int32.ofNat⟩ :=
  first.finds (fun j => Int32.ofNat_add j 1) fun j upTo =>
    numberedName_of_toInt (Int32.toInt_ofNat_of_lt (by omega))

end FirstFree

/-- With a counter of 32 bits the search ends just when one of the candidates that it can number
is free. -/
theorem exists_finds_int32_iff (stem : List Char) (taken : Finset String) :
    (∃ found, Finds stem taken (1 : Int32) found) ↔
      ∃ k, 1 ≤ k ∧ k < 2 ^ 31 ∧ candidateName stem k ∉ taken := by
  constructor
  · rintro ⟨found, ends⟩
    obtain ⟨i, unused⟩ := ends.exists_unused
    obtain ⟨k, positive, fits, named⟩ := exists_numberedName_eq stem i
    exact ⟨k, positive, fits, named ▸ unused⟩
  · rintro ⟨k, positive, fits, unused⟩
    obtain ⟨j, before, first⟩ := FirstFree.exists_le positive unused
    exact ⟨_, first.finds_int32 (by omega)⟩

theorem map_toInt_ofNat {n : Nat} (fits : n < 2 ^ 31) :
    ((List.range' 1 n).map Int32.ofNat).map Int32.toInt = (List.range' 1 n).map Int.ofNat := by
  rw [List.map_map]
  refine List.map_congr_left fun j mem => ?_
  exact Int32.toInt_ofNat_of_lt (by have := List.mem_range'_1.mp mem; omega)

/-- The search for a fresh name ends, with the first candidate that is not taken, which is then
taken too. It tests at most one candidate more than there were taken names, so the number behind
the stem goes no further; and while fewer than `2 ^ 31 - 1` names are taken, a counter of 32 bits
stands at the same numbers throughout. -/
theorem Draft.search_finds_fresh (d : Draft) (hint : String) :
    let stem := Stem.ofHint hint.toList
    let taken := d.taken.toFinset
    ∃ k, let name := candidateName stem k
      (1 ≤ k ∧ k ≤ taken.card + 1) ∧
      (name ∉ taken ∧ ∀ j, 1 ≤ j → j < k → candidateName stem j ∈ taken) ∧
      (∀ found, Finds stem taken (1 : Nat) found ↔
        found = ⟨name, insert name taken, List.range' 1 k⟩) ∧
      (taken.card < 2 ^ 31 - 1 → ∃ counts : List Int32,
        counts.map Int32.toInt = (List.range' 1 k).map Int.ofNat ∧
        ∀ found, Finds stem taken (1 : Int32) found ↔
          found = ⟨name, insert name taken, counts⟩) ∧
      d.fresh hint = (.generated ⟨name, d.ctxt⟩, { d with taken := name :: d.taken }) := by
  intro stem taken
  obtain ⟨k, first, named⟩ := firstFree_freshName d.taken hint
  have bound : k ≤ taken.card + 1 := first.le_card
  refine ⟨k, ⟨first.positive, bound⟩, ⟨first.unused, first.passed⟩,
    fun _ => first.finds_nat.iff_eq, fun room => ?_, ?_⟩
  · have fits : k < 2 ^ 31 := by omega
    exact ⟨_, map_toInt_ofNat fits, fun _ => (first.finds_int32 fits).iff_eq⟩
  · rw [fresh, named]

example : freshName ["_foo3", "_foo", "_foo2"] "foo2" = "_foo4" := by
  decide +kernel

end MockImport
