import Mathlib.Data.Finset.Card
import Mathlib.Data.Finset.Range
import MockImport.FreshName

/-!
The names for generated imports are fresh. The candidates of a stem are pairwise
different, so among one more of them than there are taken names one is free, and
the search stops there.
-/

namespace MockImport

/-- What stands behind the stem in its `k`th candidate. -/
private def candidateNumber (k : Nat) : String := if k ≤ 1 then "" else k.repr

theorem isAsciiDigit_of_mem_candidateNumber {k : Nat} {c : Char}
    (mem : c ∈ (if k ≤ 1 then "" else k.repr).toList) : Stem.isAsciiDigit c = true := by
  split at mem
  · simp at mem
  · rw [Nat.toList_repr] at mem
    have digit := Nat.isDigit_of_mem_toDigits (by decide) (by decide) mem
    simpa [Stem.isAsciiDigit, Char.isDigit, Char.le_def] using digit

private theorem candidateNumber_inj {j k : Nat} (hj : 1 ≤ j) (hk : 1 ≤ k)
    (same : candidateNumber j = candidateNumber k) : j = k := by
  simp only [candidateNumber] at same
  split at same <;> split at same
  · omega
  · exact absurd same.symm Nat.repr_ne_empty
  · exact absurd same Nat.repr_ne_empty
  · have digits : Nat.toDigits 10 j = Nat.toDigits 10 k := by
      simpa only [Nat.toList_repr] using congrArg String.toList same
    simpa using congrArg (Nat.ofDigitChars 10 · 0) digits

theorem candidateName_inj {stem : List Char} {j k : Nat} (hj : 1 ≤ j) (hk : 1 ≤ k)
    (same : candidateName stem j = candidateName stem k) : j = k := by
  apply candidateNumber_inj hj hk
  have parts : String.ofList ('_' :: stem) ++ candidateNumber j =
      String.ofList ('_' :: stem) ++ candidateNumber k := same
  exact String.append_right_inj _ |>.mp parts

/-- The search gives up on a taken name only if all candidates that it tried are taken. -/
theorem taken_of_searchName_mem {taken : List String} {stem : List Char} {bound k : Nat}
    (mem : searchName taken stem bound k ∈ taken) :
    ∀ j ≤ bound, candidateName stem (k + j) ∈ taken := by
  induction bound generalizing k with
  | zero =>
      intro j hj
      obtain rfl : j = 0 := by omega
      exact mem
  | succ bound ih =>
      intro j hj
      simp only [searchName] at mem
      split at mem
      · next here =>
          cases j with
          | zero => exact here
          | succ j =>
              have later := ih mem j (by omega)
              rwa [Nat.add_assoc, Nat.add_comm 1 j] at later
      · next free => exact absurd mem free

/-- The search passes over taken candidates only. -/
theorem searchName_first (taken : List String) (stem : List Char) (bound k : Nat) :
    ∃ j, k ≤ j ∧ searchName taken stem bound k = candidateName stem j ∧
      ∀ i, k ≤ i → i < j → candidateName stem i ∈ taken := by
  induction bound generalizing k with
  | zero => exact ⟨k, Nat.le_refl k, rfl, fun i from_ before => by omega⟩
  | succ bound ih =>
      rw [searchName]
      split
      · next here =>
          obtain ⟨j, later, found, passed⟩ := ih (k + 1)
          refine ⟨j, by omega, found, fun i from_ before => ?_⟩
          obtain rfl | beyond := Nat.eq_or_lt_of_le from_
          · exact here
          · exact passed i beyond before
      · exact ⟨k, Nat.le_refl k, rfl, fun i from_ before => by omega⟩

theorem head?_freshName (taken : List String) (hint : String) :
    (freshName taken hint).toList.head? = some '_' := by
  obtain ⟨j, -, candidate, -⟩ := searchName_first taken (Stem.ofHint hint.toList) taken.length 1
  rw [freshName, candidate, candidateName, String.toList_append, String.toList_ofList]
  rfl

/-- So many candidates that are all taken need as many taken names. -/
theorem le_card_of_candidates_mem {taken : Finset String} {stem : List Char} {n : Nat}
    (all : ∀ j < n, candidateName stem (1 + j) ∈ taken) : n ≤ taken.card := by
  rw [← Finset.card_range n]
  refine Finset.card_le_card_of_injOn (fun j => candidateName stem (1 + j)) ?_ ?_
  · exact fun j mem => all j (Finset.mem_range.mp mem)
  · intro i _ j _ same
    have := candidateName_inj (by omega) (by omega) same
    omega

theorem freshName_not_mem (taken : List String) (hint : String) :
    freshName taken hint ∉ taken := by
  intro mem
  have all := taken_of_searchName_mem mem
  have many : taken.length + 1 ≤ taken.toFinset.card :=
    le_card_of_candidates_mem fun j tried =>
      List.mem_toFinset.mpr (all j (Nat.le_of_lt_succ tried))
  exact Nat.not_succ_le_self _ (many.trans (List.toFinset_card_le taken))

/-- A fresh name is the first candidate that is free. -/
theorem freshName_first (taken : List String) (hint : String) :
    ∃ k, 1 ≤ k ∧ freshName taken hint = candidateName (Stem.ofHint hint.toList) k ∧
      candidateName (Stem.ofHint hint.toList) k ∉ taken ∧
      ∀ i, 1 ≤ i → i < k → candidateName (Stem.ofHint hint.toList) i ∈ taken := by
  obtain ⟨k, positive, found, passed⟩ :=
    searchName_first taken (Stem.ofHint hint.toList) taken.length 1
  exact ⟨k, positive, found, found ▸ freshName_not_mem taken hint, passed⟩

end MockImport
