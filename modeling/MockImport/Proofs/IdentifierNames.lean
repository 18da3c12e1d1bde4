import Mathlib.Data.List.TakeWhile
import MockImport.Proofs.FreshNames
import MockImport.Proofs.IdentifierCharacters

/-!
When the name for a generated import is an identifier. What stands in a stem comes from the
word characters of the hint, as they are or in upper case, and of these only digits and
underscores at the ends are lost. So a name is an identifier just when none of these characters
is in the way.
-/

namespace MockImport

/-- The name is an underscore and what identifiers can go on with. -/
def IsIdentifierName (name : String) : Prop :=
  name.toList.head? = some '_' ∧ name.toList.tail.all Text.isIdentifierPart = true

instance : DecidablePred IsIdentifierName := fun _ => inferInstanceAs (Decidable (_ ∧ _))

namespace Stem

variable {c : Char} {cs hint : List Char}

theorem mem_camelCase {afterSeparator : Bool} (mem : c ∈ camelCase afterSeparator cs) :
    ∃ d ∈ cs, d ≠ '-' ∧ (c = d ∨ c ∈ Text.uppercase d) := by
  have further {d : Char} {rest : List Char}
      (found : ∃ e ∈ rest, e ≠ '-' ∧ (c = e ∨ c ∈ Text.uppercase e)) :
      ∃ e ∈ d :: rest, e ≠ '-' ∧ (c = e ∨ c ∈ Text.uppercase e) :=
    found.imp fun _ ⟨mem, what⟩ => ⟨List.mem_cons_of_mem _ mem, what⟩
  fun_induction camelCase afterSeparator cs with
  | case1 => contradiction
  | case2 _ _ ih => exact further (ih mem)
  | case3 d rest inner ih =>
      obtain here | later := List.mem_append.mp mem
      · exact ⟨d, List.mem_cons_self, inner, .inr here⟩
      · exact further (ih later)
  | case4 _ d rest inner _ ih =>
      obtain rfl | later := List.mem_cons.mp mem
      · exact ⟨c, List.mem_cons_self, inner, .inl rfl⟩
      · exact further (ih later)

/-- What is no separator stays as it is or is put in upper case. -/
theorem subset_camelCase (afterSeparator : Bool) (mem : c ∈ cs) (inner : c ≠ '-') :
    c ∈ camelCase afterSeparator cs ∨ Text.uppercase c ⊆ camelCase afterSeparator cs := by
  fun_induction camelCase afterSeparator cs with
  | case1 => contradiction
  | case2 _ rest ih =>
      exact ih ((List.mem_cons.mp mem).resolve_left inner)
  | case3 d rest _ ih =>
      obtain rfl | later := List.mem_cons.mp mem
      · exact .inr (List.subset_append_left _ _)
      · exact (ih later).imp (List.mem_append_right _) (List.subset_append_of_subset_right _)
  | case4 _ d rest _ _ ih =>
      obtain rfl | later := List.mem_cons.mp mem
      · exact .inl List.mem_cons_self
      · exact (ih later).imp (List.mem_cons_of_mem _) (List.subset_cons_of_subset _)

theorem mem_dropWhile {p : Char → Bool} (mem : c ∈ cs) (kept : p c = false) :
    c ∈ cs.dropWhile p := by
  rw [← List.takeWhile_append_dropWhile (p := p) (l := cs)] at mem
  refine (List.mem_append.mp mem).resolve_left fun lost => ?_
  exact Bool.eq_false_iff.mp kept (List.mem_takeWhile_imp lost)

theorem toNat_of_isAsciiDigit (digit : isAsciiDigit c = true) :
    0x30 ≤ c.toNat ∧ c.toNat ≤ 0x39 := by
  simpa [isAsciiDigit, Char.le_def, UInt32.le_iff_toNat_le] using digit

theorem mem_dropTrailingDigits (mem : c ∈ cs) (kept : isAsciiDigit c = false) :
    c ∈ dropTrailingDigits cs :=
  List.mem_reverse.mpr (mem_dropWhile (List.mem_reverse.mpr mem) kept)

theorem ofHint_subset (hint : List Char) : ofHint hint ⊆
    camelCase false ((hint.map separate).dropWhile fun c => c = '-' || isAsciiDigit c) := by
  intro c mem
  have kept := List.dropWhile_subset isAsciiDigit (List.mem_reverse.mp mem)
  exact List.dropWhile_subset _ (List.mem_reverse.mp kept)

/-- A stem is made from the word characters of its hint and from dollar signs. -/
theorem mem_ofHint (mem : c ∈ ofHint hint) :
    ∃ d ∈ hint, (Text.isWord d = true ∨ d = '$') ∧ (c = d ∨ c ∈ Text.uppercase d) := by
  obtain ⟨e, separated, inner, what⟩ := mem_camelCase (ofHint_subset hint mem)
  obtain ⟨d, isHinted, rfl⟩ := List.mem_map.mp (List.dropWhile_subset _ separated)
  by_cases apt : (Text.isWord d || d = '$') = true
  · rw [separate, if_pos apt] at what
    exact ⟨d, isHinted, by simpa using apt, what⟩
  · exact absurd (if_neg apt) inner

theorem isIdentifierPart_of_mem_ofHint
    (fits : ∀ d ∈ hint, Text.isWord d = true → Text.isIdentifierPart d = true)
    (mem : c ∈ ofHint hint) : Text.isIdentifierPart c = true := by
  have dollar : ('$' :: Text.uppercase '$').all Text.isIdentifierPart = true := by
    decide +kernel
  obtain ⟨d, isHinted, word | rfl, rfl | upper⟩ := mem_ofHint mem
  · exact fits c isHinted word
  · exact Text.isIdentifierPart_of_mem_uppercase (fits d isHinted word) upper
  · exact List.all_eq_true.mp dollar _ List.mem_cons_self
  · exact List.all_eq_true.mp dollar c (List.mem_cons_of_mem _ upper)

/-- Nothing that making a stem takes away is a misfit. -/
theorem kept_of_isMisfit (misfit : Text.isMisfit c = true) :
    c ≠ '-' ∧ c ≠ '_' ∧ isAsciiDigit c = false := by
  have beyond := Text.le_toNat_of_isMisfit misfit
  refine ⟨?_, ?_, Bool.eq_false_iff.mpr fun digit => ?_⟩
  · rintro rfl
    contradiction
  · rintro rfl
    contradiction
  · have := toNat_of_isAsciiDigit digit
    omega

theorem exists_isMisfit_camelCase (afterSeparator : Bool) (mem : c ∈ cs)
    (misfit : Text.isMisfit c = true) :
    ∃ d ∈ camelCase afterSeparator cs, Text.isMisfit d = true := by
  obtain same | upper := subset_camelCase afterSeparator mem (kept_of_isMisfit misfit).1
  · exact ⟨c, same, misfit⟩
  · obtain ⟨d, first⟩ := List.exists_mem_of_ne_nil _ (Text.uppercase_ne_nil c)
    exact ⟨d, upper first, Text.isMisfit_of_mem_uppercase misfit first⟩

/-- A misfit gets through to the stem, if only in upper case. -/
theorem exists_isMisfit_ofHint (mem : c ∈ hint) (misfit : Text.isMisfit c = true) :
    ∃ d ∈ ofHint hint, Text.isMisfit d = true := by
  have separated : c ∈ hint.map separate := by
    refine List.mem_map.mpr ⟨c, mem, ?_⟩
    rw [separate, Text.isWord_of_isMisfit misfit, Bool.true_or, if_pos rfl]
  obtain ⟨noSeparator, -, noDigit⟩ := kept_of_isMisfit misfit
  have inside : c ∈ (hint.map separate).dropWhile fun c => c = '-' || isAsciiDigit c :=
    mem_dropWhile separated (by simp [noSeparator, noDigit])
  obtain ⟨d, isCased, misfit'⟩ := exists_isMisfit_camelCase false inside misfit
  obtain ⟨-, noUnderscore, noDigit'⟩ := kept_of_isMisfit misfit'
  have kept := mem_dropWhile (p := (· = '_')) isCased (decide_eq_false noUnderscore)
  exact ⟨d, mem_dropTrailingDigits kept noDigit', misfit'⟩

end Stem

theorem isIdentifierName_candidateName_iff (stem : List Char) (k : Nat) :
    IsIdentifierName (candidateName stem k) ↔ ∀ c ∈ stem, Text.isIdentifierPart c = true := by
  have digits : ∀ c ∈ (if k ≤ 1 then "" else k.repr).toList, Text.isIdentifierPart c = true := by
    intro c mem
    have inside : Text.liesIn c.toNat Text.identifierRanges = true :=
      Text.liesIn_iff.mpr ⟨(0x30, 0x39), List.mem_cons_self,
        Stem.toNat_of_isAsciiDigit (isAsciiDigit_of_mem_candidateNumber mem)⟩
    simp [Text.isIdentifierPart, inside]
  simp only [IsIdentifierName, candidateName, String.toList_append, String.toList_ofList,
    List.cons_append, List.head?_cons, List.tail_cons, List.all_eq_true, List.forall_mem_append,
    true_and]
  exact and_iff_left digits

/-- The name for a hint is an identifier just when every word character of the hint can stand
in one. -/
theorem isIdentifierName_freshName_iff (taken : List String) (hint : String) :
    IsIdentifierName (freshName taken hint) ↔
      ∀ c ∈ hint.toList, Text.isWord c = true → Text.isIdentifierPart c = true := by
  obtain ⟨k, -, named, -, -⟩ := freshName_first taken hint
  rw [named, isIdentifierName_candidateName_iff]
  refine ⟨fun parts c mem word => ?_, fun fits c mem =>
    Stem.isIdentifierPart_of_mem_ofHint fits mem⟩
  by_contra unfit
  have misfit := (Text.isIdentifierPart_or_isMisfit word).resolve_left unfit
  obtain ⟨d, inStem, misfit'⟩ := Stem.exists_isMisfit_ofHint mem misfit
  exact Bool.eq_false_iff.mp (Text.not_isIdentifierPart_of_isMisfit misfit') (parts d inStem)

/-- A letter in a circle is a word character, but no identifier can hold it. -/
theorem freshName_circled : ¬ IsIdentifierName (freshName [] "Ⓐ") := by
  decide +kernel

end MockImport
