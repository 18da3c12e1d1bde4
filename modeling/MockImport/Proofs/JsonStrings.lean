import MockImport.Proofs.JsonGrammar

/-!
What the strings of JSON text stand for. An escape with four digits is a code unit; two of them
can stand for one character, and a unit of such a pair that stands alone is for nothing. The
reader decodes a string just where none does.
-/

namespace MockImport.Json

def IsHigh (code : Nat) : Prop := 0xD800 ≤ code ∧ code < 0xDC00

def IsLow (code : Nat) : Prop := 0xDC00 ≤ code ∧ code < 0xE000

/-- The text that a string stands for. Some characters take two code units. -/
inductive Decodes : List Piece → List Char → Prop
  | nil : Decodes [] []
  | char {c : Char} {ps : List Piece} {cs : List Char} (later : Decodes ps cs) :
      Decodes (.char c :: ps) (c :: cs)
  | unit {c : Char} {ps : List Piece} {cs : List Char} (later : Decodes ps cs) :
      Decodes (.unit c.toNat :: ps) (c :: cs)
  | pair {high low : Nat} {c : Char} {ps : List Piece} {cs : List Char} (isHigh : IsHigh high)
      (isLow : IsLow low)
      (code : c.toNat = 0x10000 + (high - 0xD800) * 0x400 + (low - 0xDC00))
      (later : Decodes ps cs) : Decodes (.unit high :: .unit low :: ps) (c :: cs)

/-- A code unit of a pair stands there without the other one. -/
inductive LoneSurrogate : List Piece → Prop
  | high {before after : List Piece} {code : Nat} (isHigh : IsHigh code)
      (alone : ∀ low, after.head? = some (.unit low) → ¬ IsLow low) :
      LoneSurrogate (before ++ .unit code :: after)
  | low {before after : List Piece} {code : Nat} (isLow : IsLow code)
      (alone : ∀ high, before.getLast? = some (.unit high) → ¬ IsHigh high) :
      LoneSurrogate (before ++ .unit code :: after)

section

variable {ps : List Piece} {done text cs : List Char}

theorem exists_toNat {n : Nat} (valid : n.isValidChar) : ∃ c : Char, c.toNat = n :=
  ⟨Char.ofNatAux n valid, rfl⟩

theorem surrogatePair?_eq_some_iff {high low : Nat} {c : Char} :
    surrogatePair? high low = some c ↔ IsHigh high ∧ IsLow low ∧
      c.toNat = 0x10000 + (high - 0xD800) * 0x400 + (low - 0xDC00) := by
  simp only [surrogatePair?, Option.ite_none_right_eq_some, Option.some.injEq, Bool.and_eq_true,
    decide_eq_true_eq, IsHigh, IsLow]
  constructor
  · rintro ⟨⟨⟨⟨h₁, h₂⟩, h₃⟩, h₄⟩, rfl⟩
    obtain ⟨c, code⟩ := exists_toNat (n := 0x10000 + (high - 0xD800) * 0x400 + (low - 0xDC00))
      (by simp only [Nat.isValidChar]; omega)
    rw [← code, Char.ofNat_toNat]
    exact ⟨⟨h₁, h₂⟩, ⟨h₃, h₄⟩, rfl⟩
  · rintro ⟨⟨h₁, h₂⟩, ⟨h₃, h₄⟩, code⟩
    rw [← code, Char.ofNat_toNat]
    exact ⟨⟨⟨⟨h₁, h₂⟩, h₃⟩, h₄⟩, rfl⟩

/-- A code unit that stands for a character alone is none of a pair. -/
theorem single_iff {code : Nat} :
    (code < 0xD800 || 0xE000 ≤ code) = true ↔ ¬ IsHigh code ∧ ¬ IsLow code := by
  simp only [Bool.or_eq_true, decide_eq_true_eq, IsHigh, IsLow]
  omega

theorem surrogate_of_not_single {code : Nat}
    (surrogate : ¬ (code < 0xD800 || 0xE000 ≤ code) = true) : IsHigh code ∨ IsLow code := by
  simp only [Bool.or_eq_true, decide_eq_true_eq, IsHigh, IsLow] at surrogate ⊢
  omega

theorem not_isHigh_of_isLow {code : Nat} (isLow : IsLow code) : ¬ IsHigh code := by
  simp only [IsLow, IsHigh] at isLow ⊢
  omega

theorem single_toNat (c : Char) : ¬ IsHigh c.toNat ∧ ¬ IsLow c.toNat := by
  have valid : c.toNat.isValidChar := c.valid
  simp only [Nat.isValidChar, IsHigh, IsLow] at valid ⊢
  omega

theorem decodes_of_decodeOnto (units : ∀ code, .unit code ∈ ps → code < 0x10000)
    (decoded : decodeOnto done ps = some text) :
    ∃ cs, text = done.reverse ++ cs ∧ Decodes ps cs := by
  have onto {c : Char} {done : List Char} {ps qs : List Piece}
      (first : ∀ {cs}, Decodes ps cs → Decodes qs (c :: cs))
      (later : ∃ cs, text = (c :: done).reverse ++ cs ∧ Decodes ps cs) :
      ∃ cs, text = done.reverse ++ cs ∧ Decodes qs cs := by
    obtain ⟨cs, rfl, decodes⟩ := later
    exact ⟨c :: cs, by simp, first decodes⟩
  have among {code : Nat} {p : Piece} {ps : List Piece} (mem : .unit code ∈ ps) :
      .unit code ∈ p :: ps := List.mem_cons_of_mem p mem
  fun_induction decodeOnto done ps with
  | case1 done => exact ⟨[], by simp [← Option.some.inj decoded], .nil⟩
  | case2 done c ps ih => exact onto .char (ih (fun code mem => units code (among mem)) decoded)
  | case3 done code ps single ih =>
      have valid : code.isValidChar := by
        have small := units code List.mem_cons_self
        simp only [Bool.or_eq_true, decide_eq_true_eq] at single
        simp only [Nat.isValidChar]
        omega
      obtain ⟨c, rfl⟩ := exists_toNat valid
      rw [Char.ofNat_toNat] at ih decoded
      exact onto .unit (ih (fun code mem => units code (among mem)) decoded)
  | case4 done high surrogate low ps c pair ih =>
      obtain ⟨isHigh, isLow, code⟩ := surrogatePair?_eq_some_iff.mp pair
      exact onto (.pair isHigh isLow code)
        (ih (fun code mem => units code (among (among mem))) decoded)
  | case5 | case6 => contradiction

theorem decodeOnto_of_decodes (decodes : Decodes ps cs) (done : List Char) :
    decodeOnto done ps = some (done.reverse ++ cs) := by
  induction decodes generalizing done with
  | nil => simp [decodeOnto]
  | char later ih =>
      rw [decodeOnto, ih, List.reverse_cons, List.append_assoc, List.singleton_append]
  | @unit c ps cs later ih =>
      rw [decodeOnto.eq_def]
      simp only [single_iff.mpr (single_toNat c), if_true, Char.ofNat_toNat, ih, List.reverse_cons,
        List.append_assoc, List.singleton_append]
  | @pair high low c ps cs isHigh isLow code later ih =>
      have split : ¬ (high < 0xD800 || 0xE000 ≤ high) = true := fun single =>
        (single_iff.mp single).1 isHigh
      rw [decodeOnto, if_neg split]
      simp only [surrogatePair?_eq_some_iff.mpr ⟨isHigh, isLow, code⟩, ih, List.reverse_cons,
        List.append_assoc, List.singleton_append]

theorem decode?_eq_some_iff (units : ∀ code, .unit code ∈ ps → code < 0x10000) :
    decode? ps = some cs ↔ Decodes ps cs := by
  constructor
  · intro decoded
    obtain ⟨cs', rfl, decodes⟩ := decodes_of_decodeOnto units decoded
    exact decodes
  · exact fun decodes => decodeOnto_of_decodes decodes []

theorem LoneSurrogate.append (lone : LoneSurrogate ps) (front : List Piece)
    (apart : ∀ high, front.getLast? = some (.unit high) → ¬ IsHigh high) :
    LoneSurrogate (front ++ ps) := by
  cases lone with
  | high isHigh alone =>
      rw [← List.append_assoc]
      exact .high isHigh alone
  | @low before after code isLow alone =>
      rw [← List.append_assoc]
      refine .low isLow fun high last => ?_
      rw [List.getLast?_append] at last
      cases found : before.getLast? with
      | none => exact apart high (by simpa [found] using last)
      | some p => exact alone high (by simpa [found] using last)

theorem loneSurrogate_of_decodeOnto (failed : decodeOnto done ps = none) : LoneSurrogate ps := by
  fun_induction decodeOnto done ps with
  | case1 => contradiction
  | case2 done c ps ih => exact (ih failed).append [.char c] (by simp)
  | case3 done code ps single ih =>
      exact (ih failed).append [.unit code] (by simpa using (single_iff.mp single).1)
  | case4 done high surrogate low ps c pair ih =>
      obtain ⟨-, isLow, -⟩ := surrogatePair?_eq_some_iff.mp pair
      refine (ih failed).append [.unit high, .unit low] fun code last => ?_
      obtain rfl : low = code := by simpa using last
      exact not_isHigh_of_isLow isLow
  | case5 done code surrogate low ps noPair =>
      obtain isHigh | isLow := surrogate_of_not_single surrogate
      · refine @LoneSurrogate.high [] _ code isHigh fun low' first isLow => ?_
        obtain rfl : low = low' := by simpa using first
        simp [surrogatePair?, isHigh.1, isHigh.2, isLow.1, isLow.2] at noPair
      · exact @LoneSurrogate.low [] _ code isLow nofun
  | case6 done code ps surrogate noUnit =>
      obtain isHigh | isLow := surrogate_of_not_single surrogate
      · refine @LoneSurrogate.high [] _ code isHigh fun low first => ?_
        cases ps with
        | nil => contradiction
        | cons p ps => exact (noUnit low ps (by rw [Option.some.inj first])).elim
      · exact @LoneSurrogate.low [] _ code isLow nofun

theorem LoneSurrogate.of_cons {p : Piece} (lone : LoneSurrogate (p :: ps))
    (single : ∀ code, p = .unit code → ¬ IsHigh code ∧ ¬ IsLow code) : LoneSurrogate ps := by
  generalize whole : p :: ps = qs at lone
  cases lone with
  | @high before after code isHigh alone =>
      match before, whole with
      | [], whole => exact absurd isHigh (single code (List.cons.inj whole).1).1
      | _ :: before, whole =>
          rw [(List.cons.inj whole).2]
          exact .high isHigh alone
  | @low before after code isLow alone =>
      match before, whole with
      | [], whole => exact absurd isLow (single code (List.cons.inj whole).1).2
      | _ :: before, whole =>
          rw [(List.cons.inj whole).2]
          exact .low isLow fun high last => alone high (by simp [List.getLast?_cons, last])

theorem LoneSurrogate.of_pair {high low : Nat} (isHigh : IsHigh high) (isLow : IsLow low)
    (lone : LoneSurrogate (.unit high :: .unit low :: ps)) : LoneSurrogate ps := by
  generalize whole : Piece.unit high :: .unit low :: ps = qs at lone
  cases lone with
  | @high before after code isHigh' alone =>
      obtain _ | ⟨_, _ | ⟨_, before⟩⟩ := before <;>
        simp only [List.nil_append, List.cons_append, List.cons.injEq, Piece.unit.injEq] at whole
      · obtain ⟨-, rfl⟩ := whole
        exact absurd isLow (alone low rfl)
      · obtain ⟨-, rfl, -⟩ := whole
        exact (not_isHigh_of_isLow isLow isHigh').elim
      · rw [whole.2.2]
        exact .high isHigh' alone
  | @low before after code isLow' alone =>
      obtain _ | ⟨_, _ | ⟨_, before⟩⟩ := before <;>
        simp only [List.nil_append, List.cons_append, List.cons.injEq, Piece.unit.injEq] at whole
      · obtain ⟨rfl, -⟩ := whole
        exact (not_isHigh_of_isLow isLow' isHigh).elim
      · obtain ⟨rfl, -⟩ := whole
        exact absurd isHigh (alone high rfl)
      · rw [whole.2.2]
        exact .low isLow' fun high last => alone high (by simp [List.getLast?_cons, last])

theorem not_loneSurrogate_of_decodes (decodes : Decodes ps cs) : ¬ LoneSurrogate ps := by
  induction decodes with
  | nil =>
      intro lone
      generalize whole : [] = ps at lone
      cases lone <;> simp at whole
  | char later ih => exact fun lone => ih (lone.of_cons nofun)
  | @unit c ps cs later ih =>
      refine fun lone => ih (lone.of_cons fun code same => ?_)
      obtain rfl : c.toNat = code := Piece.unit.inj same
      exact single_toNat c
  | pair isHigh isLow code later ih => exact fun lone => ih (lone.of_pair isHigh isLow)

/-- Only a lone surrogate keeps a string from standing for a text. -/
theorem decode?_eq_none_iff (units : ∀ code, .unit code ∈ ps → code < 0x10000) :
    decode? ps = none ↔ LoneSurrogate ps := by
  refine ⟨loneSurrogate_of_decodeOnto, fun lone => ?_⟩
  refine Option.eq_none_iff_forall_ne_some.mpr fun text decoded => ?_
  exact not_loneSurrogate_of_decodes ((decode?_eq_some_iff units).mp decoded) lone

/-- An escape has four digits and so stands for a single code unit. -/
theorem unit_lt_of_writtenPieces (written : WrittenPieces ps text) :
    ∀ code, .unit code ∈ ps → code < 0x10000 := by
  have digit : ∀ p ∈ hexDigits, p.2 < 16 := by decide
  induction written with
  | nil => nofun
  | cons here later ih =>
      intro code mem
      obtain rfl | among := List.mem_cons.mp mem
      · cases here with
        | unit first second third fourth =>
            have := digit _ first
            have := digit _ second
            have := digit _ third
            have := digit _ fourth
            simp only at *
            omega
      · exact ih code among

end

end MockImport.Json
