import Mathlib.Data.List.TakeDrop
import Mathlib.Data.List.TakeWhile
import MockImport.Proofs.JsonGrammar

/-!
The reader's tokens are spelled as the grammar has it. What is read as a token is a spelling of
it, and a spelling is read as its token whatever comes next; only a number must not run on.
-/

namespace MockImport.Json

theorem isSpace_iff {c : Char} : isSpace c = true ↔ c ∈ [' ', '\t', '\n', '\r'] := by
  simp [isSpace, or_assoc]

theorem isDigit_iff {c : Char} : isDigit c = true ↔ IsDigit c := by
  simp [isDigit, IsDigit]

theorem IsDigit.ne {c d : Char} (digit : IsDigit c) (other : ¬ IsDigit d) : c ≠ d := fun same =>
  other (same ▸ digit)

/-- No more digits. -/
def NoDigit (cs : List Char) : Prop := ∀ c ∈ cs.head?, ¬ IsDigit c

/-- Where a number ends: what comes next cannot belong to it. -/
def Boundary (cs : List Char) : Prop :=
  ∀ c ∈ cs.head?, ¬ IsDigit c ∧ c ≠ '.' ∧ c ≠ 'e' ∧ c ≠ 'E'

section

variable {cs text rest : List Char}

theorem digits?_sound (found : digits? cs = some (text, rest)) :
    cs = text ++ rest ∧ Digits text := by
  rw [digits?, List.span_eq_takeWhile_dropWhile] at found
  split at found
  · contradiction
  next taken left nonempty split =>
    obtain ⟨rfl, rfl⟩ := Prod.mk.inj split
    obtain ⟨rfl, rfl⟩ := Prod.mk.inj (Option.some.inj found)
    refine ⟨List.takeWhile_append_dropWhile.symm, nonempty, ?_⟩
    exact fun c mem => isDigit_iff.mp (List.mem_takeWhile_imp mem)

theorem digits?_append (digits : Digits text) (stop : NoDigit rest) :
    digits? (text ++ rest) = some (text, rest) := by
  have all : ∀ c ∈ text, isDigit c = true := fun c mem => isDigit_iff.mpr (digits.2 c mem)
  have none : rest.takeWhile isDigit = [] ∧ rest.dropWhile isDigit = rest := by
    cases rest with
    | nil => exact ⟨rfl, rfl⟩
    | cons c cs =>
        have noDigit := Bool.eq_false_iff.mpr (mt isDigit_iff.mp (stop c rfl))
        simp [noDigit]
  rw [digits?, List.span_eq_takeWhile_dropWhile, List.takeWhile_append_of_pos all,
    List.dropWhile_append_of_pos all, none.1, none.2, List.append_nil]
  have nonempty := digits.1
  split
  · next empty => exact absurd (Prod.mk.inj empty).1 nonempty
  · next same => rw [same]

theorem digitsAfter_sound {lead : List Char} (found : digitsAfter lead cs = some (text, rest)) :
    ∃ digits, text = lead ++ digits ∧ cs = digits ++ rest ∧ Digits digits := by
  obtain ⟨⟨digits, rest'⟩, read, same⟩ := Option.map_eq_some_iff.mp found
  obtain ⟨rfl, rfl⟩ := Prod.mk.inj same
  obtain ⟨split, digits'⟩ := digits?_sound read
  exact ⟨digits, rfl, split, digits'⟩

theorem digitsAfter_append {digits : List Char} (lead : List Char) (read : Digits digits)
    (stop : NoDigit rest) :
    digitsAfter lead (digits ++ rest) = some (lead ++ digits, rest) := by
  rw [digitsAfter, digits?_append read stop]
  rfl

theorem integer?_sound (found : integer? cs = some (text, rest)) :
    cs = text ++ rest ∧ Integer text := by
  rw [integer?.eq_def] at found
  split at found
  · obtain ⟨rfl, rfl⟩ := Prod.mk.inj (Option.some.inj found)
    exact ⟨rfl, .zero⟩
  next noZero =>
    obtain ⟨rfl, nonempty, digits⟩ := digits?_sound found
    cases text with
    | nil => contradiction
    | cons c ds =>
        refine ⟨rfl, .nonzero (digits c List.mem_cons_self) ?_
          fun d mem => digits d (List.mem_cons_of_mem _ mem)⟩
        rintro rfl
        exact noZero _ rfl

theorem integer?_append (whole : Integer text) (stop : NoDigit rest) :
    integer? (text ++ rest) = some (text, rest) := by
  cases whole with
  | zero => rfl
  | @nonzero c cs first noZero later =>
      have digits : Digits (c :: cs) :=
        ⟨List.cons_ne_nil c cs, List.forall_mem_cons.mpr ⟨first, later⟩⟩
      rw [← digits?_append digits stop, integer?.eq_def]
      split
      · next same => exact absurd (List.cons.inj same).1 noZero
      · rfl

theorem fraction?_sound (found : fraction? cs = some (text, rest)) :
    cs = text ++ rest ∧ Fraction text := by
  rw [fraction?.eq_def] at found
  split at found
  · obtain ⟨digits, rfl, rfl, read⟩ := digitsAfter_sound found
    exact ⟨rfl, .present read⟩
  · obtain ⟨rfl, rfl⟩ := Prod.mk.inj (Option.some.inj found)
    exact ⟨rfl, .absent⟩

theorem fraction?_append (part : Fraction text) (stop : NoDigit rest)
    (noPoint : rest.head? ≠ some '.') : fraction? (text ++ rest) = some (text, rest) := by
  cases part with
  | present digits => exact digitsAfter_append _ digits stop
  | absent =>
      rw [List.nil_append, fraction?.eq_def]
      split
      · exact absurd rfl noPoint
      · rfl

theorem exponent?_sound (found : exponent? cs = some (text, rest)) :
    cs = text ++ rest ∧ Exponent text := by
  rw [exponent?.eq_def] at found
  split at found
  · obtain ⟨rfl, rfl⟩ := Prod.mk.inj (Option.some.inj found)
    exact ⟨rfl, .absent⟩
  next c cs =>
    split at found
    next marked =>
      have mark : c ∈ ['e', 'E'] := by simpa using marked
      split at found
      all_goals
        obtain ⟨digits, rfl, rfl, read⟩ := digitsAfter_sound found
      · exact ⟨rfl, @Exponent.present c ['+'] digits mark (by simp) read⟩
      · exact ⟨rfl, @Exponent.present c ['-'] digits mark (by simp) read⟩
      · exact ⟨rfl, @Exponent.present c [] digits mark (by simp) read⟩
    · obtain ⟨rfl, rfl⟩ := Prod.mk.inj (Option.some.inj found)
      exact ⟨rfl, .absent⟩

theorem exponent?_append (power : Exponent text) (boundary : Boundary rest) :
    exponent? (text ++ rest) = some (text, rest) := by
  have stop : NoDigit rest := fun c mem => (boundary c mem).1
  cases power with
  | absent =>
      cases rest with
      | nil => rfl
      | cons c cs =>
          obtain ⟨-, -, small, capital⟩ := boundary c rfl
          simp [exponent?, small, capital]
  | @present mark sign digits marked signed read =>
      have isMark : (mark = 'e' || mark = 'E') = true := by simpa using marked
      obtain rfl | rfl | rfl : sign = [] ∨ sign = ['+'] ∨ sign = ['-'] := by simpa using signed
      · obtain ⟨d, ds, rfl⟩ := List.exists_cons_of_ne_nil read.1
        have digit := read.2 d List.mem_cons_self
        have noPlus : d ≠ '+' := digit.ne (by decide)
        have noMinus : d ≠ '-' := digit.ne (by decide)
        have unsigned := digitsAfter_append [mark] read stop
        simp only [List.cons_append] at unsigned
        simp [exponent?, isMark, noPlus, noMinus, unsigned]
      all_goals
        simp only [List.cons_append, List.nil_append, exponent?, isMark, if_true]
        exact digitsAfter_append _ read stop

theorem Exponent.stop (power : Exponent text) (boundary : Boundary rest) :
    NoDigit (text ++ rest) ∧ (text ++ rest).head? ≠ some '.' := by
  cases power with
  | absent => exact ⟨fun c mem => (boundary c mem).1, fun point => (boundary '.' point).2.1 rfl⟩
  | @present mark sign digits marked signed read =>
      have isMark : ∀ c ∈ ['e', 'E'], ¬ IsDigit c ∧ some c ≠ some '.' := by
        simp [IsDigit]
      obtain ⟨noDigit, noPoint⟩ := isMark mark marked
      refine ⟨fun c first => ?_, noPoint⟩
      obtain rfl : mark = c := Option.some.inj first
      exact noDigit

theorem Fraction.stop (part : Fraction text) (stop : NoDigit rest) : NoDigit (text ++ rest) := by
  cases part with
  | absent => exact stop
  | present digits =>
      intro c first
      obtain rfl : '.' = c := Option.some.inj first
      decide

theorem Integer.head? (whole : Integer text) : ∃ c cs, text = c :: cs ∧ IsDigit c := by
  cases whole with
  | zero => exact ⟨'0', [], rfl, by decide⟩
  | nonzero first noZero later => exact ⟨_, _, rfl, first⟩

/-- The sign in front of a number, which may be missing. -/
theorem number?_sign (cs : List Char) : ∃ sign ∈ [[], ['-']], ∃ unsigned, cs = sign ++ unsigned ∧
    (sign = [] → unsigned.head? ≠ some '-') ∧
    number? cs = do
      let (integer, cs) ← integer? unsigned
      let (fraction, cs) ← fraction? cs
      let (exponent, cs) ← exponent? cs
      return (sign ++ integer ++ fraction ++ exponent, cs) := by
  rw [number?.eq_def]
  cases cs with
  | nil => exact ⟨[], by simp, [], rfl, by simp, rfl⟩
  | cons c cs =>
      by_cases minus : c = '-'
      · subst minus
        exact ⟨['-'], by simp, cs, rfl, by simp, rfl⟩
      · exact ⟨[], by simp, c :: cs, rfl, by simp [minus], by simp [minus]⟩

theorem number?_sound (found : number? cs = some (text, rest)) :
    cs = text ++ rest ∧ Number text := by
  obtain ⟨sign, signed, unsigned, rfl, -, read⟩ := number?_sign cs
  simp only [read, bind, Option.bind_eq_some_iff, pure, Option.some.injEq, Prod.mk.injEq,
    Prod.exists] at found
  obtain ⟨integer, cs₁, whole, fraction, cs₂, part, exponent, cs₃, power, rfl, rfl⟩ := found
  obtain ⟨rfl, integer'⟩ := integer?_sound whole
  obtain ⟨rfl, fraction'⟩ := fraction?_sound part
  obtain ⟨rfl, exponent'⟩ := exponent?_sound power
  exact ⟨by simp only [List.append_assoc], .intro signed integer' fraction' exponent'⟩

theorem number?_append (number : Number text) (boundary : Boundary rest) :
    number? (text ++ rest) = some (text, rest) := by
  obtain @⟨sign, integer, fraction, exponent, signed, whole, part, power⟩ := number
  obtain ⟨sign', signed', unsigned, split, noMinus, read⟩ :=
    number?_sign (sign ++ integer ++ fraction ++ exponent ++ rest)
  obtain ⟨rfl, rfl⟩ : sign' = sign ∧ unsigned = integer ++ (fraction ++ (exponent ++ rest)) := by
    obtain ⟨c, cs, rfl, digit⟩ := whole.head?
    have first : c ≠ '-' := digit.ne (by decide)
    simp only [List.mem_cons, List.not_mem_nil, or_false] at signed signed'
    simp only [List.append_assoc] at split ⊢
    obtain rfl | rfl := signed <;> obtain rfl | rfl := signed'
    · exact ⟨rfl, split.symm⟩
    · exact absurd (List.cons.inj split).1 first
    · exact absurd (congrArg List.head? split.symm) (noMinus rfl)
    · exact ⟨rfl, (List.cons.inj split).2.symm⟩
  obtain ⟨noDigit, noPoint⟩ := power.stop boundary
  rw [read, integer?_append whole (part.stop noDigit)]
  simp only [Option.bind_eq_bind, Option.bind_some, fraction?_append part noDigit noPoint,
    exponent?_append power boundary, pure]

theorem hexDigit?_eq_some_iff {c : Char} {n : Nat} :
    hexDigit? c = some n ↔ (c, n) ∈ hexDigits := by
  constructor
  · intro found
    have small : c.toNat < 128 := by
      simp only [hexDigit?, isDigit, Char.le_def, UInt32.le_iff_toNat_le, Bool.and_eq_true,
        decide_eq_true_eq] at found
      split at found
      · next inside => exact Nat.lt_of_le_of_lt inside.2 (by decide)
      split at found
      · next inside => exact Nat.lt_of_le_of_lt inside.2 (by decide)
      split at found
      · next inside => exact Nat.lt_of_le_of_lt inside.2 (by decide)
      · contradiction
    have table : ∀ k < 128, ∀ n ∈ hexDigit? (.ofNat k), (Char.ofNat k, n) ∈ hexDigits := by decide
    have listed := table c.toNat small
    rw [Char.ofNat_toNat] at listed
    exact listed n found
  · have table : ∀ p ∈ hexDigits, hexDigit? p.1 = some p.2 := by decide
    exact table (c, n)

theorem unit?_eq_some_iff {a b c d : Char} {p : Piece} :
    unit? a b c d = some p ↔ ∃ i j k l, (a, i) ∈ hexDigits ∧ (b, j) ∈ hexDigits ∧
      (c, k) ∈ hexDigits ∧ (d, l) ∈ hexDigits ∧ p = .unit (((i * 16 + j) * 16 + k) * 16 + l) := by
  simp only [unit?, bind, Option.bind_eq_some_iff, hexDigit?_eq_some_iff, pure, Option.some.injEq]
  grind

theorem escape?_eq_some_iff {e : Char} {p : Piece} :
    escape? e = some p ↔ ∃ c, p = .char c ∧ (e, c) ∈ shortEscapes := by
  constructor
  · intro found
    rw [escape?.eq_def] at found
    split at found
    all_goals first
      | exact ⟨_, (Option.some.inj found).symm, by decide⟩
      | contradiction
  · rintro ⟨c, rfl, mem⟩
    have table : ∀ p ∈ shortEscapes, escape? p.1 = some (.char p.2) := by decide
    exact table (e, c) mem

theorem stringOnto_sound {done pieces : List Piece}
    (found : stringOnto done cs = some (pieces, rest)) :
    ∃ ps text, pieces = done.reverse ++ ps ∧ cs = text ++ '"' :: rest ∧ WrittenPieces ps text := by
  have further {p : Piece} {done : List Piece} {here cs : List Char} (written : WrittenPiece p here)
      (later : ∃ ps text, pieces = (p :: done).reverse ++ ps ∧ cs = text ++ '"' :: rest ∧
        WrittenPieces ps text) :
      ∃ ps text, pieces = done.reverse ++ ps ∧ here ++ cs = text ++ '"' :: rest ∧
        WrittenPieces ps text := by
    obtain ⟨ps, text, rfl, rfl, pieces'⟩ := later
    exact ⟨p :: ps, here ++ text, by simp, by simp, .cons written pieces'⟩
  fun_induction stringOnto done cs with
  | case1 | case4 | case6 | case7 | case8 => contradiction
  | case2 done cs =>
      obtain ⟨rfl, rfl⟩ := Prod.mk.inj (Option.some.inj found)
      exact ⟨[], [], (List.append_nil _).symm, rfl, .nil⟩
  | case3 done a b c d later piece unit noQuote ih =>
      obtain ⟨i, j, k, l, first, second, third, fourth, rfl⟩ := unit?_eq_some_iff.mp unit
      exact further (.unit first second third fourth) (ih found)
  | case5 done e later _ piece escape noQuote ih =>
      obtain ⟨c, rfl, listed⟩ := escape?_eq_some_iff.mp escape
      exact further (.short listed) (ih found)
  | case9 done c cs noQuote noBackslash noControl ih =>
      exact further (.plain noQuote noBackslash (Nat.le_of_not_lt noControl)) (ih found)

theorem stringOnto_append {ps : List Piece} (pieces : WrittenPieces ps text) (done : List Piece) :
    stringOnto done (text ++ '"' :: rest) = some (done.reverse ++ ps, rest) := by
  induction pieces generalizing done with
  | nil =>
      rw [List.nil_append, stringOnto.eq_def]
      simp
  | @cons p ps cs ds here later ih =>
      have onto : some (done.reverse ++ p :: ps, rest) =
          stringOnto (p :: done) (ds ++ '"' :: rest) := by
        rw [ih, List.reverse_cons, List.append_assoc, List.singleton_append]
      rw [onto, List.append_assoc]
      cases here with
      | plain noQuote noBackslash noControl =>
          rw [List.singleton_append, stringOnto.eq_def]
          simp [noQuote, noBackslash, Nat.not_lt.mpr noControl]
      | @short e c escape =>
          have noUnit : e ≠ 'u' := by
            rintro rfl
            revert escape
            simp [shortEscapes]
          have read := escape?_eq_some_iff.mpr ⟨c, rfl, escape⟩
          simp [stringOnto, noUnit, read]
      | unit first second third fourth =>
          have read := unit?_eq_some_iff.mpr ⟨_, _, _, _, first, second, third, fourth, rfl⟩
          simp [stringOnto, read]

end

/-- How a token is spelled. -/
inductive Spelled : Token → List Char → Prop
  | openSquare : Spelled (.opening .square) ['[']
  | closeSquare : Spelled (.closing .square) [']']
  | openCurly : Spelled (.opening .curly) ['\x7b']
  | closeCurly : Spelled (.closing .curly) ['\x7d']
  | comma : Spelled .comma [',']
  | colon : Spelled .colon [':']
  | null : Spelled .null ['n', 'u', 'l', 'l']
  | true : Spelled (.bool true) ['t', 'r', 'u', 'e']
  | false : Spelled (.bool false) ['f', 'a', 'l', 's', 'e']
  | number {cs : List Char} (number : Number cs) : Spelled (.number cs) cs
  | string {ps : List Piece} {cs : List Char} (pieces : WrittenPieces ps cs) :
      Spelled (.string ps) ('"' :: cs ++ ['"'])

section

variable {cs text rest : List Char} {t : Token}

theorem word?_sound {word : List Char} (found : word? word cs = some rest) : cs = word ++ rest := by
  rw [word?] at found
  split at found
  · next here =>
      obtain ⟨tail, rfl⟩ := List.isPrefixOf_iff_prefix.mp here
      rw [← Option.some.inj found, List.drop_left]
  · contradiction

theorem token?_sound (found : token? cs = some (t, rest)) :
    ∃ text, cs = text ++ rest ∧ Spelled t text := by
  have mark {u : Token} {c : Char} {cs : List Char} (spelled : Spelled u [c])
      (same : some (u, cs) = some (t, rest)) : ∃ text, c :: cs = text ++ rest ∧ Spelled t text := by
    obtain ⟨rfl, rfl⟩ := Prod.mk.inj (Option.some.inj same)
    exact ⟨[c], rfl, spelled⟩
  have word {u : Token} {c : Char} {cs letters : List Char} (spelled : Spelled u (c :: letters))
      (same : (word? letters cs).map (u, ·) = some (t, rest)) :
      ∃ text, c :: cs = text ++ rest ∧ Spelled t text := by
    obtain ⟨rest', read, same⟩ := Option.map_eq_some_iff.mp same
    obtain ⟨rfl, rfl⟩ := Prod.mk.inj same
    rw [word?_sound read]
    exact ⟨c :: letters, rfl, spelled⟩
  rw [token?.eq_def] at found
  split at found
  · contradiction
  split at found
  · exact mark .openSquare found
  · exact mark .closeSquare found
  · exact mark .openCurly found
  · exact mark .closeCurly found
  · exact mark .comma found
  · exact mark .colon found
  · obtain ⟨⟨pieces, rest'⟩, read, same⟩ := Option.map_eq_some_iff.mp found
    obtain ⟨rfl, rfl⟩ := Prod.mk.inj same
    obtain ⟨ps, text, rfl, rfl, written⟩ := stringOnto_sound read
    exact ⟨'"' :: text ++ ['"'], by simp, .string written⟩
  · exact word .null found
  · exact word .true found
  · exact word .false found
  · obtain ⟨⟨written, rest'⟩, read, same⟩ := Option.map_eq_some_iff.mp found
    obtain ⟨rfl, rfl⟩ := Prod.mk.inj same
    obtain ⟨split, number⟩ := number?_sound read
    exact ⟨written, split, .number number⟩

theorem Number.head? (number : Number text) :
    ∃ c cs, text = c :: cs ∧ (IsDigit c ∨ c = '-') := by
  obtain @⟨sign, integer, fraction, exponent, signed, whole, -, -⟩ := number
  obtain ⟨c, cs, rfl, digit⟩ := whole.head?
  obtain rfl | rfl : sign = [] ∨ sign = ['-'] := by simpa using signed
  · exact ⟨c, cs ++ fraction ++ exponent, rfl, .inl digit⟩
  · exact ⟨'-', c :: cs ++ fraction ++ exponent, rfl, .inr rfl⟩

/-- A spelling is read as its token; only a number could run on. -/
theorem token?_append (spelled : Spelled t text)
    (boundary : ∀ written, t = .number written → Boundary rest) :
    token? (text ++ rest) = some (t, rest) := by
  cases spelled with
  | number number =>
      have read := number?_append number (boundary _ rfl)
      obtain ⟨c, cs, rfl, first⟩ := number.head?
      rw [List.cons_append] at read ⊢
      rw [token?.eq_def]
      simp only
      split
      all_goals first
        | exact absurd first (by decide)
        | rw [read, Option.map_some]
  | string pieces => simp [token?, stringOnto_append pieces]
  | null | true | false => simp [token?, word?]
  | _ => rfl

theorem not_isSpace_of_spelled (spelled : Spelled t text) :
    ∃ c cs, text = c :: cs ∧ isSpace c = false := by
  cases spelled with
  | number number =>
      obtain ⟨c, cs, rfl, first⟩ := number.head?
      refine ⟨c, cs, rfl, Bool.eq_false_iff.mpr fun space => ?_⟩
      have apart : ∀ c ∈ [' ', '\t', '\n', '\r'], ¬ (IsDigit c ∨ c = '-') := by simp [IsDigit]
      exact apart c (isSpace_iff.mp space) first
  | _ => exact ⟨_, _, rfl, rfl⟩

end

end MockImport.Json
