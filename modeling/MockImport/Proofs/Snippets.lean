import MockImport.Failure

/-!
The source text that a malformed usage quotes. A span between two characters of the text
quotes just what lies there, however many bytes its characters take; a span that stands for
no text, or for more than there is, quotes none.
-/

namespace MockImport

namespace Text

theorem byteLength_toList (s : String) : byteLength s.toList = s.utf8ByteSize := by
  rw [← String.ofList_toList (s := s), String.toList_ofList]
  induction s.toList with
  | nil => rfl
  | cons c cs ih =>
      rw [String.ofList_cons, String.utf8ByteSize_append, String.utf8ByteSize_singleton, ← ih,
        byteLength]

theorem byteLength_of_dropBytes {n : Nat} {cs rest : List Char}
    (dropped : dropBytes n cs = some rest) : byteLength cs = n + byteLength rest := by
  fun_induction dropBytes n cs with
  | case1 => simp_all [byteLength]
  | case3 | case5 => simp_all
  | case2 => contradiction
  | case4 n c cs _ fits ih =>
      have later := ih dropped
      simp only [byteLength]
      omega

theorem le_byteLength_of_takeBytes {n : Nat} {cs taken : List Char}
    (found : takeBytes n cs = some taken) : n ≤ byteLength cs := by
  fun_induction takeBytes n cs generalizing taken with
  | case1 | case3 => exact Nat.zero_le _
  | case2 | case5 => contradiction
  | case4 n c cs _ fits ih =>
      obtain ⟨_, later, -⟩ := Option.map_eq_some_iff.mp found
      have := ih later
      simp only [byteLength]
      omega

end Text

/-- The span stands for no part of a text of so many bytes. -/
def Span.IsOutside (length : Nat) (s : Span) : Prop :=
  s.start = 0 ∧ s.stop = 0 ∨ reservedFrom ≤ s.start ∨ s.stop < s.start ∨
    s.start = 0 ∨ s.stop = 0 ∨ length + 1 < s.stop

/-- The text of a source: all but its byte order mark. -/
def sourceText (source : String) : String := String.ofList (Text.withoutMark source.toList)

theorem snippet?_of_append {source a b c : String} (split : sourceText source = a ++ b ++ c)
    (below : a.utf8ByteSize + 1 < reservedFrom) :
    snippet? (some source) ⟨a.utf8ByteSize + 1, a.utf8ByteSize + b.utf8ByteSize + 1⟩ = some b := by
  have text : Text.withoutMark source.toList = a.toList ++ (b.toList ++ c.toList) := by
    have lists := congrArg String.toList split
    rwa [sourceText, String.toList_ofList, String.toList_append, String.toList_append,
      List.append_assoc] at lists
  have named : Span.isDummy ⟨a.utf8ByteSize + 1, a.utf8ByteSize + b.utf8ByteSize + 1⟩ = false := by
    simp [Span.isDummy, Span.generated, below]
  have ordered : ¬ a.utf8ByteSize + b.utf8ByteSize + 1 < a.utf8ByteSize + 1 := by omega
  have dropped := Text.dropBytes_byteLength a.toList (b.toList ++ c.toList)
  have cited := Text.takeBytes_byteLength b.toList c.toList
  have width : a.utf8ByteSize + b.utf8ByteSize + 1 - (a.utf8ByteSize + 1) = b.utf8ByteSize := by
    omega
  rw [Text.byteLength_toList] at dropped cited
  simp [snippet?, named, ordered, text, dropped, width, cited]

theorem snippet?_of_isOutside {source : String} {span : Span}
    (outside : span.IsOutside (sourceText source).utf8ByteSize) :
    snippet? (some source) span = none := by
  rw [← Text.byteLength_toList, sourceText, String.toList_ofList] at outside
  cases found : snippet? (some source) span with
  | none => rfl
  | some snippet =>
      simp only [snippet?, Option.bind_eq_bind, Option.bind_some] at found
      split at found
      · contradiction
      next inside =>
      simp only [Span.isDummy, Bool.or_eq_true, decide_eq_true_eq, not_or] at inside
      obtain ⟨rest, dropped, found⟩ := Option.bind_eq_some_iff.mp found
      obtain ⟨cited, taken, -⟩ := Option.bind_eq_some_iff.mp found
      have start := Text.byteLength_of_dropBytes dropped
      have stop := Text.le_byteLength_of_takeBytes taken
      obtain ⟨first, -⟩ | reserved | reversed | first | last | long := outside
      all_goals omega

/-- A malformed usage keeps its span. It quotes what lies between two places of the text,
also when these are one place or the end of the text, and otherwise tells that there is no
source text. -/
theorem Failure.malformed_snippet (source : String) :
    (∀ a b c, sourceText source = a ++ b ++ c → a.utf8ByteSize + 1 < reservedFrom →
      let span : Span := ⟨a.utf8ByteSize + 1, a.utf8ByteSize + b.utf8ByteSize + 1⟩
      malformed (some source) span = .malformedUsage span b) ∧
    (∀ span, span.IsOutside (sourceText source).utf8ByteSize →
      malformed (some source) span = .malformedUsage span "<unknown source>") ∧
    ∀ span, malformed none span = .malformedUsage span "<unknown source>" := by
  refine ⟨fun a b c split below => ?_, fun span outside => ?_, fun span => rfl⟩
  · simp only [malformed, snippet?_of_append split below, Option.getD_some]
  · simp only [malformed, snippet?_of_isOutside outside, Option.getD_none]

/-- Behind a byte order mark, the four bytes after the first character and beyond the end. -/
theorem Failure.malformed_snippet_marked :
    sourceText "\uFEFFé😀x" = "é" ++ "😀" ++ "x" ∧ "é".utf8ByteSize + 1 < reservedFrom ∧
      malformed (some "\uFEFFé😀x") ⟨3, 7⟩ = .malformedUsage ⟨3, 7⟩ "😀" ∧
      Span.IsOutside (sourceText "\uFEFFé😀x").utf8ByteSize ⟨3, 9⟩ ∧
      malformed (some "\uFEFFé😀x") ⟨3, 9⟩ = .malformedUsage ⟨3, 9⟩ "<unknown source>" := by
  have split : sourceText "\uFEFFé😀x" = "é" ++ "😀" ++ "x" := by decide
  have below : "é".utf8ByteSize + 1 < reservedFrom := by decide
  have outside : Span.IsOutside (sourceText "\uFEFFé😀x").utf8ByteSize ⟨3, 9⟩ := by
    simp [Span.IsOutside, split]
    decide
  obtain ⟨cited, unknown, -⟩ := malformed_snippet "\uFEFFé😀x"
  exact ⟨split, below, cited "é" "😀" "x" split below, outside, unknown ⟨3, 9⟩ outside⟩

end MockImport
