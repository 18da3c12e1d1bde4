import MockImport.Options
import MockImport.Proofs.JsonReading
import MockImport.Proofs.JsonStrings

/-!
The texts that ask for registrations to be left out. They are read off the grammar: an object
with the one member that asks for it, whatever its other members hold, or a list of just `true`.
-/

namespace MockImport

namespace Text

/-- The text is what is left of some characters without the blanks at their two ends. -/
structure Trims (cs text : List Char) : Prop where
  within : ∃ before after, cs = before ++ text ++ after ∧ ∀ c ∈ before ++ after, isBlank c = true
  first : ∀ c ∈ text.head?, isBlank c = false
  last : ∀ c ∈ text.getLast?, isBlank c = false

theorem dropWhile_isBlank_spec (cs : List Char) :
    (∃ before, cs = before ++ cs.dropWhile isBlank ∧ ∀ c ∈ before, isBlank c = true) ∧
      ∀ c ∈ (cs.dropWhile isBlank).head?, isBlank c = false := by
  refine ⟨⟨cs.takeWhile isBlank, List.takeWhile_append_dropWhile.symm,
    List.all_eq_true.mp List.all_takeWhile⟩, fun c isFirst => ?_⟩
  have stopped := List.head?_dropWhile_not isBlank cs
  rwa [Option.mem_def.mp isFirst] at stopped

theorem dropWhile_isBlank_eq {before text : List Char} (blank : ∀ c ∈ before, isBlank c = true)
    (first : ∀ c ∈ text.head?, isBlank c = false) :
    (before ++ text).dropWhile isBlank = text := by
  rw [List.dropWhile_append_of_pos blank]
  cases text with
  | nil => rfl
  | cons c rest =>
      exact List.dropWhile_cons_of_neg (Bool.eq_false_iff.mp (first c rfl))

theorem trims_trim (cs : List Char) : Trims cs (trim cs) := by
  obtain ⟨⟨before, split, blank⟩, first⟩ := dropWhile_isBlank_spec cs
  obtain ⟨⟨after, split', blank'⟩, last⟩ := dropWhile_isBlank_spec (cs.dropWhile isBlank).reverse
  have ends : cs.dropWhile isBlank = trim cs ++ after.reverse := by
    rw [trim, ← List.reverse_append, ← split', List.reverse_reverse]
  refine ⟨⟨before, after.reverse, ?_, ?_⟩, fun c isFirst => first c ?_, fun c isLast => last c ?_⟩
  · rw [List.append_assoc, ← ends]
    exact split
  · rw [List.forall_mem_append]
    exact ⟨blank, fun c mem => blank' c (List.mem_reverse.mp mem)⟩
  · rw [ends, List.head?_append, Option.mem_def.mp isFirst]
    rfl
  · rwa [trim, List.getLast?_reverse] at isLast

/-- There is one way to trim a text. -/
theorem trims_iff {cs text : List Char} : Trims cs text ↔ text = trim cs := by
  refine ⟨fun ⟨⟨before, after, split, blank⟩, first, last⟩ => ?_, fun same => same ▸ trims_trim cs⟩
  obtain ⟨blank, blank'⟩ := List.forall_mem_append.mp blank
  have front : cs.dropWhile isBlank = (text ++ after).dropWhile isBlank := by
    rw [split, List.append_assoc, List.dropWhile_append_of_pos blank]
  rw [trim, front]
  cases text with
  | nil => rw [List.nil_append, List.dropWhile_eq_nil_iff.mpr blank']; rfl
  | cons c rest =>
      have stays : ((c :: rest) ++ after).dropWhile isBlank = (c :: rest) ++ after :=
        dropWhile_isBlank_eq (List.forall_mem_nil _) first
      rw [stays, List.reverse_append, dropWhile_isBlank_eq, List.reverse_reverse]
      · exact fun c mem => blank' c (List.mem_reverse.mp mem)
      · rwa [List.head?_reverse]

end Text

namespace Json

/-- The keys of an object's members are written as strings. -/
theorem writtenPieces_of_mem {members : List (List Piece × Json)} {text : List Char} :
    WrittenMembers members text → ∀ m ∈ members, ∃ ks, WrittenPieces m.1 ks
  | .none _ => nofun
  | .one (.intro _ pieces _ _) => List.forall_mem_singleton.mpr ⟨_, pieces⟩
  | .more (.intro _ pieces _ _) later =>
      List.forall_mem_cons.mpr ⟨⟨_, pieces⟩, writtenPieces_of_mem later⟩

theorem unit_lt_of_spaced {members : List (List Piece × Json)} {text : List Char}
    (spaced : Spaced (.object members) text) :
    ∀ m ∈ members, ∀ code, .unit code ∈ m.1 → code < 0x10000 := by
  cases spaced with
  | intro _ value _ =>
      cases value with
      | object inside =>
          intro m mem
          obtain ⟨ks, pieces⟩ := writtenPieces_of_mem inside m mem
          exact unit_lt_of_writtenPieces pieces

end Json

namespace Options

variable {members : List (List Json.Piece × Json)}

theorem mapM_decode?_eq_some {keys : List (List Char)}
    (decoded : members.mapM (fun (key, _) => Json.decode? key) = some keys) :
    (∀ m ∈ members, Json.decode? m.1 ≠ none) ∧
    (keys.zip members).filterMap (fun (key, _, value) =>
        if key = skipKey then some value else none) =
      (members.filter fun m => Json.decode? m.1 = some skipKey).map Prod.snd := by
  induction members generalizing keys with
  | nil => exact ⟨nofun, by simp⟩
  | cons m members ih =>
      simp only [List.mapM_cons, bind, Option.bind_eq_some_iff, pure, Option.some.injEq] at decoded
      obtain ⟨key, first, keys, later, rfl⟩ := decoded
      obtain ⟨all, same⟩ := ih later
      refine ⟨List.forall_mem_cons.mpr ⟨by simp [first], all⟩, ?_⟩
      rw [List.zip_cons_cons, List.filterMap_cons, List.filter_cons, same]
      by_cases asked : key = skipKey <;> simp [first, asked]

theorem mapM_decode?_ne_none (all : ∀ m ∈ members, Json.decode? m.1 ≠ none) :
    members.mapM (fun (key, _) => Json.decode? key) ≠ none := by
  induction members with
  | nil => nofun
  | cons m members ih =>
      obtain ⟨first, later⟩ := List.forall_mem_cons.mp all
      obtain ⟨key, first⟩ := Option.ne_none_iff_exists'.mp first
      obtain ⟨keys, later⟩ := Option.ne_none_iff_exists'.mp (ih later)
      simp [first, later]

theorem ofJson?_object_iff :
    ofJson? (.object members) = some ⟨true⟩ ↔ (∀ m ∈ members, Json.decode? m.1 ≠ none) ∧
      (members.filter fun m => Json.decode? m.1 = some skipKey).map Prod.snd = [.bool true] := by
  simp only [ofJson?, bind, Option.bind_eq_some_iff]
  constructor
  · rintro ⟨keys, decoded, set⟩
    obtain ⟨all, same⟩ := mapM_decode?_eq_some decoded
    refine ⟨all, ?_⟩
    rw [same] at set
    split at set
    · contradiction
    · next flag only =>
        obtain rfl : flag = true := Options.mk.inj (Option.some.inj set)
        exact only
    · contradiction
  · rintro ⟨all, values⟩
    obtain ⟨keys, decoded⟩ := Option.ne_none_iff_exists'.mp (mapM_decode?_ne_none all)
    obtain ⟨-, same⟩ := mapM_decode?_eq_some decoded
    refine ⟨keys, decoded, ?_⟩
    rw [same, values]

theorem asked_iff :
    (members.filter fun m => Json.decode? m.1 = some skipKey).map Prod.snd = [.bool true] ↔
      ∃ before key after, members = before ++ (key, .bool true) :: after ∧
        Json.decode? key = some skipKey ∧
        ∀ m ∈ before ++ after, Json.decode? m.1 ≠ some skipKey := by
  simp only [List.map_eq_singleton_iff, List.filter_eq_cons_iff, List.filter_eq_nil_iff,
    decide_eq_true_eq, List.forall_mem_append]
  constructor
  · rintro ⟨⟨key, value⟩, ⟨before, after, rfl, none, asked, noMore⟩, rfl⟩
    exact ⟨before, key, after, rfl, asked, none, noMore⟩
  · rintro ⟨before, key, after, rfl, asked, none, noMore⟩
    exact ⟨_, ⟨before, after, rfl, none, asked, noMore⟩, rfl⟩

theorem ofJson?_array_iff {items : List Json} :
    ofJson? (.array items) = some ⟨true⟩ ↔ items = [.bool true] := by
  constructor
  · intro set
    unfold ofJson? at set
    split at set
    · contradiction
    · contradiction
    · next flag same =>
        obtain rfl : flag = true := Options.mk.inj (Option.some.inj set)
        exact Json.array.inj same
    · contradiction
  · rintro rfl
    rfl

theorem skipRegistration_ofText (raw : String) :
    (ofText (some raw)).skipRegistration = true ↔
      ∃ v, Json.read? (Text.trim raw.toList) = some v ∧ ofJson? v = some ⟨true⟩ := by
  rw [ofText, ← Option.bind_eq_some_iff]
  cases (Json.read? (Text.trim raw.toList)).bind ofJson? with
  | none => exact ⟨nofun, nofun⟩
  | some options => exact ⟨fun set => congrArg some (congrArg mk set), fun same => by
      rw [Option.some.inj same]
      rfl⟩

/-- The object asks for registrations to be left out. -/
theorem ofJson?_object_eq_true_iff
    (units : ∀ m ∈ members, ∀ code, .unit code ∈ m.1 → code < 0x10000) :
    ofJson? (.object members) = some ⟨true⟩ ↔ (∀ m ∈ members, ¬ Json.LoneSurrogate m.1) ∧
      ∃ before key after, members = before ++ (key, .bool true) :: after ∧
        Json.Decodes key "skipRegistration".toList ∧
        ∀ m ∈ before ++ after, ¬ Json.Decodes m.1 "skipRegistration".toList := by
  have lone : (∀ m ∈ members, Json.decode? m.1 ≠ none) ↔ ∀ m ∈ members, ¬ Json.LoneSurrogate m.1 :=
    forall₂_congr fun m mem => not_congr (Json.decode?_eq_none_iff (units m mem))
  rw [ofJson?_object_iff, asked_iff, lone]
  refine and_congr_right fun _ => exists_congr fun before => exists_congr fun key =>
    exists_congr fun after => and_congr_right fun split => ?_
  have among : ∀ m ∈ before ++ after, m ∈ members := fun m mem => by
    rw [split]
    exact (List.sublist_cons_self _ after).append_left before |>.subset mem
  have asked : (key, .bool true) ∈ members := by simp [split]
  exact and_congr (Json.decode?_eq_some_iff (units _ asked))
    (forall₂_congr fun m mem => not_congr (Json.decode?_eq_some_iff (units m (among m mem))))

/-- Registrations are left out just for the texts that consist, within blanks, of an object
whose keys all stand for texts and whose one member under the key for it is `true`, or of a
list of just `true`. -/
theorem skipRegistration_iff (raw : String) :
    (ofText (some raw)).skipRegistration = true ↔
      ∃ text, Text.Trims raw.toList text ∧
        ((∃ members, Json.Spaced (.object members) text ∧
          (∀ m ∈ members, ¬ Json.LoneSurrogate m.1) ∧
          ∃ before key after, members = before ++ (key, .bool true) :: after ∧
            Json.Decodes key "skipRegistration".toList ∧
            ∀ m ∈ before ++ after, ¬ Json.Decodes m.1 "skipRegistration".toList) ∨
        Json.Spaced (.array [.bool true]) text) := by
  simp only [skipRegistration_ofText, Json.read?_eq_some_iff, Text.trims_iff, exists_eq_left]
  constructor
  · rintro ⟨v, spaced, set⟩
    cases v with
    | object members =>
        exact .inl ⟨members, spaced,
          (ofJson?_object_eq_true_iff (Json.unit_lt_of_spaced spaced)).mp set⟩
    | array items =>
        obtain rfl := ofJson?_array_iff.mp set
        exact .inr spaced
    | _ => contradiction
  · rintro (⟨members, spaced, asked⟩ | spaced)
    · exact ⟨.object members, spaced,
        (ofJson?_object_eq_true_iff (Json.unit_lt_of_spaced spaced)).mpr asked⟩
    · exact ⟨_, spaced, rfl⟩

example : ofText (some " \x7b\"mode\": [1e99], \"skip\\u0052egistration\" : true\x7d\n") = ⟨true⟩ := by
  decide +kernel

end Options

end MockImport
