import MockImport.Proofs.JsonTokens

/-!
The reader reads just the texts of the grammar. Soundness goes over a run from its end: what each
state still accepts is written down, and one token before an accepted text is accepted in turn.
Completeness goes over the grammar: from where a value may start, the reader gets over any
writing of it to where the value has been read.
-/

namespace MockImport.Json

/-- What may stand behind an item in an array, with the items that it holds. -/
inductive FurtherItems : List Json → List Char → Prop
  | none {cs : List Char} (space : Space cs) : FurtherItems [] cs
  | some {v : Json} {vs : List Json} {before cs : List Char} (space : Space before)
      (items : WrittenItems (v :: vs) cs) : FurtherItems (v :: vs) (before ++ ',' :: cs)

/-- What may stand behind a member in an object, with the members that it holds. -/
inductive FurtherMembers : List (List Piece × Json) → List Char → Prop
  | none {cs : List Char} (space : Space cs) : FurtherMembers [] cs
  | some {m : List Piece × Json} {ms : List (List Piece × Json)} {before cs : List Char}
      (space : Space before) (members : WrittenMembers (m :: ms) cs) :
      FurtherMembers (m :: ms) (before ++ ',' :: cs)

section

variable {v whole : Json} {stack : List Frame} {before text rest cs : List Char} {t : Token}

theorem FurtherItems.writtenItems {items : List Json} (further : FurtherItems items rest)
    (space : Space before) (value : Written v text) :
    WrittenItems (v :: items) (before ++ text ++ rest) := by
  cases further with
  | none after => exact .one (.intro space value after)
  | some after items =>
      rw [← List.append_assoc]
      exact .more (.intro space value after) items

theorem FurtherMembers.writtenMembers {members : List (List Piece × Json)} {key : List Piece}
    {ks after inner : List Char} (further : FurtherMembers members rest) (front : Space before)
    (pieces : WrittenPieces key ks) (back : Space after) (space : Space inner)
    (value : Written v text) :
    WrittenMembers ((key, v) :: members)
      (before ++ '"' :: ks ++ '"' :: after ++ ':' :: (inner ++ text ++ rest)) := by
  cases further with
  | none after => exact .one (.intro front pieces back (.intro space value after))
  | some after members =>
      have member := WrittenMember.intro front pieces back (.intro space value after)
      simpa only [List.append_assoc, List.cons_append] using WrittenMembers.more member members

/-- The text closes the open brackets behind a value, and makes a value of the whole. -/
def Closes : List Frame → Json → List Char → Json → Prop
  | [], v, cs, whole => Space cs ∧ v = whole
  | .array done :: stack, v, cs, whole => ∃ items inside rest, cs = inside ++ ']' :: rest ∧
      FurtherItems items inside ∧ Closes stack (.array (done.reverse ++ v :: items)) rest whole
  | .object done key :: stack, v, cs, whole => ∃ members inside rest,
      cs = inside ++ '\x7d' :: rest ∧ FurtherMembers members inside ∧
      Closes stack (.object (done.reverse ++ (key, v) :: members)) rest whole

/-- The text starts with a value, and then closes the open brackets. -/
def AcceptsValue (stack : List Frame) (cs : List Char) (whole : Json) : Prop :=
  ∃ v before text rest, cs = before ++ text ++ rest ∧ Space before ∧ Written v text ∧
    Closes stack v rest whole

/-- The text that can lead from a state to the whole value. -/
def State.Accepts : State → List Char → Json → Prop
  | .value stack, cs, whole => AcceptsValue stack cs whole
  | .firstItem stack, cs, whole => ∃ items inside rest, cs = inside ++ ']' :: rest ∧
      WrittenItems items inside ∧ Closes stack (.array items) rest whole
  | .firstKey stack, cs, whole => ∃ members inside rest, cs = inside ++ '\x7d' :: rest ∧
      WrittenMembers members inside ∧ Closes stack (.object members) rest whole
  | .key stack done, cs, whole => ∃ m members inside rest, cs = inside ++ '\x7d' :: rest ∧
      WrittenMembers (m :: members) inside ∧
      Closes stack (.object (done.reverse ++ m :: members)) rest whole
  | .colon stack done name, cs, whole => ∃ before rest, cs = before ++ ':' :: rest ∧
      Space before ∧ AcceptsValue (.object done name :: stack) rest whole
  | .after v stack, cs, whole => Closes stack v cs whole

theorem accepts_of_startValue {st : State} (next : startValue stack t = some st)
    (space : Space before) (spelled : Spelled t text) (accepts : st.Accepts rest whole) :
    AcceptsValue stack (before ++ text ++ rest) whole := by
  have leaf {v : Json} (value : Written v text) (reached : some (State.after v stack) = some st) :
      AcceptsValue stack (before ++ text ++ rest) whole := by
    obtain rfl := Option.some.inj reached
    exact ⟨v, before, text, rest, rfl, space, value, accepts⟩
  cases spelled with
  | openSquare =>
      obtain rfl := Option.some.inj next
      obtain ⟨items, inside, rest, rfl, written, closes⟩ := accepts
      exact ⟨.array items, before, '[' :: inside ++ [']'], rest, by simp, space, .array written,
        closes⟩
  | openCurly =>
      obtain rfl := Option.some.inj next
      obtain ⟨members, inside, rest, rfl, written, closes⟩ := accepts
      exact ⟨.object members, before, '\x7b' :: inside ++ ['\x7d'], rest, by simp, space,
        .object written, closes⟩
  | null => exact leaf .null next
  | true => exact leaf .true next
  | false => exact leaf .false next
  | number number => exact leaf (.number number) next
  | string pieces => exact leaf (.string pieces) next
  | _ => contradiction

/-- The first item of an array is a value like any. -/
theorem accepts_firstItem (accepts : AcceptsValue (.array [] :: stack) cs whole) :
    (State.firstItem stack).Accepts cs whole := by
  obtain ⟨v, before, text, _, rfl, space, value, items, inside, rest, rfl, further, closes⟩ :=
    accepts
  exact ⟨v :: items, before ++ text ++ inside, rest, by simp, further.writtenItems space value,
    closes⟩

theorem accepts_of_endValue {frame : Frame} {st : State}
    (next : endValue v stack frame t = some st) (space : Space before) (spelled : Spelled t text)
    (accepts : st.Accepts rest whole) :
    Closes (frame :: stack) v (before ++ text ++ rest) whole := by
  cases frame with
  | array done =>
      cases spelled with
      | closeSquare =>
          obtain rfl := Option.some.inj next
          rw [State.Accepts, List.reverse_cons] at accepts
          exact ⟨[], before, rest, by simp, .none space, accepts⟩
      | comma =>
          obtain rfl := Option.some.inj next
          obtain ⟨w, before', text, _, rfl, space', value, items, inside, rest, rfl, further,
            closes⟩ := accepts
          rw [List.reverse_cons, List.append_assoc] at closes
          exact ⟨w :: items, before ++ ',' :: (before' ++ text ++ inside), rest, by simp,
            .some space (further.writtenItems space' value), closes⟩
      | _ => contradiction
  | object done key =>
      cases spelled with
      | closeCurly =>
          obtain rfl := Option.some.inj next
          rw [State.Accepts, List.reverse_cons] at accepts
          exact ⟨[], before, rest, by simp, .none space, accepts⟩
      | comma =>
          obtain rfl := Option.some.inj next
          obtain ⟨m, members, inside, rest, rfl, written, closes⟩ := accepts
          rw [List.reverse_cons, List.append_assoc] at closes
          exact ⟨m :: members, before ++ ',' :: inside, rest, by simp, .some space written, closes⟩
      | _ => contradiction

/-- The first key of an object is a key like any. -/
theorem accepts_firstKey (accepts : (State.key stack []).Accepts cs whole) :
    (State.firstKey stack).Accepts cs whole := by
  obtain ⟨m, members, inside, rest, rfl, written, closes⟩ := accepts
  exact ⟨m :: members, inside, rest, rfl, written, closes⟩

theorem accepts_key {done : List (List Piece × Json)} {name : List Piece} {ks : List Char}
    (space : Space before) (pieces : WrittenPieces name ks)
    (accepts : (State.colon stack done name).Accepts rest whole) :
    (State.key stack done).Accepts (before ++ ('"' :: ks ++ ['"']) ++ rest) whole := by
  obtain ⟨after, _, rfl, back, v, inner, text, _, rfl, space', value, members, inside, rest, rfl,
    further, closes⟩ := accepts
  exact ⟨(name, v), members, _, rest, by simp,
    further.writtenMembers space pieces back space' value, closes⟩

/-- One token before what a state accepts stands what the state before it accepts. -/
theorem accepts_of_step {st st' : State} (next : st.step t = some st') (space : Space before)
    (spelled : Spelled t text) (accepts : st'.Accepts rest whole) :
    st.Accepts (before ++ text ++ rest) whole := by
  cases st with
  | value stack => exact accepts_of_startValue next space spelled accepts
  | firstItem stack =>
      simp only [State.step] at next
      split at next
      · next closing =>
          subst closing
          cases spelled
          obtain rfl := Option.some.inj next
          exact ⟨[], before, rest, by simp, .none space, accepts⟩
      · exact accepts_firstItem (accepts_of_startValue next space spelled accepts)
  | firstKey stack =>
      cases spelled with
      | closeCurly =>
          obtain rfl := Option.some.inj next
          exact ⟨[], before, rest, by simp, .none space, accepts⟩
      | string pieces =>
          obtain rfl := Option.some.inj next
          exact accepts_firstKey (accepts_key space pieces accepts)
      | _ => contradiction
  | key stack done =>
      cases spelled with
      | string pieces =>
          obtain rfl := Option.some.inj next
          exact accepts_key space pieces accepts
      | _ => contradiction
  | colon stack done name =>
      cases spelled with
      | colon =>
          obtain rfl := Option.some.inj next
          exact ⟨before, rest, by simp, space, accepts⟩
      | _ => contradiction
  | after v stack =>
      cases stack with
      | nil => contradiction
      | cons frame stack => exact accepts_of_endValue next space spelled accepts

theorem space_takeWhile (cs : List Char) : Space (cs.takeWhile isSpace) := fun _ mem =>
  isSpace_iff.mp (List.mem_takeWhile_imp mem)

theorem accepts_of_result? {st : State} (result : st.result? = some whole) (space : Space cs) :
    st.Accepts cs whole := by
  cases st with
  | after v stack =>
      cases stack with
      | nil => exact ⟨space, Option.some.inj result⟩
      | cons frame stack => contradiction
  | _ => contradiction

/-- What is read is what the state accepts. -/
theorem accepts_of_readWithin {bound : Nat} {st : State}
    (read : readWithin bound st cs = some whole) : st.Accepts cs whole := by
  induction bound generalizing st cs with
  | zero => contradiction
  | succ bound ih =>
      have split := List.takeWhile_append_dropWhile (p := isSpace) (l := cs)
      have space := space_takeWhile cs
      rw [readWithin] at read
      split at read
      · next ended =>
          rw [ended, List.append_nil] at split
          exact accepts_of_result? read (split ▸ space)
      next here =>
      rw [here] at split
      split at read
      · contradiction
      next found =>
      split at read
      · contradiction
      next next =>
      -- the rest of the run says what the next state accepts; the token stands before it
      obtain ⟨text, tokens, spelled⟩ := token?_sound found
      rw [← split, tokens, ← List.append_assoc]
      exact accepts_of_step next space spelled (ih read)

theorem spaced_of_read? (read : read? cs = some v) : Spaced v cs := by
  obtain ⟨v, before, text, rest, rfl, space, value, after, rfl⟩ := accepts_of_readWithin read
  exact .intro space value after

end

/-- Any bound that exceeds the length of the text is high enough. -/
theorem readWithin_eq {bound bound' : Nat} {st : State} {cs : List Char}
    (enough : cs.length < bound) (enough' : cs.length < bound') :
    readWithin bound st cs = readWithin bound' st cs := by
  induction bound generalizing bound' st cs with
  | zero => exact absurd enough (Nat.not_lt_zero _)
  | succ bound ih =>
      obtain ⟨bound', rfl⟩ := Nat.exists_eq_add_one_of_ne_zero (Nat.ne_zero_of_lt enough')
      have shorter := (List.dropWhile_sublist isSpace (l := cs)).length_le
      rw [readWithin, readWithin]
      split
      · rfl
      next here =>
      split
      · rfl
      next found =>
      split
      · rfl
      obtain ⟨text, split, spelled⟩ := token?_sound found
      obtain ⟨c, cs', rfl, -⟩ := not_isSpace_of_spelled spelled
      rw [here, split, List.length_append, List.length_cons] at shorter
      exact ih (by omega) (by omega)

/-- Reads a text on from a state to its end. -/
def State.readFrom (st : State) (cs : List Char) : Option Json := readWithin (cs.length + 1) st cs

section

variable {st st' : State} {v : Json} {stack : List Frame} {t : Token}
  {before text rest : List Char}

theorem readFrom_append (space : Space before) :
    st.readFrom (before ++ rest) = st.readFrom rest := by
  have all : ∀ c ∈ before, isSpace c = true := fun c mem => isSpace_iff.mpr (space c mem)
  have longer : rest.length < (before ++ rest).length + 1 := by
    rw [List.length_append]
    omega
  rw [State.readFrom, State.readFrom, readWithin_eq (Nat.lt_succ_self rest.length) longer,
    readWithin, readWithin, List.dropWhile_append_of_pos all]

theorem readFrom_step (spelled : Spelled t text)
    (boundary : ∀ written, t = .number written → Boundary rest) (next : st.step t = some st') :
    st.readFrom (text ++ rest) = st'.readFrom rest := by
  have found := token?_append spelled boundary
  obtain ⟨c, cs, rfl, noSpace⟩ := not_isSpace_of_spelled spelled
  rw [List.cons_append] at found ⊢
  rw [State.readFrom, readWithin, List.dropWhile_cons_of_neg (by simp [noSpace])]
  simp only [found, next]
  refine readWithin_eq ?_ (Nat.lt_succ_self _)
  rw [List.length_cons, List.length_append]
  omega

/-- Neither space nor what separates and closes can belong to a number. -/
theorem boundary_cons {c : Char} (mark : c ∈ [' ', '\t', '\n', '\r'] ++ [',', ']', '\x7d']) :
    Boundary (c :: rest) := by
  have apart : ∀ c ∈ [' ', '\t', '\n', '\r'] ++ [',', ']', '\x7d'],
      ¬ IsDigit c ∧ c ≠ '.' ∧ c ≠ 'e' ∧ c ≠ 'E' := by
    simp [IsDigit]
  intro d first
  obtain rfl : c = d := Option.some.inj first
  exact apart c mark

theorem boundary_append (space : Space before) (boundary : Boundary rest) :
    Boundary (before ++ rest) := by
  cases before with
  | nil => exact boundary
  | cons c cs => exact boundary_cons (List.mem_append_left _ (space c List.mem_cons_self))

/-- From the state, the reader takes any value into the brackets of the stack. -/
def State.Starts (st : State) (stack : List Frame) : Prop :=
  ∀ t, t ≠ .closing .square → st.step t = startValue stack t

theorem starts_value (stack : List Frame) : (State.value stack).Starts stack := fun _ _ => rfl

theorem starts_firstItem (stack : List Frame) :
    (State.firstItem stack).Starts (.array [] :: stack) := fun t other => by
  rw [State.step, if_neg other]

/-- From the state, the reader takes any key after the members of an object. -/
def State.StartsKey (st : State) (stack : List Frame) (done : List (List Piece × Json)) : Prop :=
  ∀ name, st.step (.string name) = some (.colon stack done name)

theorem starts_firstKey (stack : List Frame) : (State.firstKey stack).StartsKey stack [] :=
  fun _ => rfl

theorem starts_key (stack : List Frame) (done : List (List Piece × Json)) :
    (State.key stack done).StartsKey stack done := fun _ => rfl

end

-- by induction on the derivation: what is open around a part stays on the stack
mutual

/-- From where a value may start, the reader gets over any writing of it. -/
theorem readFrom_written {st : State} {stack : List Frame} {v : Json} {text rest : List Char}
    (starts : st.Starts stack) (boundary : Boundary rest) :
    Written v text → st.readFrom (text ++ rest) = (State.after v stack).readFrom rest
  | .null => readFrom_step .null nofun (starts _ nofun)
  | .true => readFrom_step .true nofun (starts _ nofun)
  | .false => readFrom_step .false nofun (starts _ nofun)
  | .number written => readFrom_step (.number written) (fun _ _ => boundary) (starts _ nofun)
  | .string pieces => readFrom_step (.string pieces) nofun (starts _ nofun)
  | @Written.array items cs inside => by
      have opened : st.readFrom ('[' :: (cs ++ ']' :: rest)) =
          (State.firstItem stack).readFrom (cs ++ ']' :: rest) :=
        readFrom_step .openSquare nofun (starts _ nofun)
      have within := readFrom_items rest (starts_firstItem stack) (fun _ => ⟨rfl, rfl⟩) inside
      rw [List.append_assoc, List.cons_append]
      exact opened.trans within
  | @Written.object members cs inside => by
      have opened : st.readFrom ('\x7b' :: (cs ++ '\x7d' :: rest)) =
          (State.firstKey stack).readFrom (cs ++ '\x7d' :: rest) :=
        readFrom_step .openCurly nofun (starts _ nofun)
      have within := readFrom_members rest (starts_firstKey stack) (fun _ => ⟨rfl, rfl⟩) inside
      rw [List.append_assoc, List.cons_append]
      exact opened.trans within

theorem readFrom_spaced {st : State} {stack : List Frame} {v : Json} {text rest : List Char}
    (starts : st.Starts stack) (boundary : Boundary rest) :
    Spaced v text → st.readFrom (text ++ rest) = (State.after v stack).readFrom rest
  | .intro front value back => by
      have passed := readFrom_written starts (boundary_append back boundary) value
      rw [List.append_assoc, List.append_assoc, readFrom_append front, passed,
        readFrom_append back]

theorem readFrom_items {st : State} {stack : List Frame} {done items : List Json}
    {text : List Char} (rest : List Char) (starts : st.Starts (.array done :: stack))
    (empty : items = [] → done = [] ∧ st = .firstItem stack) :
    WrittenItems items text → st.readFrom (text ++ ']' :: rest) =
      (State.after (.array (done.reverse ++ items)) stack).readFrom rest
  | .none space => by
      obtain ⟨rfl, rfl⟩ := empty rfl
      rw [readFrom_append space]
      exact readFrom_step .closeSquare nofun rfl
  | .one value => by
      rw [readFrom_spaced starts (boundary_cons (by decide)) value, ← List.reverse_cons]
      exact readFrom_step .closeSquare nofun rfl
  | @WrittenItems.more v w items cs ds value later => by
      have first : st.readFrom (cs ++ ',' :: (ds ++ ']' :: rest)) = _ :=
        readFrom_spaced starts (boundary_cons (by decide)) value
      have next : (State.after v (.array done :: stack)).readFrom (',' :: (ds ++ ']' :: rest)) =
          (State.value (.array (v :: done) :: stack)).readFrom (ds ++ ']' :: rest) :=
        readFrom_step .comma nofun rfl
      have others := readFrom_items rest (starts_value (.array (v :: done) :: stack))
        (fun none => absurd none (List.cons_ne_nil w items)) later
      rw [List.append_assoc, List.cons_append, first, next, others, List.reverse_cons,
        List.append_assoc, List.singleton_append]

theorem readFrom_member {st : State} {stack : List Frame} {done : List (List Piece × Json)}
    {m : List Piece × Json} {text rest : List Char} (starts : st.StartsKey stack done)
    (boundary : Boundary rest) :
    WrittenMember m text → st.readFrom (text ++ rest) =
      (State.after m.2 (.object done m.1 :: stack)).readFrom rest
  | @WrittenMember.intro name v before ks after cs front pieces back value => by
      have key : st.readFrom ('"' :: ks ++ ['"'] ++ (after ++ ':' :: (cs ++ rest))) =
          (State.colon stack done name).readFrom (after ++ ':' :: (cs ++ rest)) :=
        readFrom_step (.string pieces) nofun (starts name)
      have colon : (State.colon stack done name).readFrom (':' :: (cs ++ rest)) =
          (State.value (.object done name :: stack)).readFrom (cs ++ rest) :=
        readFrom_step .colon nofun rfl
      have passed := readFrom_spaced (starts_value (.object done name :: stack)) boundary value
      have text : before ++ '"' :: ks ++ '"' :: after ++ ':' :: cs ++ rest =
          before ++ ('"' :: ks ++ ['"'] ++ (after ++ ':' :: (cs ++ rest))) := by simp
      rw [text, readFrom_append front, key, readFrom_append back, colon, passed]

theorem readFrom_members {st : State} {stack : List Frame}
    {done members : List (List Piece × Json)} {text : List Char} (rest : List Char)
    (starts : st.StartsKey stack done) (empty : members = [] → done = [] ∧ st = .firstKey stack) :
    WrittenMembers members text → st.readFrom (text ++ '\x7d' :: rest) =
      (State.after (.object (done.reverse ++ members)) stack).readFrom rest
  | .none space => by
      obtain ⟨rfl, rfl⟩ := empty rfl
      rw [readFrom_append space]
      exact readFrom_step .closeCurly nofun rfl
  | .one member => by
      rw [readFrom_member starts (boundary_cons (by decide)) member, ← List.reverse_cons]
      exact readFrom_step .closeCurly nofun rfl
  | @WrittenMembers.more m n members cs ds member later => by
      have first : st.readFrom (cs ++ ',' :: (ds ++ '\x7d' :: rest)) = _ :=
        readFrom_member starts (boundary_cons (by decide)) member
      have next : (State.after m.2 (.object done m.1 :: stack)).readFrom
            (',' :: (ds ++ '\x7d' :: rest)) =
          (State.key stack (m :: done)).readFrom (ds ++ '\x7d' :: rest) :=
        readFrom_step .comma nofun rfl
      have others := readFrom_members rest (starts_key stack (m :: done))
        (fun none => absurd none (List.cons_ne_nil n members)) later
      rw [List.append_assoc, List.cons_append, first, next, others, List.reverse_cons,
        List.append_assoc, List.singleton_append]

end

/-- The reader finds a value just where the text consists of one, and it finds that value. -/
theorem read?_eq_some_iff {cs : List Char} {v : Json} : read? cs = some v ↔ Spaced v cs := by
  refine ⟨spaced_of_read?, fun spaced => ?_⟩
  calc (State.value []).readFrom cs
    _ = (State.value []).readFrom (cs ++ []) := by rw [List.append_nil]
    _ = (State.after v []).readFrom [] := readFrom_spaced (starts_value []) nofun spaced
    _ = some v := rfl

end MockImport.Json
