import MediaCommand.Probe.Json
import MediaCommand.Proofs.Action

/-!
# Documents that are read to their end

Every reader of a document takes something off the text (`Json.Shortens`). So the fuel of a document
never runs out: two readings agree whenever the fuel of both covers the text (`Json.readersAgree`).
What does run out is the depth: one container more than may be open is refused, whatever is in it
(`Json.document_nested`).
-/

namespace MediaCommand

namespace Json

/-! ## What is left -/

/-- What is left behind a result is shorter than the text. -/
def Shortens {α : Type} (read : Reader α) : Prop :=
  ∀ text a rest, read text = .ok (a, rest) → rest.length < text.length

theorem length_skipSpace_le (text : List Char) : (skipSpace text).length ≤ text.length :=
  (List.dropWhile_sublist _).length_le

theorem length_code? {text rest : List Char} {code : Nat} (found : code? text = some (code, rest)) :
    rest.length + 4 = text.length := by
  unfold code? at found
  split at found
  · next a b c d next rest =>
    simp only [Option.bind_eq_bind, Option.bind_eq_some_iff, Option.pure_def, Option.some.injEq,
      Prod.mk.injEq] at found
    obtain ⟨_, -, _, -, _, -, _, -, -, rfl⟩ := found
    simp
  · cases found

theorem shortens_codeEscape : Shortens codeEscape := by
  intro text c rest read
  unfold codeEscape at read
  split at read
  · cases read
  · next code behind found =>
    have first := length_code? found
    rw [List.length_drop] at first
    split at read
    · split at read
      · next more =>
        rw [List.length_cons, List.length_cons] at first
        split at read
        · cases read
          simp only [List.length_cons]
          omega
        · split at read
          · cases read
          · next low after second =>
            have second := length_code? second
            split at read
            · obtain ⟨-, rfl⟩ := Prod.mk.inj (Except.ok.inj read)
              omega
            · cases read
              simp only [List.length_cons]
              omega
      · cases read
        omega
    · cases read
      omega

theorem shortens_string (fuel opening : Nat) (done : List Char) :
    Shortens (string fuel opening done) := by
  induction fuel generalizing done with
  | zero =>
    intro text s rest read
    cases read
  | succ fuel ih =>
    intro text s rest read
    unfold string at read
    split at read
    · cases read
    · cases read
      simp
    · split at read
      · cases read
      · next more =>
        obtain ⟨⟨c, left⟩, escape, read⟩ := except_bind_eq_ok.1 read
        have first := shortens_codeEscape _ _ _ escape
        have second := ih _ _ _ _ read
        simp only [List.length_cons] at first ⊢
        omega
      · split at read
        · have behind := ih _ _ _ _ read
          simp only [List.length_cons]
          omega
        · cases read
    · split at read
      · cases read
      · have behind := ih _ _ _ _ read
        simp only [List.length_cons]
        omega

theorem length_digits_le (text : List Char) : (digits text).2.length ≤ text.length :=
  (List.dropWhile_sublist _).length_le

theorem length_fraction_le (text : List Char) : (fraction text).2.length ≤ text.length := by
  unfold fraction
  split
  · next rest =>
    have digits := length_digits_le rest
    split
    · exact Nat.le_refl _
    · next found =>
      rw [found] at digits
      exact Nat.le_succ_of_le digits
  · exact Nat.le_refl _

theorem length_exponent_le (text : List Char) : (exponent text).2.length ≤ text.length := by
  unfold exponent
  split
  · next mark rest =>
    split
    · split
      next sign behind signed =>
        have digits := length_digits_le behind
        have sign : behind.length ≤ rest.length := by
          split at signed <;> cases signed <;> simp
        split
        · exact Nat.le_refl _
        · next found =>
          rw [found] at digits
          exact Nat.le_succ_of_le (Nat.le_trans digits sign)
    · exact Nat.le_refl _
  · exact Nat.le_refl _

/-- The digits in front of a number are taken off. -/
theorem length_whole {body whole rest : List Char}
    (taken : (match body with
      | '0' :: rest => (['0'], rest)
      | body => digits body) = (whole, rest)) : whole.length + rest.length = body.length := by
  split at taken
  · cases taken
    simp [Nat.add_comm]
  · cases taken
    rw [← List.length_append, List.takeWhile_append_dropWhile]

theorem shortens_number : Shortens number := by
  intro text value rest read
  unfold number at read
  split at read
  next negative body sign =>
    have sign : body.length ≤ text.length := by
      split at sign <;> cases sign <;> simp
    split at read
    next whole behind taken =>
      have whole_behind := length_whole taken
      split at read
      · cases read
      · next some =>
        have some : 0 < whole.length := by
          rw [List.isEmpty_iff] at some
          exact List.length_pos_iff.2 some
        have fraction_le := length_fraction_le behind
        split at read
        next fraction middle found =>
          have exponent_le := length_exponent_le middle
          rw [found] at fraction_le
          split at read
          next power last found =>
            rw [found] at exponent_le
            have shorter : last.length < text.length := by
              dsimp only at fraction_le exponent_le
              omega
            split at read
            · split at read
              · cases read
              · cases read
                exact shorter
            · split at read
              · cases read
                exact shorter
              · cases read

theorem shortens_word? {text rest : List Char} {value : Value}
    (found : word? text = some (value, rest)) : rest.length < text.length := by
  obtain ⟨word, mem, taken⟩ := List.exists_of_findSome?_eq_some found
  split at taken
  · next starts =>
    cases taken
    have nonempty : 0 < word.1.length :=
      (by decide : ∀ word ∈ words, 0 < word.1.length) word mem
    have within := (List.isPrefixOf_iff_prefix.1 starts).length_le
    rw [String.length_toList] at within
    rw [List.length_drop]
    omega
  · cases taken

section Step

variable {fuel : Nat}

/-- Reading a value takes something off if reading what is inside a container does. -/
theorem shortens_value (objects : ∀ depth done, Shortens (members depth fuel done))
    (arrays : ∀ depth done, Shortens (elements depth fuel done)) (depth : Nat) :
    Shortens (value depth (fuel + 1)) := by
  intro text a rest read
  unfold value at read
  dsimp only at read
  split at read
  · next inside =>
    obtain ⟨⟨s, left⟩, string, read⟩ := except_bind_eq_ok.1 read
    cases read
    exact Nat.lt_succ_of_lt (shortens_string _ _ _ _ _ _ string)
  · next inside =>
    have blanks := length_skipSpace_le inside
    split at read
    · cases read
    · split at read
      · next closed =>
        cases read
        rw [closed] at blanks
        simp only [List.length_cons] at blanks ⊢
        omega
      · have behind := objects _ _ _ _ _ read
        simp only [List.length_cons]
        omega
  · next inside =>
    have blanks := length_skipSpace_le inside
    split at read
    · cases read
    · split at read
      · next closed =>
        cases read
        rw [closed] at blanks
        simp only [List.length_cons] at blanks ⊢
        omega
      · have behind := arrays _ _ _ _ _ read
        simp only [List.length_cons]
        omega
  · split at read
    · next found =>
      cases read
      exact shortens_word? found
    · exact shortens_number _ _ _ read

theorem shortens_members (values : ∀ depth, Shortens (value depth fuel))
    (objects : ∀ depth done, Shortens (members depth fuel done)) (depth : Nat)
    (done : Keyed String Value) : Shortens (members depth (fuel + 1) done) := by
  intro text a rest read
  unfold members at read
  dsimp only at read
  split at read
  · next inside =>
    obtain ⟨⟨name, left⟩, string, read⟩ := except_bind_eq_ok.1 read
    have first := shortens_string _ _ _ _ _ _ string
    have blanks := length_skipSpace_le left
    dsimp only at read
    split at read
    · next valued colon =>
      obtain ⟨⟨item, behind⟩, worth, read⟩ := except_bind_eq_ok.1 read
      have second := values _ _ _ _ worth
      have middle := length_skipSpace_le valued
      have more := length_skipSpace_le behind
      rw [colon] at blanks
      dsimp only at read
      split at read
      · next closed =>
        cases read
        rw [closed] at more
        simp only [List.length_cons] at *
        omega
      · next further comma =>
        have third := objects _ _ _ _ _ read
        have last := length_skipSpace_le further
        rw [comma] at more
        simp only [List.length_cons] at *
        omega
      · cases read
    · cases read
  · cases read

theorem shortens_elements (values : ∀ depth, Shortens (value depth fuel))
    (arrays : ∀ depth done, Shortens (elements depth fuel done)) (depth : Nat)
    (done : List Value) : Shortens (elements depth (fuel + 1) done) := by
  intro text a rest read
  unfold elements at read
  obtain ⟨⟨item, behind⟩, worth, read⟩ := except_bind_eq_ok.1 read
  have first := values _ _ _ _ worth
  have blanks := length_skipSpace_le behind
  dsimp only at read
  split at read
  · next closed =>
    cases read
    rw [closed] at blanks
    simp only [List.length_cons] at blanks
    omega
  · next further comma =>
    have second := arrays _ _ _ _ _ read
    have last := length_skipSpace_le further
    rw [comma] at blanks
    simp only [List.length_cons] at blanks
    omega
  · cases read

end Step

/-- The readers of values, of members and of elements take something off, whatever their fuel. -/
theorem shortens_readers (fuel : Nat) :
    (∀ depth, Shortens (value depth fuel)) ∧
    (∀ depth done, Shortens (members depth fuel done)) ∧
    ∀ depth done, Shortens (elements depth fuel done) := by
  induction fuel with
  | zero =>
    refine ⟨fun _ _ _ _ read => ?_, fun _ _ _ _ _ read => ?_, fun _ _ _ _ _ read => ?_⟩
    · unfold value at read
      cases read
    · unfold members at read
      cases read
    · unfold elements at read
      cases read
  | succ fuel ih =>
    obtain ⟨values, objects, arrays⟩ := ih
    exact ⟨shortens_value objects arrays, shortens_members values objects,
      shortens_elements values arrays⟩

/-! ## Fuel -/

section Agreement

variable {fuel other : Nat}

/-- That two readers with different fuel read alike what both can read to its end: a value takes two
steps for each character and one more, the inside of a container another one. -/
structure ReadersAgree (fuel other : Nat) : Prop where
  values depth text : 2 * text.length + 1 ≤ fuel → 2 * text.length + 1 ≤ other →
    value depth fuel text = value depth other text
  objects depth done text : 2 * text.length + 2 ≤ fuel → 2 * text.length + 2 ≤ other →
    members depth fuel done text = members depth other done text
  arrays depth done text : 2 * text.length + 2 ≤ fuel → 2 * text.length + 2 ≤ other →
    elements depth fuel done text = elements depth other done text

variable (agree : ReadersAgree fuel other)
include agree

theorem ReadersAgree.value_succ (depth : Nat) (text : List Char)
    (enough : 2 * text.length ≤ fuel) (also : 2 * text.length ≤ other) :
    value depth (fuel + 1) text = value depth (other + 1) text := by
  unfold value
  dsimp only
  split
  · rfl
  · next inside =>
    have blanks := length_skipSpace_le inside
    rw [List.length_cons] at enough also
    cases depth with
    | zero => rfl
    | succ depth =>
      dsimp only
      split
      · rfl
      · exact agree.objects _ _ _ (by omega) (by omega)
  · next inside =>
    have blanks := length_skipSpace_le inside
    rw [List.length_cons] at enough also
    cases depth with
    | zero => rfl
    | succ depth =>
      dsimp only
      split
      · rfl
      · exact agree.arrays _ _ _ (by omega) (by omega)
  · rfl

theorem ReadersAgree.members_succ (depth : Nat) (done : Keyed String Value) (text : List Char)
    (enough : 2 * text.length + 1 ≤ fuel) (also : 2 * text.length + 1 ≤ other) :
    members depth (fuel + 1) done text = members depth (other + 1) done text := by
  unfold members
  dsimp only
  split
  · next inside =>
    rw [List.length_cons] at enough also
    cases named : string inside.length.succ ('"' :: inside).length [] inside with
    | error failure => rfl
    | ok pair =>
      have first := shortens_string _ _ _ _ _ _ named
      have blanks := length_skipSpace_le pair.2
      dsimp only [bind, Except.bind]
      split
      · next valued colon =>
        have middle := length_skipSpace_le valued
        rw [colon, List.length_cons] at blanks
        rw [agree.values depth (skipSpace valued) (by omega) (by omega)]
        cases worth : value depth other (skipSpace valued) with
        | error failure => rfl
        | ok item =>
          have second := (shortens_readers other).1 _ _ _ _ worth
          have more := length_skipSpace_le item.2
          dsimp only
          split
          · rfl
          · next further comma =>
            have last := length_skipSpace_le further
            rw [comma, List.length_cons] at more
            exact agree.objects _ _ _ (by omega) (by omega)
          · rfl
      · rfl
  · rfl

theorem ReadersAgree.elements_succ (depth : Nat) (done : List Value) (text : List Char)
    (enough : 2 * text.length + 1 ≤ fuel) (also : 2 * text.length + 1 ≤ other) :
    elements depth (fuel + 1) done text = elements depth (other + 1) done text := by
  unfold elements
  rw [agree.values depth text enough also]
  cases worth : value depth other text with
  | error failure => rfl
  | ok item =>
    have first := (shortens_readers other).1 _ _ _ _ worth
    have blanks := length_skipSpace_le item.2
    dsimp only [bind, Except.bind]
    split
    · rfl
    · next further comma =>
      have last := length_skipSpace_le further
      rw [comma, List.length_cons] at blanks
      exact agree.arrays _ _ _ (by omega) (by omega)
    · rfl

end Agreement

theorem readersAgree (fuel other : Nat) : ReadersAgree fuel other := by
  induction fuel generalizing other with
  | zero => exact ⟨by omega, by omega, by omega⟩
  | succ fuel ih =>
    cases other with
    | zero => exact ⟨by omega, by omega, by omega⟩
    | succ other =>
      have agree := ih other
      exact {
        values := fun depth text enough also =>
          agree.value_succ depth text (by omega) (by omega)
        objects := fun depth done text enough also =>
          agree.members_succ depth done text (by omega) (by omega)
        arrays := fun depth done text enough also =>
          agree.elements_succ depth done text (by omega) (by omega) }

/-- More fuel than `fuelFor` changes nothing. -/
theorem value_of_fuel {fuel : Nat} {text : List Char} (enough : fuelFor text ≤ fuel) (depth : Nat) :
    value depth fuel text = value depth (fuelFor text) text :=
  (readersAgree _ _).values depth text enough (Nat.le_refl _)

/-- A text that ends inside its lists is refused at its end. -/
example : document 4 "[[[[".toList = .error (.refused .expectingValue 0) := by rfl

/-! ## Depth -/

/-- One list more than may be open is refused, whatever is in it. -/
theorem value_nested (depth fuel : Nat) (enough : 2 * depth + 1 ≤ fuel) (rest : List Char) :
    value depth fuel (List.replicate (depth + 1) '[' ++ rest) =
      .error (.nestedTooDeep "array") := by
  induction depth generalizing fuel with
  | zero =>
    obtain ⟨fuel, rfl⟩ : ∃ k, fuel = k + 1 := ⟨fuel - 1, by omega⟩
    unfold value
    rfl
  | succ depth ih =>
    obtain ⟨fuel, rfl⟩ : ∃ k, fuel = k + 2 := ⟨fuel - 2, by omega⟩
    have inside := ih fuel (by omega)
    rw [List.replicate_succ, List.cons_append] at inside ⊢
    unfold value
    -- The next bracket is not a blank, so the list begins with it.
    change elements depth (fuel + 1) [] ('[' :: (List.replicate depth '[' ++ rest)) = _
    unfold elements
    rw [inside]
    rfl

/-- A document with more lists open than the depth allows is refused for it. -/
theorem document_nested (depth : Nat) (rest : List Char) :
    document depth (List.replicate (depth + 1) '[' ++ rest) = .error (.nestedTooDeep "array") := by
  have enough : 2 * depth + 1 ≤ fuelFor (List.replicate (depth + 1) '[' ++ rest) := by
    rw [fuelFor, List.length_append, List.length_replicate]
    omega
  have nested := value_nested depth _ enough rest
  rw [List.replicate_succ, List.cons_append] at nested ⊢
  rw [document, if_neg (by simp)]
  have start : skipSpace ('[' :: (List.replicate depth '[' ++ rest)) =
      '[' :: (List.replicate depth '[' ++ rest) := rfl
  rw [start]
  dsimp only
  rw [nested]

end Json

end MediaCommand
