import MediaCommand.Number.Shortest
import MediaCommand.Proofs.Number.Hundredths

/-!
# How numbers are laid out

The text of a number is made of few characters (`IsNumeric`). Without an exponent it shows a digit
for each place (`FloatLayout.positional_eq_fixedPoint`), so the number of places can be read off it
(`places_of_fixedPoint_eq`).
-/

namespace MediaCommand

/-! ## Digits -/

/-- The last digit behind the others, where there is room for both. -/
theorem paddedDigits_succ {k n : Nat} (pos : 0 < k) :
    paddedDigits (k + 1) n = paddedDigits k (n / 10) ++ [(n % 10).digitChar] := by
  have last := @Nat.toDigits_eq_if 10 n (by decide)
  by_cases few : n < 10
  · rw [if_pos few] at last
    have zeros : paddedDigits k 0 = List.replicate k '0' := by
      rw [paddedDigits, decimalDigits, Nat.toDigits_zero, List.length_singleton,
        ← List.replicate_succ', Nat.sub_add_cancel pos]
    rw [Nat.div_eq_of_lt few, Nat.mod_eq_of_lt few, zeros, paddedDigits, decimalDigits, last]
    rfl
  · rw [if_neg few] at last
    rw [paddedDigits, paddedDigits, decimalDigits, decimalDigits, last, List.length_append,
      List.length_singleton, Nat.add_sub_add_right, List.append_assoc]

/-- The digits of a number of more than `k` digits are those of both parts. -/
theorem decimalDigits_split {k c : Nat} (pos : 0 < k) (long : 10 ^ k ≤ c) :
    decimalDigits c = decimalDigits (c / 10 ^ k) ++ paddedDigits k (c % 10 ^ k) := by
  induction k, pos using Nat.le_induction generalizing c with
  | base =>
    have digit : paddedDigits 1 (c % 10) = [(c % 10).digitChar] := by
      rw [paddedDigits, decimalDigits, Nat.toDigits_of_lt_base (Nat.mod_lt c (by decide))]
      rfl
    rw [Nat.pow_one] at long ⊢
    rw [digit]
    exact Nat.toDigits_of_base_le (by decide) long
  | succ k pos ih =>
    have many : 10 ≤ c := by
      have : 10 ^ 1 ≤ 10 ^ (k + 1) := Nat.pow_le_pow_right (by decide) (by omega)
      omega
    have shorter : 10 ^ k ≤ c / 10 := by
      rw [Nat.le_div_iff_mul_le (by decide), ← Nat.pow_succ]
      exact long
    have rest : c % 10 ^ (k + 1) / 10 = c / 10 % 10 ^ k := by
      rw [Nat.pow_succ', Nat.mod_mul_right_div_self]
    have last : c % 10 ^ (k + 1) % 10 = c % 10 := Nat.mod_mod_of_dvd c (dvd_pow_self 10 (by omega))
    rw [paddedDigits_succ pos, rest, last, ← List.append_assoc, Nat.pow_succ', ← Nat.div_div_eq_div_mul,
      ← ih shorter]
    exact Nat.toDigits_of_base_le (by decide) many

/-! ## Fixed points -/

theorem mem_fixedPoint {places n : Nat} {c : Char} (mem : c ∈ fixedPoint places n) :
    isAsciiDigit c = true ∨ c = '.' := by
  unfold fixedPoint at mem
  split at mem
  · exact .inl (isAsciiDigit_of_mem_decimalDigits mem)
  · simp only [List.mem_append, List.mem_cons] at mem
    rcases mem with mem | rfl | mem
    · exact .inl (isAsciiDigit_of_mem_decimalDigits mem)
    · exact .inr rfl
    · exact .inl (mem_paddedDigits mem)

theorem point_notMem_decimalDigits (n : Nat) : '.' ∉ decimalDigits n := fun mem =>
  absurd (isAsciiDigit_of_mem_decimalDigits mem) (by decide)

theorem point_notMem_paddedDigits (width n : Nat) : '.' ∉ paddedDigits width n := fun mem =>
  absurd (mem_paddedDigits mem) (by decide)

/-- A text with a fixed number of places shows that number. -/
theorem places_of_fixedPoint_eq {j k m n : Nat} (first : 0 < j) (second : 0 < k)
    (same : fixedPoint j m = fixedPoint k n) : j = k := by
  rw [fixedPoint, fixedPoint, if_neg first.ne', if_neg second.ne',
    List.append_cons_inj_of_notMem (point_notMem_decimalDigits _)
      (point_notMem_paddedDigits _ _)] at same
  have long := congrArg List.length same.2.2
  rwa [length_paddedDigits first (Nat.mod_lt _ (Nat.pow_pos (by decide))),
    length_paddedDigits second (Nat.mod_lt _ (Nat.pow_pos (by decide)))] at long

theorem signed_inj {negative : Bool} {first second : List Char} :
    signed negative first = signed negative second ↔ first = second := by
  cases negative with
  | false => exact Iff.rfl
  | true => exact List.cons_inj_right _

namespace FloatLayout

/-- With a negative exponent the layout without one shows a digit for each of its places. -/
theorem positional_eq_fixedPoint {x : Scaled} {k : Nat} (pos : 0 < k) (places : x.exponent = -k) :
    positional x = fixedPoint k x.coefficient := by
  rw [positional, fixedPoint, if_neg (by omega), if_neg pos.ne']
  by_cases long : 0 < ((decimalDigits x.coefficient).length : Int) + x.exponent
  · rw [if_pos long]
    have fits : k < (decimalDigits x.coefficient).length := by omega
    have large : 10 ^ k ≤ x.coefficient := by
      rw [← Nat.not_lt, ← digitCount_le_iff pos, digitCount]
      omega
    have split := decimalDigits_split pos large
    have behind := length_paddedDigits pos (Nat.mod_lt x.coefficient (Nat.pow_pos (by decide)))
    have front : (((decimalDigits x.coefficient).length : Int) + x.exponent).toNat =
        (decimalDigits (x.coefficient / 10 ^ k)).length := by
      rw [split, List.length_append, behind]
      omega
    rw [front, split, List.take_left, List.drop_left]
  · rw [if_neg long]
    have small : x.coefficient < 10 ^ k := by
      rw [← digitCount_le_iff pos, digitCount]
      omega
    have zeros : (-(((decimalDigits x.coefficient).length : Int) + x.exponent)).toNat =
        k - (decimalDigits x.coefficient).length := by
      omega
    rw [Nat.div_eq_of_lt small, Nat.mod_eq_of_lt small, zeros]
    rfl

/-- The layout without an exponent has a point. -/
theorem point_mem_positional (x : Scaled) : '.' ∈ positional x := by
  unfold positional
  dsimp only
  split
  · simp
  · split
    · simp
    · simp

/-- The layout with an exponent has a mark. -/
theorem mark_mem_scientific (width : Nat) (x : Scaled) : 'e' ∈ scientific width x := by
  simp [scientific]

end FloatLayout

/-! ## Characters of numbers -/

/-- A character of a number's text. -/
def IsNumeric (c : Char) : Prop := isAsciiDigit c = true ∨ c ∈ ['.', '-', '+', 'e', 'E']

theorem isNumeric_of_digit {n : Nat} : ∀ c ∈ decimalDigits n, IsNumeric c := fun _ mem =>
  .inl (isAsciiDigit_of_mem_decimalDigits mem)

theorem isNumeric_signed {digits : List Char} (numeric : ∀ c ∈ digits, IsNumeric c)
    (negative : Bool) : ∀ c ∈ signed negative digits, IsNumeric c := by
  intro c mem
  rcases mem_signed_iff.1 mem with ⟨-, rfl⟩ | mem
  · exact .inr (by simp)
  · exact numeric c mem

theorem isNumeric_fixedPoint {places n : Nat} : ∀ c ∈ fixedPoint places n, IsNumeric c := by
  intro c mem
  rcases mem_fixedPoint mem with digit | point
  · exact .inl digit
  · exact .inr (by simp [point])

theorem isNumeric_zeros (n : Nat) : ∀ c ∈ List.replicate n '0', IsNumeric c := by
  intro c mem
  rw [List.eq_of_mem_replicate mem]
  exact .inl (by decide)

theorem isNumeric_append {front back : List Char} (first : ∀ c ∈ front, IsNumeric c)
    (second : ∀ c ∈ back, IsNumeric c) : ∀ c ∈ front ++ back, IsNumeric c := by
  intro c mem
  rcases List.mem_append.1 mem with mem | mem
  · exact first c mem
  · exact second c mem

theorem isNumeric_cons {a : Char} {rest : List Char} (first : IsNumeric a)
    (behind : ∀ c ∈ rest, IsNumeric c) : ∀ c ∈ a :: rest, IsNumeric c :=
  List.forall_mem_cons.2 ⟨first, behind⟩

theorem isNumeric_positional (x : Scaled) : ∀ c ∈ FloatLayout.positional x, IsNumeric c := by
  by_cases whole : 0 ≤ x.exponent
  · rw [FloatLayout.positional, if_pos whole]
    refine isNumeric_append (isNumeric_append isNumeric_of_digit (isNumeric_zeros _)) ?_
    exact isNumeric_cons (.inr (by simp)) (isNumeric_zeros 1)
  · rw [FloatLayout.positional_eq_fixedPoint (k := (-x.exponent).toNat) (by omega) (by omega)]
    exact isNumeric_fixedPoint

theorem isNumeric_scientific (width : Nat) (x : Scaled) :
    ∀ c ∈ FloatLayout.scientific width x, IsNumeric c := by
  have digits : ∀ c ∈ decimalDigits x.coefficient, IsNumeric c := isNumeric_of_digit
  have power : ∀ c ∈ paddedDigits width x.leadingPower.natAbs, IsNumeric c := fun c mem =>
    .inl (mem_paddedDigits mem)
  refine isNumeric_append (isNumeric_append (fun c mem => digits c (List.mem_of_mem_take mem)) ?_)
    (isNumeric_cons (.inr (by simp)) (isNumeric_cons (.inr ?_) power))
  · split
    · simp
    · exact isNumeric_cons (.inr (by simp)) fun c mem => digits c (List.mem_of_mem_drop mem)
  · split <;> simp

theorem isNumeric_write (layout : FloatLayout) (x : Scaled) : ∀ c ∈ layout.write x, IsNumeric c := by
  refine isNumeric_signed ?_ _
  split
  · exact isNumeric_positional x
  · exact isNumeric_scientific _ x

/-! ## Integers -/

theorem toList_toString_int (n : Int) :
    (toString n).toList = signed (decide (n < 0)) (decimalDigits n.natAbs) := by
  cases n with
  | ofNat m => exact Nat.toList_repr
  | negSucc m =>
    rw [decide_eq_true (Int.negSucc_lt_zero m)]
    change ("-" ++ Nat.repr (m + 1)).toList = '-' :: decimalDigits (m + 1)
    rw [String.toList_append, Nat.toList_repr]
    rfl

/-- The text of an integer has neither a point nor the mark of an exponent. -/
theorem unmarked_toString_int {n : Int} {c : Char} (mem : c ∈ (toString n).toList) :
    isAsciiDigit c = true ∨ c = '-' := by
  rw [toList_toString_int, mem_signed_iff] at mem
  rcases mem with ⟨-, minus⟩ | mem
  · exact .inr minus
  · exact .inl (isAsciiDigit_of_mem_decimalDigits mem)

end MediaCommand
