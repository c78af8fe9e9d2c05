import MediaCommand.Filter.Setting
import MediaCommand.Proofs.Filter.Looking
import MediaCommand.Proofs.Number.Comparison

/-!
# Settings with a range

A ranged setting compares its value with the ends of a closed interval. Of the integers, doubles and
finite decimals it takes those inside and refuses the others before anything is written, but for two
gaps: a NaN is below no bound and above none, and the settings that are meant for expressions, too,
check integers and doubles alone. An integer that is too long to be shown is refused for that, not
for its size (`assign_guards_iff`).
-/

namespace MediaCommand

open MediaCommand.Action

/-! ## Bounds -/

namespace RangedSetting

/-- The closed interval of a setting. -/
def interval : RangedSetting → Rat × Rat
  | .divisibleBy => (1, 256)
  | .transitionLength => (0, 60)
  | .contrast => (-1000, 1000)
  | .brightness => (-1, 1)
  | .saturation => (0, 3)
  | .gamma => (1 / 10, 10)
  | .gammaWeight => (1 / 10, 1)

/-- The double nearest to a tenth, which stands for one. -/
def tenth : Rat := 3602879701896397 / 2 ^ 55

/-- What the bounds are exactly: the interval, but for the double that stands for a tenth. -/
theorem bounds_exact (setting : RangedSetting) : ∃ low high,
    setting.bounds.1.quantity? = some (.finite low) ∧
    setting.bounds.2.quantity? = some (.finite high) ∧ high.toRat = setting.interval.2 ∧
    (low.toRat = setting.interval.1 ∨ setting.isStrict = false ∧
      setting.interval.1 = 1 / 10 ∧ low.toRat = tenth) := by
  cases setting with
  | divisibleBy | transitionLength | contrast | brightness | saturation =>
    exact ⟨_, _, rfl, rfl, by decide +kernel, .inl (by decide +kernel)⟩
  | gamma | gammaWeight =>
    exact ⟨_, _, rfl, rfl, by decide +kernel, .inr ⟨rfl, by decide +kernel, by decide +kernel⟩⟩

theorem checkRange_nan (setting : RangedSetting) :
    (Value.float .nan).checkRange setting.bounds.1 setting.bounds.2 = .ok () := by
  cases setting <;> rfl

/-- No double lies between a tenth and the double that stands for it. -/
theorem tenth_le_double {x : FiniteDouble} (reaches : 1 / 10 ≤ x.toRat) : tenth ≤ x.toRat := by
  have bits := x.significand_lt
  rw [FiniteDouble.toRat, Rat.mkRat_eq_div] at reaches ⊢
  generalize x.significand = s at *
  have unit : (0 : Rat) < 2 ^ (-x.exponent).toNat := by positivity
  push_cast at reaches ⊢
  split at reaches
  · next negative =>
    have : (0 : Rat) ≤ s * 2 ^ x.exponent.toNat / 2 ^ (-x.exponent).toNat := by positivity
    linarith
  · next positive =>
    rw [if_neg positive]
    rw [div_le_div_iff₀ (by norm_num) unit] at reaches
    rw [tenth, div_le_div_iff₀ (by norm_num) unit]
    have reaches : 2 ^ (-x.exponent).toNat ≤ s * 2 ^ x.exponent.toNat * 10 := by
      exact_mod_cast (one_mul _).symm.trans_le reaches
    suffices 3602879701896397 * 2 ^ (-x.exponent).toNat ≤ s * 2 ^ x.exponent.toNat * 2 ^ 55 by
      exact_mod_cast this
    rcases Int.le_total 0 x.exponent with up | down
    · have none : (-x.exponent).toNat = 0 := by omega
      rw [none] at reaches ⊢
      omega
    · have none : x.exponent.toNat = 0 := by omega
      rw [none] at reaches ⊢
      generalize (-x.exponent).toNat = k at reaches ⊢
      have few : k ≤ 56 := by
        by_contra many
        have : 2 ^ 57 ≤ 2 ^ k := Nat.pow_le_pow_right (by decide) (by omega)
        omega
      -- In units of `2 ^ -56` both are integers.
      have split : 2 ^ k * 2 ^ (56 - k) = 2 ^ 56 := by rw [← Nat.pow_add]; congr 1; omega
      have pos : 0 < 2 ^ (56 - k) := Nat.two_pow_pos _
      generalize 2 ^ (56 - k) = t at split pos
      generalize 2 ^ k = p at reaches split ⊢
      have scaled := Nat.mul_le_mul_right t reaches
      refine Nat.le_of_mul_le_mul_right ?_ pos
      have left : 3602879701896397 * p * t = 3602879701896397 * 2 ^ 56 := by
        rw [Nat.mul_assoc, split]
      have right : s * 2 ^ 0 * 2 ^ 55 * t = s * t * 2 ^ 55 := by ring
      have scaled : p * t ≤ s * t * 10 := by linarith
      rw [left, right]
      omega

end RangedSetting

/-! ## The check -/

namespace Value

/-- An integer, a double or a finite decimal. -/
def IsNumber : Value → Prop
  | .int _ | .float _ | .decimal (.finite _) => True
  | _ => False

/-- The number that a value is exactly, if it is a finite one. -/
def rational? : Value → Option Rat
  | .int n => some n
  | .float (.finite x) => some x.toRat
  | .decimal (.finite x) => some x.toRat
  | _ => none

variable {value low high : Value} {a b : Scaled}

/-- Numbers of all kinds are compared by their exact values. -/
theorem ordered_of_compare {other : Value} {p q : Quantity} {order : Ordering}
    (left : value.quantity? = some p) (right : other.quantity? = some q)
    (compared : p.compare? q = some order) (operator : String) (wanted : Ordering) :
    ordered operator wanted value other = .ok (order == wanted) := by
  have number : ∀ s, value ≠ .text s := by
    rintro s rfl
    cases left
  unfold ordered
  split
  · next s t => exact absurd rfl (number s)
  · simp only [left, right, compared]

/-- Nothing comes after a refusal. -/
theorem bind_outside (next : Unit → Except Failure Unit) :
    (checkRange.outside value low high >>= next) = checkRange.outside value low high := by
  unfold checkRange.outside
  cases low.spelled <;> cases high.spelled <;> cases value.spelled <;> rfl

/-- The check passes just the numbers between the bounds. -/
theorem checkRange_finite {x : Scaled} (number : value.quantity? = some (.finite x))
    (below : low.quantity? = some (.finite a)) (above : high.quantity? = some (.finite b)) :
    value.checkRange low high = if a.toRat ≤ x.toRat ∧ x.toRat ≤ b.toRat then .ok ()
      else checkRange.outside value low high := by
  have first : value.isBelow low = .ok (x.compare a == .lt) :=
    ordered_of_compare number below rfl _ _
  have second : value.isAbove high = .ok (x.compare b == .gt) :=
    ordered_of_compare number above rfl _ _
  rw [Scaled.compare_eq] at first second
  rw [checkRange, first, second]
  by_cases reaches : a.toRat ≤ x.toRat
  · have notBelow : cmp x.toRat a.toRat ≠ .lt := fun less =>
      absurd ((cmp_eq_lt_iff _ _).1 less) (not_lt.2 reaches)
    by_cases within : x.toRat ≤ b.toRat
    · have notAbove : cmp x.toRat b.toRat ≠ .gt := fun greater =>
        absurd ((cmp_eq_gt_iff _ _).1 greater) (not_lt.2 within)
      rw [if_pos ⟨reaches, within⟩, beq_false_of_ne notBelow, beq_false_of_ne notAbove]
      rfl
    · rw [if_neg fun inside => within inside.2, beq_false_of_ne notBelow,
        (cmp_eq_gt_iff _ _).2 (not_le.1 within)]
      rfl
  · rw [if_neg fun inside => reaches inside.1, (cmp_eq_lt_iff _ _).2 (not_le.1 reaches)]
    exact bind_outside _

theorem checkRange_infinite {negative : Bool} (number : value.quantity? = some (.infinite negative))
    (below : low.quantity? = some (.finite a)) (above : high.quantity? = some (.finite b)) :
    value.checkRange low high = checkRange.outside value low high := by
  have first : value.isBelow low = .ok ((if negative then Ordering.lt else .gt) == .lt) :=
    ordered_of_compare number below rfl _ _
  have second : value.isAbove high = .ok ((if negative then Ordering.lt else .gt) == .gt) :=
    ordered_of_compare number above rfl _ _
  rw [checkRange, first, second]
  cases negative with
  | false => rfl
  | true => exact bind_outside _

end Value

/-! ## What is checked -/

namespace RangedSetting

variable {setting : RangedSetting} {value : Value}

/-- Whether a value lies in the interval; a NaN lies in none. -/
def Admits (setting : RangedSetting) (value : Value) : Prop :=
  ∃ q, value.rational? = some q ∧ setting.interval.1 ≤ q ∧ q ≤ setting.interval.2

/-- Whether a value is compared with the bounds at all. -/
def Checks (setting : RangedSetting) (value : Value) : Prop :=
  setting.isStrict = true ∨ ∀ d, value ≠ .decimal d

/-- Whether a value outside the interval passes: a NaN, or a decimal that is not checked. -/
def LetsPass (setting : RangedSetting) (value : Value) : Prop :=
  value = .float .nan ∨ ¬setting.Checks value ∧ ¬setting.Admits value

theorem setRanged_checked (number : value.IsNumber) (checks : setting.Checks value) :
    Node.setRanged setting value =
      Node.addRanged setting.key setting.bounds.1 setting.bounds.2 value := by
  unfold Node.setRanged
  rcases checks with strict | other
  · rw [strict, Bool.true_or, if_pos rfl]
  · cases value with
    | int n | float x =>
      rw [if_pos]
      exact Bool.or_true _
    | decimal d => exact absurd rfl (other d)
    | _ => cases number

theorem setRanged_unchecked (number : value.IsNumber) (free : ¬setting.Checks value) :
    Node.setRanged setting value = Node.addNamed setting.key value := by
  obtain ⟨lenient, decimal⟩ := not_or.1 free
  obtain ⟨d, rfl⟩ : ∃ d, value = .decimal d := by
    by_contra none
    exact decimal fun d same => none ⟨d, same⟩
  rw [Node.setRanged, if_neg]
  rw [Bool.not_eq_true] at lenient ⊢
  rw [lenient]
  rfl

/-- No integer lies between a tenth and the double that stands for it. -/
theorem tenth_le_int {n : Int} (reaches : (1 / 10 : Rat) ≤ n) : tenth ≤ n := by
  have one : 1 ≤ n := by
    have : (0 : Rat) < n := by linarith
    exact_mod_cast this
  have : (1 : Rat) ≤ n := by exact_mod_cast one
  have : tenth ≤ 1 := by decide +kernel
  linarith

/-- Why a value outside the interval is refused: for its place, which the refusal shows, or because
it is too long to be shown. -/
def refusal (setting : RangedSetting) (value : Value) : Failure :=
  if value.spellingFits then .contract (.outOfRange setting.bounds.1.spelling
    setting.bounds.2.spelling value.spelling)
  else .integerTooLong

theorem outside_eq (setting : RangedSetting) (value : Value) :
    Value.checkRange.outside value setting.bounds.1 setting.bounds.2 =
      .error (setting.refusal value) := by
  have ends : setting.bounds.1.spellingFits ∧ setting.bounds.2.spellingFits := by
    cases setting <;> decide
  rw [Value.checkRange.outside, Value.spelled_of_fits ends.1, Value.spelled_of_fits ends.2, refusal]
  split
  · next fits => rw [Value.spelled_of_fits fits]; rfl
  · next long => rw [Value.spelled_of_long long]; rfl

/-- A value is refused just when it lies outside the interval. -/
theorem checkRange_bounds (number : value.IsNumber) (checks : setting.Checks value)
    (ordered : value ≠ .float .nan) :
    setting.Admits value ∧ value.checkRange setting.bounds.1 setting.bounds.2 = .ok () ∨
      ¬setting.Admits value ∧
        value.checkRange setting.bounds.1 setting.bounds.2 = .error (setting.refusal value) := by
  obtain ⟨low, high, below, above, highest, lowest⟩ := setting.bounds_exact
  -- Between the exact bounds and the interval there is none of the values that are checked.
  have finite (x : Scaled) (is : value.quantity? = some (.finite x))
      (exact : value.rational? = some x.toRat)
      (apart : setting.isStrict = false → 1 / 10 ≤ x.toRat → tenth ≤ x.toRat) :
      setting.Admits value ∧ value.checkRange setting.bounds.1 setting.bounds.2 = .ok () ∨
        ¬setting.Admits value ∧
          value.checkRange setting.bounds.1 setting.bounds.2 = .error (setting.refusal value) := by
    have same : setting.Admits value ↔ low.toRat ≤ x.toRat ∧ x.toRat ≤ high.toRat := by
      simp only [Admits, exact, Option.some.injEq, exists_eq_left', highest]
      refine and_congr_left fun _ => ?_
      rcases lowest with same | ⟨lenient, nominal, double⟩
      · rw [same]
      · rw [nominal, double]
        refine ⟨apart lenient, fun reaches => le_trans ?_ reaches⟩
        decide +kernel
    rw [Value.checkRange_finite is below above, outside_eq]
    by_cases admits : setting.Admits value
    · exact .inl ⟨admits, if_pos (same.1 admits)⟩
    · exact .inr ⟨admits, if_neg (mt same.2 admits)⟩
  cases value with
  | int n =>
    have whole : (Scaled.ofInt n).toRat = n := Scaled.toRat_ofInt n
    refine finite (.ofInt n) rfl ?_ fun _ reaches => ?_
    · rw [whole, Value.rational?]
    · rw [whole] at reaches ⊢
      exact tenth_le_int reaches
  | float x =>
    cases x with
    | finite x =>
      have value := x.toRat_toScaled
      refine finite x.toScaled rfl ?_ fun _ reaches => ?_
      · rw [value, Value.rational?]
      · rw [value] at reaches ⊢
        exact tenth_le_double reaches
    | infinite negative =>
      refine .inr ⟨?_, (Value.checkRange_infinite rfl below above).trans (outside_eq _ _)⟩
      rintro ⟨q, none, -⟩
      cases none
    | nan => exact absurd rfl ordered
  | decimal d =>
    cases d with
    | finite x =>
      refine finite x rfl rfl fun lenient => ?_
      rcases checks with strict | other
      · cases lenient.symm.trans strict
      · exact absurd rfl (other _)
    | _ => cases number
  | _ => cases number

end RangedSetting

/-! ## Calls -/

namespace NodeCall

variable {w : Workspace} {ref : Ref .node} {node : Node} {value : Value}

theorem normalize_of_unwritable (tokens : Tokens) (number : value.IsNumber)
    (fits : value.spellingFits) (unwritable : ¬value.IsWritable) :
    normalize value tokens = .error .decimalInvalid tokens := by
  cases value with
  | decimal d =>
    rw [Value.IsWritable, ← Decimal.cents?_isSome_iff, Option.not_isSome_iff_eq_none] at unwritable
    rw [normalize, unwritable]
    rfl
  | int n =>
    have shown : (Value.int n).IsShown := trivial
    exact absurd ((Value.isWritable_iff_spellingFits shown).2 fits) unwritable
  | float x => exact absurd trivial unwritable
  | _ => cases number

/-- A named value that can be written is the argument of its name afterwards. -/
theorem run_addNamed (sound : w.tokens.Sound) (present : w.nodes.get? ref = some node)
    (held : node.phase = .buffering → ∀ value ∈ node.base.map (·.2), value.IsWritable)
    (key : String) (writable : value.IsWritable) :
    ∃ rest, Node.run ref (Node.addNamed key value) w = .ok () rest ∧
      rest.nodes.get? ref =
        some (stored (node.writtenOut w.tokens) (some ⟨some key, w.tokens.spell value⟩)) := by
  obtain ⟨after, done, last⟩ := addNamed_returns (d := ⟨w.tokens, node⟩) sound held key writable
  refine ⟨_, run_of_ok present done, ?_⟩
  rw [← last]
  exact Store.get?_put_self present

/-- A named value that cannot be written leaves the node written out. -/
theorem run_addNamed_unwritable (sound : w.tokens.Sound) (present : w.nodes.get? ref = some node)
    (held : node.phase = .buffering → ∀ value ∈ node.base.map (·.2), value.IsWritable)
    (key : String) (number : value.IsNumber) (fits : value.spellingFits)
    (unwritable : ¬value.IsWritable) :
    ∃ rest, Node.run ref (Node.addNamed key value) w = .error .decimalInvalid rest ∧
      rest.nodes.get? ref = some (node.writtenOut w.tokens) := by
  obtain ⟨mid, flushed⟩ := flush_returns (d := ⟨w.tokens, node⟩) sound held
  obtain ⟨node_eq, -⟩ := flush_eq_writtenOut flushed
  have failed : Node.addNamed key value ⟨w.tokens, node⟩ = .error .decimalInvalid mid := by
    have unwritten := normalize_of_unwritable mid.tokens number fits unwritable
    exact (bind_of_ok flushed).trans (bind_of_error (within_of_error unwritten))
  refine ⟨_, run_of_error present failed, ?_⟩
  rw [← node_eq]
  exact Store.get?_put_self present

end NodeCall

namespace RangedSetting

variable {setting : RangedSetting} {value : Value} {w : Workspace} {ref : Ref .node} {node : Node}

/-- The call that gives a setting its value. -/
def assign (setting : RangedSetting) (ref : Ref .node) (value : Value) : Work Unit :=
  Node.run ref (Node.setRanged setting value)

/-- A value outside the interval that does not slip through is refused. -/
theorem assign_refused (present : w.nodes.get? ref = some node) (number : value.IsNumber)
    (outside : ¬setting.Admits value) (caught : ¬setting.LetsPass value) :
    setting.assign ref value w = .error (setting.refusal value) w := by
  obtain ⟨ordered, checked⟩ := not_or.1 caught
  have checks : setting.Checks value := by
    by_contra free
    exact checked ⟨free, outside⟩
  rcases checkRange_bounds number checks ordered with ⟨inside, -⟩ | ⟨-, refused⟩
  · exact absurd inside outside
  have failed : Node.setRanged setting value ⟨w.tokens, node⟩ =
      .error (setting.refusal value) ⟨w.tokens, node⟩ := by
    rw [setRanged_checked number checks, Node.addRanged, refused]
    rfl
  rw [assign, NodeCall.run_of_error present failed, Store.put_self present]

/-- Any other value is written like one that has no bounds. -/
theorem assign_passed (number : value.IsNumber)
    (passes : setting.Admits value ∨ setting.LetsPass value) :
    setting.assign ref value w = Node.run ref (Node.addNamed setting.key value) w := by
  by_cases checks : setting.Checks value
  · have passed : value.checkRange setting.bounds.1 setting.bounds.2 = .ok () := by
      by_cases nan : value = .float .nan
      · rw [nan]
        exact setting.checkRange_nan
      · rcases checkRange_bounds number checks nan with ⟨-, passed⟩ | ⟨outside, -⟩
        · exact passed
        · rcases passes with inside | nan' | ⟨free, -⟩
          · exact absurd inside outside
          · exact absurd nan' nan
          · exact absurd checks free
    rw [assign, setRanged_checked number checks, Node.addRanged, passed]
    rfl
  · rw [assign, setRanged_unchecked number checks]

/-- What lies in the interval can be written. -/
theorem isWritable_of_admits (number : value.IsNumber) (inside : setting.Admits value) :
    value.IsWritable := by
  obtain ⟨q, exact, above, below⟩ := inside
  have ends : -1000 ≤ setting.interval.1 ∧ setting.interval.2 ≤ 1000 := by
    cases setting <;> decide +kernel
  have size : |q| ≤ 1000 := abs_le.2 ⟨ends.1.trans above, below.trans ends.2⟩
  cases value with
  | int n =>
    cases exact
    have size : |n| ≤ 1000 := by exact_mod_cast size
    refine isConvertible_iff.2 (lt_of_lt_of_le (b := 10 ^ 4) ?_ ?_)
    · rw [Int.abs_eq_natAbs] at size
      omega
    · exact Nat.pow_le_pow_right (by decide) (by decide)
  | decimal d =>
    cases d with
    | finite x =>
      cases exact
      exact size.trans_lt (by norm_num)
    | _ => cases number
  | float x => trivial
  | _ => cases number

/-- Only an integer, which is always checked, is too long to be shown. -/
theorem spellingFits_of_passes (number : value.IsNumber)
    (passes : setting.Admits value ∨ setting.LetsPass value) : value.spellingFits := by
  cases value with
  | int n =>
    have shown : (Value.int n).IsShown := trivial
    rcases passes with inside | nan | ⟨free, -⟩
    · exact (Value.isWritable_iff_spellingFits shown).1 (isWritable_of_admits number inside)
    · cases nan
    · exact absurd (.inr fun d same => by cases same) free
  | float x | decimal d => rfl
  | _ => cases number

theorem not_admits_of_letsPass (slips : setting.LetsPass value) : ¬setting.Admits value := by
  rcases slips with rfl | ⟨-, outside⟩
  · rintro ⟨q, none, -⟩
    cases none
  · exact outside

/-- That a call returns just for the numbers in the interval, and refuses the others with the
workspace as it was. -/
structure Guards (setting : RangedSetting) (ref : Ref .node) (value : Value) (w : Workspace) :
    Prop where
  returns : (∃ rest, setting.assign ref value w = .ok () rest) ↔ setting.Admits value
  refuses : ¬setting.Admits value → setting.assign ref value w = .error (.contract (.outOfRange
    setting.bounds.1.spelling setting.bounds.2.spelling value.spelling)) w

/-- That a call takes a value as it is: written as the value of the setting or, if it has no text,
refused only after the node has been written out. -/
structure Takes (setting : RangedSetting) (ref : Ref .node) (value : Value) (w : Workspace)
    (node : Node) : Prop where
  written : value.IsWritable → ∃ rest, setting.assign ref value w = .ok () rest ∧
    rest.nodes.get? ref = some (NodeCall.stored (node.writtenOut w.tokens)
      (some ⟨some setting.key, w.tokens.spell value⟩))
  unwritten : ¬value.IsWritable → ∃ rest, setting.assign ref value w = .error .decimalInvalid rest ∧
    rest.nodes.get? ref = some (node.writtenOut w.tokens)

/-- **Ranged settings keep their interval, but for two gaps.** Assign an integer, any double or a
finite decimal to a ranged setting of a node whose base arguments can be written. The call returns
exactly for the numbers in the interval, and refuses the others with the workspace as it was, unless
the number is a NaN or, where only integers and doubles are checked, a decimal outside the
interval. Those are taken like a number inside. The refusal is a broken contract unless the number
is an integer of too many digits to be shown, which fails for its length. -/
theorem assign_guards_iff (sound : w.tokens.Sound) (present : w.nodes.get? ref = some node)
    (held : node.phase = .buffering → ∀ value ∈ node.base.map (·.2), value.IsWritable)
    (number : value.IsNumber) :
    (setting.Guards ref value w ↔ ¬setting.LetsPass value ∧ value.spellingFits) ∧
    (setting.Admits value ∨ setting.LetsPass value → setting.Takes ref value w node) ∧
    (¬value.spellingFits → setting.assign ref value w = .error .integerTooLong w) := by
  have taken (passes : setting.Admits value ∨ setting.LetsPass value) :
      setting.Takes ref value w node := by
    constructor
    · rw [assign_passed number passes]
      exact NodeCall.run_addNamed sound present held setting.key
    · rw [assign_passed number passes]
      exact NodeCall.run_addNamed_unwritable sound present held setting.key number
        (spellingFits_of_passes number passes)
  have lengthy (long : ¬value.spellingFits) :
      ¬setting.Admits value ∧ setting.assign ref value w = .error .integerTooLong w := by
    obtain ⟨outside, caught⟩ := not_or.1 (mt (spellingFits_of_passes number) long)
    have refused := assign_refused present number outside caught
    rw [refusal, if_neg long] at refused
    exact ⟨outside, refused⟩
  refine ⟨?_, taken, fun long => (lengthy long).2⟩
  constructor
  · refine fun guards => ⟨fun slips => ?_, by_contra fun long => ?_⟩
    · have outside := not_admits_of_letsPass slips
      by_cases writable : value.IsWritable
      · obtain ⟨rest, done, -⟩ := (taken (.inr slips)).written writable
        exact outside (guards.returns.1 ⟨rest, done⟩)
      · obtain ⟨rest, failed, -⟩ := (taken (.inr slips)).unwritten writable
        cases (guards.refuses outside).symm.trans failed
    · obtain ⟨outside, failed⟩ := lengthy long
      cases (guards.refuses outside).symm.trans failed
  · rintro ⟨caught, fits⟩
    refine ⟨⟨?_, ?_⟩, fun outside => ?_⟩
    · rintro ⟨rest, done⟩
      by_contra outside
      cases (assign_refused present number outside caught).symm.trans done
    · intro inside
      obtain ⟨rest, done, -⟩ := (taken (.inl inside)).written (isWritable_of_admits number inside)
      exact ⟨rest, done⟩
    · have refused := assign_refused present number outside caught
      rwa [refusal, if_pos fits] at refused

/-- An integer is taken up to the end of the interval and refused from there on. -/
theorem assign_guards_contrast :
    let w := NodeCall.holding [(some "w", .int 1280)]
    (∃ rest, contrast.assign ⟨0⟩ (.int 1000) w = .ok () rest) ∧
      contrast.assign ⟨0⟩ (.int 1001) w =
        .error (.contract (.outOfRange "-1000.0" "1000.0" "1001")) w := by
  intro w
  have guards (n : Int) (fits : (Value.int n).spellingFits) : contrast.Guards ⟨0⟩ (.int n) w := by
    have number : (Value.int n).IsNumber := trivial
    refine (assign_guards_iff Tokens.sound_initial (by exact rfl) ?_ number).1.2 ⟨?_, fits⟩
    · intro _ value mem
      cases List.mem_singleton.1 mem
      exact (by decide : IsConvertible 1280)
    · rintro (nan | ⟨free, -⟩)
      · cases nan
      · exact free (.inr fun d same => by cases same)
  constructor
  · exact (guards 1000 (by decide)).returns.2
      ⟨1000, rfl, by decide +kernel, by decide +kernel⟩
  · refine (guards 1001 (by decide)).refuses ?_
    rintro ⟨q, same, -, below⟩
    cases same
    exact absurd below (by decide +kernel)

/-- A NaN and a decimal above the interval are rendered. -/
theorem assign_slips :
    let w : Workspace := { Workspace.initial with nodes := ⟨[.fresh .eq ":"]⟩ }
    let five : Value := .decimal (.finite ⟨false, 5, 0⟩)
    (¬contrast.Admits (.float .nan) ∧
      ∃ rest last, contrast.assign ⟨0⟩ (.float .nan) w = .ok () rest ∧
        Node.render ⟨0⟩ rest = .ok "eq=contrast=nan" last) ∧
    (¬brightness.Admits five ∧
      ∃ rest last, brightness.assign ⟨0⟩ five w = .ok () rest ∧
        Node.render ⟨0⟩ rest = .ok "eq=brightness=5.00" last) := by
  intro w five
  refine ⟨⟨?_, _, _, rfl, rfl⟩, ?_, _, _, rfl, rfl⟩
  · rintro ⟨q, none, -⟩
    cases none
  · rintro ⟨q, same, -, below⟩
    cases same
    exact absurd below (by decide +kernel)

end RangedSetting

end MediaCommand
