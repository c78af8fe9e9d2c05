import MediaCommand.Proofs.Filter.Ranges
import MediaCommand.Proofs.Value.Composites

/-!
# Colours of three channels

The text of a colour decodes to its channels: behind the mark stand six capital hexadecimal digits,
and each two of them make a channel modulo 256. A node stores that text under `color`, with the
opacity behind it exactly when that is above zero (`color_decodes`).
-/

namespace MediaCommand

open MediaCommand.Action

/-! ## The digits -/

/-- The value of a hexadecimal digit in capitals. -/
def capitalValue? (c : Char) : Option Nat :=
  if '0' ≤ c ∧ c ≤ '9' then some (c.toNat - '0'.toNat)
  else if 'A' ≤ c ∧ c ≤ 'F' then some (c.toNat - 'A'.toNat + 10)
  else none

/-- The number that two digits make. -/
def twoDigits? (high low : Char) : Option Int := do
  return 16 * (← capitalValue? high) + (← capitalValue? low)

/-- The channels that six digits make; no other text makes any. -/
def readChannels? : List Char → Option (Int × Int × Int)
  | [a, b, c, d, e, f] => do return (← twoDigits? a b, ← twoDigits? c d, ← twoDigits? e f)
  | _ => none

theorem capitalValue?_capitalDigit : ∀ n < 16, capitalValue? (capitalDigit n) = some n := by
  decide

/-- The two digits of a channel make it modulo 256. -/
theorem twoDigits?_channelDigits (n : Int) : ∃ high low,
    channelDigits n = [high, low] ∧ twoDigits? high low = some (n % 256) := by
  refine ⟨_, _, rfl, ?_⟩
  have byte : (n % 256).toNat < 256 := by omega
  rw [twoDigits?, capitalValue?_capitalDigit _ (by omega), capitalValue?_capitalDigit _ (by omega)]
  show some _ = some _
  congr 1
  omega

theorem channelDigits_eq_iff {n m : Int} :
    channelDigits n = channelDigits m ↔ n % 256 = m % 256 := by
  obtain ⟨high, low, first, read⟩ := twoDigits?_channelDigits n
  obtain ⟨_, _, second, again⟩ := twoDigits?_channelDigits m
  constructor
  · intro same
    rw [first, second] at same
    cases same
    exact Option.some.inj (read.symm.trans again)
  · intro same
    unfold channelDigits
    rw [same]

theorem isSome_of_mem_channelDigits {n : Int} {c : Char} (mem : c ∈ channelDigits n) :
    (capitalValue? c).isSome := by
  have byte : (n % 256).toNat < 256 := by omega
  rcases List.mem_pair.1 mem with rfl | rfl
  · rw [capitalValue?_capitalDigit _ (by omega)]
    rfl
  · rw [capitalValue?_capitalDigit _ (by omega)]
    rfl

namespace Value

/-- A colour of three integers. -/
def rgb (r g b : Int) : Value := .tuple [.int r, .int g, .int b]

/-- The digits of a colour. -/
def colorDigits (r g b : Int) : List Char := channelDigits r ++ channelDigits g ++ channelDigits b

variable {r g b : Int} {mark : String}

theorem hexColor_rgb :
    hexColor (rgb r g b) mark = .ok (mark ++ String.ofList (colorDigits r g b)) := rfl

theorem readChannels?_colorDigits :
    readChannels? (colorDigits r g b) = some (r % 256, g % 256, b % 256) := by
  obtain ⟨_, _, red, first⟩ := twoDigits?_channelDigits r
  obtain ⟨_, _, green, second⟩ := twoDigits?_channelDigits g
  obtain ⟨_, _, blue, third⟩ := twoDigits?_channelDigits b
  simp [colorDigits, red, green, blue, readChannels?, first, second, third]

theorem isSome_of_mem_colorDigits {c : Char} (mem : c ∈ colorDigits r g b) :
    (capitalValue? c).isSome := by
  rw [colorDigits, List.mem_append, List.mem_append] at mem
  rcases mem with (mem | mem) | mem <;> exact isSome_of_mem_channelDigits mem

/-- Colours behind the same mark differ unless they agree modulo 256. -/
theorem hexColor_eq_iff {r' g' b' : Int} :
    hexColor (rgb r g b) mark = hexColor (rgb r' g' b') mark ↔
      r % 256 = r' % 256 ∧ g % 256 = g' % 256 ∧ b % 256 = b' % 256 := by
  rw [hexColor_rgb, hexColor_rgb]
  constructor
  · intro same
    have digits : colorDigits r g b = colorDigits r' g' b' := by
      simpa [String.ofList_inj] using same
    have read := congrArg readChannels? digits
    simpa [readChannels?_colorDigits] using read
  · rintro ⟨red, green, blue⟩
    rw [colorDigits, channelDigits_eq_iff.2 red, channelDigits_eq_iff.2 green,
      channelDigits_eq_iff.2 blue, colorDigits]

/-! ## The opacity -/

/-- Whether a value can be compared with a number. -/
def IsComparable : Value → Prop
  | .bool _ | .int _ | .float _ | .decimal (.finite _) | .decimal (.infinite _) => True
  | _ => False

/-- Whether a value is a number above zero. -/
def IsPositive : Value → Prop
  | .bool b => b = true
  | .int n => 0 < n
  | .float (.finite x) => 0 < x.toRat
  | .decimal (.finite x) => 0 < x.toRat
  | .float (.infinite negative) | .decimal (.infinite negative) => negative = false
  | _ => False

theorem isAbove_zero_finite {value : Value} {x : Scaled}
    (number : value.quantity? = some (.finite x)) :
    ∃ above, value.isAbove (.int 0) = .ok above ∧ (above = true ↔ 0 < x.toRat) := by
  refine ⟨_, ordered_of_compare number (q := .finite (.ofInt 0)) rfl rfl _ _, ?_⟩
  rw [Scaled.compare_eq, Scaled.toRat_ofInt, beq_iff_eq, cmp_eq_gt_iff, Int.cast_zero]

theorem isAbove_zero_infinite {value : Value} {negative : Bool}
    (number : value.quantity? = some (.infinite negative)) :
    ∃ above, value.isAbove (.int 0) = .ok above ∧ (above = true ↔ negative = false) := by
  refine ⟨_, ordered_of_compare number (q := .finite (.ofInt 0)) rfl rfl _ _, ?_⟩
  cases negative <;> decide

/-- What can be compared with a number is above zero just when it is a number that is. -/
theorem isAbove_zero {value : Value} (comparable : value.IsComparable) :
    ∃ above, value.isAbove (.int 0) = .ok above ∧ (above = true ↔ value.IsPositive) := by
  cases value with
  | bool b =>
    cases b with
    | false => exact ⟨false, rfl, by simp [IsPositive]⟩
    | true => exact ⟨true, rfl, by simp [IsPositive]⟩
  | int n =>
    have number : (int n).quantity? = some (.finite (.ofInt n)) := rfl
    obtain ⟨above, compared, iff⟩ := isAbove_zero_finite number
    exact ⟨above, compared, by simpa [Scaled.toRat_ofInt, IsPositive] using iff⟩
  | float x =>
    cases x with
    | finite x =>
      have number : (float (.finite x)).quantity? = some (.finite x.toScaled) := rfl
      obtain ⟨above, compared, iff⟩ := isAbove_zero_finite number
      exact ⟨above, compared, by rwa [FiniteDouble.toRat_toScaled] at iff⟩
    | infinite negative => exact isAbove_zero_infinite rfl
    | nan => exact ⟨false, rfl, by simp [IsPositive]⟩
  | decimal d =>
    cases d with
    | finite x => exact isAbove_zero_finite rfl
    | infinite negative => exact isAbove_zero_infinite rfl
    | nan negative signaling payload => cases comparable
  | _ => cases comparable

theorem isAbove_zero_fails {value : Value} (other : ¬value.IsComparable) :
    ∃ failure, value.isAbove (.int 0) = .error failure := by
  cases value with
  | float x => exact absurd trivial other
  | decimal d =>
    cases d with
    | nan negative signaling payload => exact ⟨_, rfl⟩
    | _ => exact absurd trivial other
  | bool b | int n => exact absurd trivial other
  | _ => exact ⟨_, rfl⟩

end Value

/-! ## Storing a colour -/

namespace NodeCall

variable {d after : Node.Desk}

theorem run_returns_iff {w : Workspace} {ref : Ref .node} {node : Node}
    (present : w.nodes.get? ref = some node) {edit : Node.Edit Unit} :
    (∃ rest, Node.run ref edit w = .ok () rest) ↔
      ∃ desk, edit ⟨w.tokens, node⟩ = .ok () desk := by
  constructor
  · rintro ⟨rest, done⟩
    obtain ⟨desk, done, -⟩ := run_eq_ok present done
    exact ⟨desk, done⟩
  · rintro ⟨desk, done⟩
    exact ⟨_, run_of_ok present done⟩

theorem addNamed_text_returns_iff (sound : d.tokens.Sound) {key text : String} :
    (∃ after, Node.addNamed key (.text text) d = .ok () after) ↔
      (d.node.phase = .buffering → ∀ value ∈ d.node.base.map (·.2), value.IsWritable) := by
  constructor
  · rintro ⟨after, done⟩ buffering
    rw [Node.addNamed, add_flushes] at done
    obtain ⟨_, mid, flushed, -⟩ := bind_eq_ok.1 done
    exact (flush_returns_iff sound buffering).1 ⟨mid, flushed⟩
  · intro held
    obtain ⟨after, done, -⟩ := Composite.addNamed_text sound held key text
    exact ⟨after, done⟩

end NodeCall

namespace Node

variable {r g b : Int} {alpha : Value} {d : Desk}

/-- The text of a colour as a node stores it. -/
def colorText (r g b : Int) : String := "0x" ++ String.ofList (Value.colorDigits r g b)

theorem addColor_rgb : Node.addColor (.rgb r g b) alpha = (do
    let text ← if ← Action.ofExcept (alpha.isAbove (.int 0)) then
        let opacity ← withTokens (normalize alpha)
        pure (some (colorText r g b ++ "@" ++ opacity.getD "None"))
      else pure (some (colorText r g b))
    addNamed "color" (match text with
      | some text => .text text
      | none => .null)) := rfl

/-- A colour whose opacity is not above zero is stored as it is. -/
theorem addColor_plain (notAbove : alpha.isAbove (.int 0) = .ok false) :
    Node.addColor (.rgb r g b) alpha d = Node.addNamed "color" (.text (colorText r g b)) d := by
  rw [addColor_rgb, notAbove]
  rfl

/-- A colour with an opacity above zero is stored with the opacity as it is written. -/
theorem addColor_shaded (above : alpha.isAbove (.int 0) = .ok true) {opacity : String}
    {rest : Tokens} (normal : normalize alpha d.tokens = .ok (some opacity) rest) :
    Node.addColor (.rgb r g b) alpha d =
      Node.addNamed "color" (.text (colorText r g b ++ "@" ++ opacity)) ⟨rest, d.node⟩ := by
  have looked : Node.withTokens (normalize alpha) d = .ok (some opacity) ⟨rest, d.node⟩ :=
    within_of_ok normal
  rw [addColor_rgb, above]
  exact (bind_of_ok looked).trans rfl

/-- What is stored for the text of a colour: the text alone, or with an opacity above zero as it is
written. -/
inductive Shaded (tokens : Tokens) (alpha : Value) (text : String) : String → Prop
  | plain (notAbove : ¬alpha.IsPositive) : Shaded tokens alpha text text
  | shaded (above : alpha.IsPositive) (opacity : String)
      (normal : (normalize alpha).outcome tokens = .ok (some opacity)) :
      Shaded tokens alpha text (text ++ "@" ++ opacity)

/-- Whether an opacity can be used: it is compared with zero, and written when it is above. -/
def IsOpacity (alpha : Value) : Prop :=
  alpha.IsComparable ∧ (alpha.IsPositive → alpha.IsWritable)

/-- A colour is one named text, or its opacity is refused. -/
theorem addColor_cases (sound : d.tokens.Sound) (r g b : Int) (alpha : Value) :
    (IsOpacity alpha ∧ ∃ text rest, Shaded d.tokens alpha (colorText r g b) text ∧
        d.tokens.Agrees rest ∧
        Node.addColor (.rgb r g b) alpha d = Node.addNamed "color" (.text text) ⟨rest, d.node⟩) ∨
      ¬IsOpacity alpha ∧ ∃ failure after,
        Node.addColor (.rgb r g b) alpha d = .error failure after := by
  by_cases comparable : alpha.IsComparable
  · obtain ⟨above, compared, positive⟩ := Value.isAbove_zero comparable
    cases above with
    | false =>
      have notAbove : ¬alpha.IsPositive := fun above => by cases positive.2 above
      exact .inl ⟨⟨comparable, fun above => absurd above notAbove⟩, _, d.tokens, .plain notAbove,
        refl d.tokens, addColor_plain compared⟩
    | true =>
      have above : alpha.IsPositive := positive.1 rfl
      cases normal : normalize alpha d.tokens with
      | ok opacity rest =>
        have writable := (normalize_returns_iff sound alpha).1 ⟨opacity, rest, normal⟩
        cases opacity with
        | some opacity =>
          exact .inl ⟨⟨comparable, fun _ => writable⟩, _, rest,
            .shaded above opacity (outcome_of_ok normal),
            (Tokens.looksUp_normalize alpha).agrees normal, addColor_shaded compared normal⟩
        | none =>
          cases normalize_eq_none normal
          cases above
      | error failure rest =>
        have looked : Node.withTokens (normalize alpha) d = .error failure ⟨rest, d.node⟩ :=
          within_of_error normal
        refine .inr ⟨fun usable => not_isWritable_of_error sound normal (usable.2 above),
          failure, ⟨rest, d.node⟩, ?_⟩
        rw [addColor_rgb, compared]
        exact (bind_of_error looked).trans rfl
  · obtain ⟨failure, refused⟩ := Value.isAbove_zero_fails comparable
    refine .inr ⟨fun usable => comparable usable.1, failure, d, ?_⟩
    rw [addColor_rgb, refused]
    rfl

variable {w : Workspace} {ref : Ref .node} {node : Node}

theorem run_addColor_returns_iff (sound : w.tokens.Sound) (present : w.nodes.get? ref = some node)
    (r g b : Int) (alpha : Value) :
    (∃ rest, Node.run ref (Node.addColor (.rgb r g b) alpha) w = .ok () rest) ↔
      IsOpacity alpha ∧
        (node.phase = .buffering → ∀ value ∈ node.base.map (·.2), value.IsWritable) := by
  rw [NodeCall.run_returns_iff present]
  rcases addColor_cases (d := ⟨w.tokens, node⟩) sound r g b alpha with
    ⟨usable, text, rest, -, agree, same⟩ | ⟨unusable, failure, after, failed⟩
  · rw [same, NodeCall.addNamed_text_returns_iff (agree.sound sound)]
    exact (and_iff_right usable).symm
  · rw [failed]
    exact iff_of_false (fun ⟨_, done⟩ => by cases done) fun ⟨usable, _⟩ => unusable usable

theorem run_addColor_eq_ok (sound : w.tokens.Sound) (present : w.nodes.get? ref = some node)
    {r g b : Int} {alpha : Value} {rest : Workspace}
    (done : Node.run ref (Node.addColor (.rgb r g b) alpha) w = .ok () rest) :
    ∃ text, Shaded w.tokens alpha (colorText r g b) text ∧ rest.nodes.get? ref = some
      (NodeCall.stored (node.writtenOut w.tokens) (some ⟨some "color", some text⟩)) := by
  obtain ⟨desk, done, -, there⟩ := NodeCall.run_eq_ok present done
  rcases addColor_cases (d := ⟨w.tokens, node⟩) sound r g b alpha with
    ⟨-, text, tokens, shaded, agree, same⟩ | ⟨-, failure, after, failed⟩
  · rw [same] at done
    have held : node.phase = .buffering → ∀ value ∈ node.base.map (·.2), value.IsWritable :=
      (NodeCall.addNamed_text_returns_iff (agree.sound sound)).1 ⟨desk, done⟩
    obtain ⟨after, again, last⟩ := Composite.addNamed_text (agree.sound sound) held "color" text
    cases again.symm.trans done
    exact ⟨text, shaded, by rw [there, last, writtenOut_agrees agree]⟩
  · cases failed.symm.trans done

end Node

/-- **Colours decode to their channels.** The text of three integers is the mark and exactly six
capital hexadecimal digits, and these read as the integers modulo 256; so colours of channels
from 0 to 255 differ in their texts. A node stores the text of a colour under `color`, with the
opacity behind it as it is written exactly when that is above zero. -/
theorem color_decodes :
    (∀ (r g b : Int) (mark : String), ∃ digits,
      Value.hexColor (.rgb r g b) mark = .ok (mark ++ String.ofList digits) ∧
      digits.length = 6 ∧ (∀ c ∈ digits, (capitalValue? c).isSome) ∧
      readChannels? digits = some (r % 256, g % 256, b % 256)) ∧
    (∀ mark, Function.Injective fun color : Fin 256 × Fin 256 × Fin 256 =>
      Value.hexColor (.rgb color.1 color.2.1 color.2.2) mark) ∧
    ∀ (w : Workspace) (ref : Ref .node) (node : Node), w.tokens.Sound →
      w.nodes.get? ref = some node → ∀ (r g b : Int) (alpha : Value),
      ((∃ rest, Node.run ref (Node.addColor (.rgb r g b) alpha) w = .ok () rest) ↔
        Node.IsOpacity alpha ∧
          (node.phase = .buffering → ∀ value ∈ node.base.map (·.2), value.IsWritable)) ∧
      ∀ rest, Node.run ref (Node.addColor (.rgb r g b) alpha) w = .ok () rest →
        ∃ color text, Value.hexColor (.rgb r g b) "0x" = .ok color ∧
          Node.Shaded w.tokens alpha color text ∧
          rest.nodes.get? ref = some
            (NodeCall.stored (node.writtenOut w.tokens) (some ⟨some "color", some text⟩)) := by
  refine ⟨fun r g b mark => ⟨Value.colorDigits r g b, rfl, rfl,
    fun c => Value.isSome_of_mem_colorDigits, Value.readChannels?_colorDigits⟩, ?_, ?_⟩
  · rintro mark ⟨r, g, b⟩ ⟨r', g', b'⟩ same
    obtain ⟨red, green, blue⟩ := Value.hexColor_eq_iff.1 same
    have byte {n m : Fin 256} (same : (n : Int) % 256 = (m : Int) % 256) : n = m := by omega
    exact Prod.ext (byte red) (Prod.ext (byte green) (byte blue))
  · intro w ref node sound present r g b alpha
    refine ⟨Node.run_addColor_returns_iff sound present r g b alpha, fun rest done => ?_⟩
    obtain ⟨text, shaded, there⟩ := Node.run_addColor_eq_ok sound present done
    exact ⟨Node.colorText r g b, text, rfl, shaded, there⟩

/-- A node with a half-transparent colour of a negative and an oversized channel. -/
theorem color_decodes_translucent :
    let half : Value := .decimal (.finite ⟨false, 5, -1⟩)
    ∃ rest, Node.run ⟨0⟩ (Node.addColor (.rgb 255 (-1) 256) half)
        (NodeCall.holding []) = .ok () rest ∧
      (rest.nodes.get? ⟨0⟩).map (·.arguments) = some [⟨some "color", some "0xFFFF00@0.50"⟩] := by
  intro half
  obtain ⟨-, -, stores⟩ := color_decodes
  obtain ⟨returns, result⟩ := stores (NodeCall.holding []) ⟨0⟩
    { Node.freshNamed .custom (some "f") ":" with base := [] } Tokens.sound_initial rfl
    255 (-1) 256 half
  have above : half.IsPositive := by
    show (0 : Rat) < Scaled.toRat ⟨false, 5, -1⟩
    decide +kernel
  have writable : half.IsWritable :=
    (normalize_returns_iff Tokens.sound_initial half).1 ⟨_, _, rfl⟩
  obtain ⟨rest, done⟩ := returns.2 ⟨⟨trivial, fun _ => writable⟩, by simp⟩
  obtain ⟨color, text, coloured, shaded, there⟩ := result rest done
  refine ⟨rest, done, ?_⟩
  cases shaded with
  | plain notAbove => exact absurd above notAbove
  | shaded _ opacity normal =>
    have known : (normalize half).outcome (NodeCall.holding []).tokens = .ok (some "0.50") := by
      rfl
    cases known.symm.trans normal
    cases coloured
    rw [there]
    rfl

end MediaCommand
