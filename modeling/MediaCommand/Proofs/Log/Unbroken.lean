import MediaCommand.Proofs.Text.Lines
import MediaCommand.Proofs.Value.Spelling

/-!
# Texts without line breaks

A text is `Unbroken` if it has neither a line feed nor a carriage return. Texts in quotes and the
texts of numbers always are. So the text of a value has a line break only where it names a variant
or shows an object that has one (`Value.unbroken_literal_iff`).
-/

namespace MediaCommand

/-- A line feed or a carriage return. -/
def IsBreak (c : Char) : Prop := c = '\n' ∨ c = '\r'

instance (c : Char) : Decidable (IsBreak c) := inferInstanceAs (Decidable (_ ∨ _))

def Unbroken (text : List Char) : Prop := ∀ c ∈ text, ¬IsBreak c

/-! ## Parts of texts -/

section Parts

variable {text other : List Char}

@[simp] theorem unbroken_nil : Unbroken [] := List.forall_mem_nil _

@[simp] theorem unbroken_cons {c : Char} : Unbroken (c :: text) ↔ ¬IsBreak c ∧ Unbroken text :=
  List.forall_mem_cons

@[simp] theorem unbroken_append : Unbroken (text ++ other) ↔ Unbroken text ∧ Unbroken other :=
  List.forall_mem_append

theorem Unbroken.mono (unbroken : Unbroken other) (inside : text ⊆ other) : Unbroken text :=
  fun c mem => unbroken c (inside mem)

theorem unbroken_replicate {c : Char} (n : Nat) (solid : ¬IsBreak c) :
    Unbroken (List.replicate n c) := by
  intro d mem
  rwa [List.eq_of_mem_replicate mem]

theorem unbroken_flatMap {α : Type} {items : List α} {write : α → List Char} :
    Unbroken (items.flatMap write) ↔ ∀ item ∈ items, Unbroken (write item) := by
  simp only [Unbroken, List.mem_flatMap]
  constructor
  · exact fun all item mem c inside => all c ⟨item, mem, inside⟩
  · rintro all c ⟨item, mem, inside⟩
    exact all item mem c inside

/-- Texts between commas. -/
theorem unbroken_commas {texts : List String} :
    Unbroken (", ".intercalate texts).toList ↔ ∀ text ∈ texts, Unbroken text.toList := by
  constructor
  · exact fun unbroken text mem => unbroken.mono (subset_intercalate mem)
  · intro all c mem
    rcases mem_intercalate mem with here | ⟨text, given, inside⟩
    · rcases List.mem_pair.1 here with rfl | rfl <;> decide
    · exact all text given c inside

end Parts

/-! ## Numbers and quotes -/

theorem unbroken_of_number {text : List Char} (number : ∀ c ∈ text, IsNumberText c) :
    Unbroken text := by
  rintro c mem (rfl | rfl)
  · exact absurd (number _ mem) (by decide)
  · exact absurd (number _ mem) (by decide)

theorem not_isBreak_digitChar : ∀ n < 16, ¬IsBreak n.digitChar := by
  decide

theorem unbroken_toDigits {base : Nat} (many : 1 < base) (few : base ≤ 16) (n : Nat) :
    Unbroken (Nat.toDigits base n) := by
  induction n using Nat.strongRecOn with
  | ind n ih =>
    rw [Nat.toDigits_eq_if many]
    split
    · next small => simpa using not_isBreak_digitChar n (by omega)
    · next large =>
      have last : n % base < 16 := (Nat.mod_lt n (by omega)).trans_le few
      have smaller : n / base < n := Nat.div_lt_self (by omega) many
      simpa [ih (n / base) smaller] using not_isBreak_digitChar _ last

theorem unbroken_hexDigits (width n : Nat) : Unbroken (hexDigits width n) := by
  intro c mem
  obtain ⟨place, -, rfl⟩ := List.mem_map.1 mem
  exact not_isBreak_digitChar _ (Nat.mod_lt _ (by decide))

theorem unbroken_codeEscape (c : Char) : Unbroken (codeEscape c) := by
  have marks : ¬IsBreak '\\' ∧ ¬IsBreak 'x' ∧ ¬IsBreak 'u' ∧ ¬IsBreak 'U' := by decide
  unfold codeEscape
  dsimp only
  split_ifs <;> simp [marks, unbroken_hexDigits]

/-- Inside quotes line breaks are escapes. -/
theorem unbroken_quotedChar {quote : Char} (solid : ¬IsBreak quote) (c : Char) :
    Unbroken (quotedChar quote c) := by
  have marks : ¬IsBreak '\\' ∧ ¬IsBreak 'n' ∧ ¬IsBreak 'r' ∧ ¬IsBreak 't' := by decide
  unfold quotedChar
  split
  · next special =>
    rcases special with rfl | rfl
    · simp [marks, solid]
    · simp [marks]
  split
  · simp [marks]
  split
  · simp [marks]
  split
  · simp [marks]
  split
  · next noFeed noReturn _ _ => simpa [IsBreak] using ⟨noFeed, noReturn⟩
  · exact unbroken_codeEscape c

theorem unbroken_quoted (text : String) : Unbroken (quoted text).toList := by
  have quote : ¬IsBreak (chosenQuote text.toList) := by
    unfold chosenQuote
    split <;> decide
  simp only [quoted, String.toList_ofList, unbroken_cons, unbroken_append, unbroken_flatMap]
  exact ⟨quote, fun c _ => unbroken_quotedChar quote c, quote, unbroken_nil⟩

/-! ## Texts of values -/

namespace Value

mutual

/-- Variants are named, and other objects shown, without line breaks. -/
def Quiet : Value → Prop
  | .member m worth => Unbroken m.catalog.name.toList ∧ Unbroken m.name.toList ∧ worth.Quiet
  | .list items => QuietItems items
  | .tuple items => QuietItems items
  | .mapping entries => QuietEntries entries
  | .shown _ _ inside => Unbroken inside.toList
  | _ => True

def QuietItems : List Value → Prop
  | [] => True
  | item :: rest => item.Quiet ∧ QuietItems rest

def QuietEntries : List (Value × Value) → Prop
  | [] => True
  | (key, value) :: rest => (key.Quiet ∧ value.Quiet) ∧ QuietEntries rest

end

theorem unbroken_table (entries : List (String × String)) :
    Unbroken (Value.table entries).literal.toList ∧
      Unbroken (Value.table entries).spelling.toList := by
  have texts : Unbroken (", ".intercalate
      (entries.map fun entry => quoted entry.1 ++ ": " ++ quoted entry.2)).toList := by
    rw [unbroken_commas]
    intro text mem
    obtain ⟨entry, -, rfl⟩ := List.mem_map.1 mem
    simp [unbroken_quoted, IsBreak]
  constructor
  · change Unbroken ("mappingproxy(\x7b" ++ ", ".intercalate
      (entries.map fun entry => quoted entry.1 ++ ": " ++ quoted entry.2) ++ "\x7d)").toList
    rw [String.toList_append, String.toList_append, unbroken_append, unbroken_append]
    exact ⟨⟨by simp [IsBreak], texts⟩, by simp [IsBreak]⟩
  · change Unbroken ("\x7b" ++ ", ".intercalate
      (entries.map fun entry => quoted entry.1 ++ ": " ++ quoted entry.2) ++ "\x7d").toList
    rw [String.toList_append, String.toList_append, unbroken_append, unbroken_append]
    exact ⟨⟨by simp [IsBreak], texts⟩, by simp [IsBreak]⟩

mutual

/-- The text of a value in a collection has a line break only where a variant or an object shows
one. -/
theorem unbroken_literal_iff (value : Value) : Unbroken value.literal.toList ↔ value.Quiet := by
  cases value with
  | null => simp [literal, Quiet, IsBreak]
  | bool b => cases b <;> simp [literal, Quiet, IsBreak]
  | int n =>
    change Unbroken (toString n).toList ↔ True
    rw [iff_true]
    exact unbroken_of_number fun c mem => .inl (isNumeric_int n c mem)
  | float x => simp [literal, Quiet, unbroken_of_number x.isNumberText_text]
  | decimal d => simp [literal, Quiet, IsBreak, unbroken_of_number d.isNumberText_text]
  | text s => simp [literal, Quiet, unbroken_quoted]
  | member m worth =>
    have inner := unbroken_literal_iff worth
    simp [literal, Quiet, IsBreak, inner]
  | list items =>
    have inner := unbroken_commas.trans (unbroken_literals_iff items)
    simp [literal, Quiet, IsBreak, inner, -String.toList_intercalate]
  | tuple items =>
    have inner := unbroken_commas.trans (unbroken_literals_iff items)
    rw [Quiet, ← inner]
    rcases items with _ | ⟨item, _ | ⟨next, rest⟩⟩
    · simp [literal, literals, IsBreak]
    · simp [literal, literals, IsBreak]
    · simp [literal, IsBreak, -String.toList_intercalate]
  | mapping entries =>
    have inner := unbroken_commas.trans (unbroken_entryLiterals_iff entries)
    simp [literal, Quiet, IsBreak, inner, -String.toList_intercalate]
  | table entries => simp [Quiet, unbroken_table]
  | shown kind alone inside => simp [literal, Quiet]

theorem unbroken_literals_iff (items : List Value) :
    (∀ text ∈ literals items, Unbroken text.toList) ↔ QuietItems items := by
  cases items with
  | nil => simp [literals, QuietItems]
  | cons item rest =>
    simp [literals, QuietItems, unbroken_literal_iff item, unbroken_literals_iff rest]

theorem unbroken_entryLiterals_iff (entries : List (Value × Value)) :
    (∀ text ∈ entryLiterals entries, Unbroken text.toList) ↔ QuietEntries entries := by
  cases entries with
  | nil => simp [entryLiterals, QuietEntries]
  | cons entry rest =>
    obtain ⟨key, value⟩ := entry
    simp [entryLiterals, QuietEntries, IsBreak, unbroken_literal_iff key,
      unbroken_literal_iff value, unbroken_entryLiterals_iff rest]

end

end Value

end MediaCommand
