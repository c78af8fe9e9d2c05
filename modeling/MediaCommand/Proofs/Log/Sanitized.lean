import MediaCommand.Log.Template
import MediaCommand.Proofs.Log.Unbroken

/-!
# Sanitized texts

Sanitizing replaces the pairs of a return and a feed, then the returns, then the feeds that are
left. Three such replacements of whole texts (`sanitize_eq_replaced`) come to one pass that writes
out each character on its own (`sanitize_eq`). So sanitized texts are `Unbroken`, and unbroken texts
are what sanitizing leaves as it is (`sanitize_eq_self_iff`).
-/

namespace MediaCommand

/-! ## The passes as replacements -/

/-- From the left, each place where the nonempty text `old` stands holds `new` instead. -/
def replaced (old new : List Char) : List Char → List Char
  | [] => []
  | c :: rest =>
    if old <+: c :: rest then new ++ replaced old new (rest.drop (old.length - 1))
    else c :: replaced old new rest
termination_by text => text.length
decreasing_by
  · exact Nat.lt_succ_of_le (rest.drop_sublist _).length_le
  · exact Nat.lt_succ_self _

theorem writeOutPairs_eq_replaced (text : List Char) :
    writeOutPairs text = replaced ['\r', '\n'] ['\\', 'r', '\\', 'n'] text := by
  fun_induction writeOutPairs text with
  | case1 rest ih =>
    rw [replaced, if_pos (by simp), ih]
    rfl
  | case2 c rest single ih =>
    have apart : ¬['\r', '\n'] <+: c :: rest := by
      rintro ⟨behind, same⟩
      injection same with first next
      exact single behind first.symm next.symm
    rw [replaced, if_neg apart, ih]
  | case3 => rw [replaced]

theorem writeOut_eq_replaced (target letter : Char) (text : List Char) :
    writeOut target letter text = replaced [target] ['\\', letter] text := by
  induction text with
  | nil => rw [writeOut, List.flatMap_nil, replaced]
  | cons c rest ih =>
    rw [writeOut, List.flatMap_cons, ← writeOut, ih, replaced]
    by_cases here : c = target
    · simp [here]
    · simp [here, Ne.symm here]

/-- Sanitizing is three replacements in a row. -/
theorem sanitize_eq_replaced (text : List Char) :
    sanitize text = replaced ['\n'] ['\\', 'n'] (replaced ['\r'] ['\\', 'r']
      (replaced ['\r', '\n'] ['\\', 'r', '\\', 'n'] text)) := by
  rw [sanitize, writeOut_eq_replaced, writeOut_eq_replaced, writeOutPairs_eq_replaced]

/-! ## One pass -/

/-- A character as sanitizing leaves it. -/
def sanitizedChar (c : Char) : List Char :=
  if c = '\r' then ['\\', 'r'] else if c = '\n' then ['\\', 'n'] else [c]

theorem writeOut_writeOut (text : List Char) :
    writeOut '\n' 'n' (writeOut '\r' 'r' text) = text.flatMap sanitizedChar := by
  rw [writeOut, writeOut, List.flatMap_assoc]
  refine congrArg (text.flatMap ·) (funext fun c => ?_)
  unfold sanitizedChar
  split
  · rfl
  · simp

/-- What pairs are written out as is what their characters are. -/
theorem flatMap_writeOutPairs (text : List Char) :
    (writeOutPairs text).flatMap sanitizedChar = text.flatMap sanitizedChar := by
  fun_induction writeOutPairs text with
  | case1 rest ih =>
    -- What stands for a pair has no line break, so the later passes leave it.
    simp only [List.flatMap_cons, ih]
    rfl
  | case2 c rest _ ih => rw [List.flatMap_cons, List.flatMap_cons, ih]
  | case3 => rfl

theorem sanitize_eq (text : List Char) : sanitize text = text.flatMap sanitizedChar := by
  rw [sanitize, writeOut_writeOut, flatMap_writeOutPairs]

theorem sanitize_append (first second : List Char) :
    sanitize (first ++ second) = sanitize first ++ sanitize second := by
  simp only [sanitize_eq, List.flatMap_append]

theorem unbroken_sanitizedChar (c : Char) : Unbroken (sanitizedChar c) := by
  unfold sanitizedChar
  split
  · simp [IsBreak]
  split
  · simp [IsBreak]
  · next noReturn noFeed => simpa [IsBreak] using ⟨noFeed, noReturn⟩

theorem unbroken_sanitize (text : List Char) : Unbroken (sanitize text) := by
  rw [sanitize_eq, unbroken_flatMap]
  exact fun c _ => unbroken_sanitizedChar c

/-- Only texts without line breaks stay as they are. -/
theorem sanitize_eq_self_iff {text : List Char} : sanitize text = text ↔ Unbroken text := by
  constructor
  · intro same
    rw [← same]
    exact unbroken_sanitize text
  · intro unbroken
    have same : ∀ c ∈ text, sanitizedChar c = [c] := by
      intro c mem
      obtain ⟨noFeed, noReturn⟩ := not_or.1 (unbroken c mem)
      simp [sanitizedChar, noFeed, noReturn]
    rw [sanitize_eq, List.flatMap_congr same, List.flatMap_singleton']

/-- **Three replacements are one pass.** For every text, the pairs, then the returns and then the
feeds that are left are replaced, and this writes out each character on its own. So no line break is
left, a text can be sanitized in two parts wherever it is cut, also inside a pair, and sanitizing
again changes nothing. -/
theorem sanitized_in_one_pass (text more : List Char) :
    LogArguments.sanitizeValue (.text (String.ofList text)) =
        .text (String.ofList (sanitize text)) ∧
      sanitize text = replaced ['\n'] ['\\', 'n'] (replaced ['\r'] ['\\', 'r']
        (replaced ['\r', '\n'] ['\\', 'r', '\\', 'n'] text)) ∧
      sanitize text = text.flatMap sanitizedChar ∧
      ('\r' ∉ sanitize text ∧ '\n' ∉ sanitize text) ∧
      sanitize (text ++ more) = sanitize text ++ sanitize more ∧
      sanitize (sanitize text) = sanitize text := by
  have unbroken := unbroken_sanitize text
  refine ⟨?_, sanitize_eq_replaced text, sanitize_eq text, ?_, sanitize_append text more,
    sanitize_eq_self_iff.2 unbroken⟩
  · rw [LogArguments.sanitizeValue, String.toList_ofList]
  · exact ⟨fun mem => unbroken _ mem (.inr rfl), fun mem => unbroken _ mem (.inl rfl)⟩

/-- A pair that is cut in two. -/
example : sanitize ['a', '\r'] ++ sanitize ['\n', 'b'] = sanitize ['a', '\r', '\n', 'b'] := by
  decide

end MediaCommand
