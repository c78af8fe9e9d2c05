import MediaCommand.Log.Journal
import MediaCommand.Proofs.Action
import MediaCommand.Proofs.Log.Templates

/-!
# Messages of a level

`Journal.messages` is what the journal has recorded at one level, and `Journal.taken` the form in
which it takes a message. Sanitizing writes out line breaks one by one, so a message is sanitized
part by part. `Journal.Reports` says of two states which error messages lie between them.
-/

namespace MediaCommand

/-! ## Filled templates -/

/-- A template with its arguments comes to a message, and to the sanitized message when the
arguments are sanitized. -/
structure ComesTo (template : String) (arguments : List Value) (message : String) : Prop where
  plain : Template.fill template (LogArguments.ofList arguments) = .ok message
  safe : Journal.safeMessage template arguments = .ok (String.ofList (sanitize message.toList))

theorem convert_text (text : String) (place : Nat) :
    Conversion.convert ⟨[], 0, none⟩ 's' place (.text text) = .ok text.toList := by
  simp [Conversion.convert, Layout.text, Layout.padded, Layout.has, Value.spelling]

theorem convert_int (n : Int) (place : Nat) :
    Conversion.convert ⟨[], 0, none⟩ 'd' place (.int n) = .ok (toString n).toList := by
  have digits : Layout.integer ⟨[], 0, none⟩ 10 [] n = (toString n).toList := by
    rw [toList_toString_int]
    cases negative : decide (n < 0) <;>
      simp [Layout.integer, Layout.number, Layout.padded, Layout.has, Layout.sign, negative, signed,
        decimalDigits]
  rw [← digits]
  rfl

section Filling

variable {conversion : Char} {place : Nat} {value : Value} {values : List Value}
  {parts : List TemplatePart} {text behind : List Char}

/-- Plain characters stand in front of what follows them. -/
theorem fillParts_plain (front : List Char)
    (filled : Template.fillParts none values parts = .ok behind) :
    Template.fillParts none values (front.map .plain ++ parts) = .ok (front ++ behind) := by
  induction front with
  | nil => exact filled
  | cons c rest ih => exact except_bind_eq_ok.2 ⟨_, ih, rfl⟩

/-- A directive with a conversion alone takes the next value. -/
theorem fillParts_bare
    (converted : Conversion.convert ⟨[], 0, none⟩ conversion place value = .ok text)
    (filled : Template.fillParts none values parts = .ok behind) :
    Template.fillParts none (value :: values)
      (.directive (.bare none conversion place) :: parts) = .ok (text ++ behind) :=
  except_bind_eq_ok.2 ⟨_, Directive.fill_bare rfl converted,
    except_bind_eq_ok.2 ⟨_, filled, rfl⟩⟩

end Filling

theorem fill_line (line : String) : Template.fill "%s" (.positional [.text line]) = .ok line := by
  have parts : Template.parts "%s" = [.directive (.bare none 's' 1)] := rfl
  have filled := fillParts_bare (convert_text line 1)
    (show Template.fillParts none [] [] = .ok [] from rfl)
  refine except_bind_eq_ok.2 ⟨_, parts ▸ filled, ?_⟩
  rw [List.append_nil, String.ofList_toList]
  rfl

theorem fill_exited (program : String) (code : Int) :
    Template.fill "%s exited with code %d" (.positional [.text program, .int code]) =
      .ok (program ++ " exited with code " ++ toString code) := by
  have parts : Template.parts "%s exited with code %d" =
    .directive (.bare none 's' 1) :: (" exited with code ".toList.map .plain ++
      [.directive (.bare none 'd' 21)]) := rfl
  have filled := fillParts_bare (convert_text program 1)
    (fillParts_plain " exited with code ".toList (fillParts_bare (convert_int code 21)
      (show Template.fillParts none [] [] = .ok [] from rfl)))
  refine except_bind_eq_ok.2 ⟨_, parts ▸ filled, ?_⟩
  rw [List.append_nil, ← String.toList_append, ← String.toList_append, String.ofList_toList,
    String.append_assoc]
  rfl

/-- A line alone is its own message. -/
theorem comesTo_line (line : String) : ComesTo "%s" [.text line] line where
  plain := fill_line line
  safe := fill_line _

theorem comesTo_exited (program : String) (code : Int) :
    ComesTo "%s exited with code %d" [.text program, .int code]
      (program ++ " exited with code " ++ toString code) where
  plain := fill_exited program code
  safe := by
    have solid : sanitize (" exited with code " ++ toString code).toList =
        (" exited with code " ++ toString code).toList := by
      refine sanitize_eq_self_iff.2 ?_
      rw [String.toList_append, unbroken_append]
      exact ⟨by simp [IsBreak], unbroken_of_number fun c mem => .inl (isNumeric_int code c mem)⟩
    have parted : String.ofList (sanitize
        (program ++ " exited with code " ++ toString code).toList) =
        String.ofList (sanitize program.toList) ++ " exited with code " ++ toString code := by
      rw [String.append_assoc, String.toList_append, sanitize_append, solid, String.ofList_append,
        String.ofList_toList, String.append_assoc]
    rw [parted]
    exact fill_exited _ code

namespace Journal

/-- The messages that are recorded at a level. -/
def messages (journal : Journal) (level : LogLevel) : List String :=
  (journal.records.filter fun record => decide (record.1 = level)).map (·.2)

@[simp] theorem messages_record (journal : Journal) (made level : LogLevel) (message : String) :
    messages { journal with records := journal.records ++ [(made, message)] } level =
      journal.messages level ++ if made = level then [message] else [] := by
  by_cases same : made = level <;> simp [messages, List.filter_append, same]

/-- A message as the journal takes it: under safe logging its line breaks are written out. -/
def taken (journal : Journal) (message : String) : String :=
  if journal.safe then String.ofList (sanitize message.toList) else message

/-- A message is recorded in the form in which it is taken. -/
theorem log_apply {template : String} {arguments : List Value} {message : String}
    (comesTo : ComesTo template arguments message) (level : LogLevel) (journal : Journal) :
    log level template arguments journal = .ok ()
      (if journal.records? level then
        { journal with records := journal.records ++ [(level, journal.taken message)] }
      else journal) := by
  rw [log, Action.get_bind_apply]
  split
  · unfold taken
    split
    · rw [comesTo.safe]
      rfl
    · rw [comesTo.plain]
      rfl
  · rfl

/-- Between two states lie these error messages, if errors are recorded at all, and what decides
about messages is the same in both. -/
structure Reports (before : Journal) (messages : List String) (after : Journal) : Prop where
  level : after.level = before.level
  safe : after.safe = before.safe
  added : after.messages .error = before.messages .error ++
    if before.records? .error then messages.map before.taken else []

namespace Reports

variable {journal before mid after : Journal} {first second : List String}

theorem nothing (journal : Journal) : Reports journal [] journal where
  level := rfl
  safe := rfl
  added := by simp

theorem trans (start : Reports before first mid) (next : Reports mid second after) :
    Reports before (first ++ second) after where
  level := next.level.trans start.level
  safe := next.safe.trans start.safe
  added := by
    have enabled : mid.records? .error = before.records? .error := by
      rw [records?, threshold, start.level]
      rfl
    have form : mid.taken = before.taken := by
      funext message
      rw [taken, start.safe]
      rfl
    rw [next.added, start.added, enabled, form, List.append_assoc, List.map_append]
    split <;> rfl

end Reports

/-- An error is reported with the message that it comes to. -/
theorem reports_log {template : String} {arguments : List Value} {message : String}
    (comesTo : ComesTo template arguments message) (journal : Journal) :
    Reports journal [message] ((log .error template arguments).after journal) := by
  rw [Action.after_of_ok (log_apply comesTo .error journal)]
  split
  next enabled => exact ⟨rfl, rfl, by simp [enabled]⟩
  next silent => exact ⟨rfl, rfl, by simp [silent]⟩

/-- A message of another level is no error, whatever becomes of it. -/
theorem reports_log_of_ne {level : LogLevel} (other : level ≠ .error) (template : String)
    (arguments : List Value) (journal : Journal) :
    Reports journal [] ((log level template arguments).after journal) := by
  rw [log, Action.after_congr (Action.get_bind_apply _ journal)]
  split
  · generalize (if journal.safe then safeMessage template arguments
      else Template.fill template (LogArguments.ofList arguments)) = outcome
    cases outcome with
    | error failure => exact .nothing journal
    | ok message =>
      refine ⟨rfl, rfl, (messages_record journal level .error message).trans ?_⟩
      simp [other]
  · exact .nothing journal

end Journal

end MediaCommand
