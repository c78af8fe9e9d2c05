import MediaCommand.Proofs.Log.Conversions

/-!
# Templates without line breaks

A template without line breaks has plain characters and directives whose names are `Nameable`. Its
message is unbroken whatever it is, exactly if no value that it can convert has a line break
(`LogArguments.unbroken_fill_iff`): directives convert values in turn and add nothing else, and for
each value there is a conversion that shows its line breaks.
-/

namespace MediaCommand

/-- A name that a template without line breaks can have: its parentheses match. -/
def Nameable (name : String) : Prop :=
  Unbroken name.toList ∧ Template.keyUpTo? 0 (name.toList ++ [')']) = some (name.toList, [])

/-- A part of a template without line breaks. -/
def TemplatePart.IsUnbroken : TemplatePart → Prop
  | .plain c => ¬IsBreak c
  | .directive d => ∀ name ∈ d.key, Nameable name
  | .unclosed => True

/-! ## Parts of templates -/

namespace Template

variable {depth total : Nat} {text key rest : List Char}

/-- A character in front of a name that is found. -/
theorem pushed_eq_some {c : Char} {found : Option (List Char × List Char)} :
    (found.map fun parts => (c :: parts.1, parts.2)) = some (key, rest) ↔
      ∃ name, key = c :: name ∧ found = some (name, rest) := by
  rcases found with _ | ⟨name, left⟩
  · simp
  · simp [eq_comm]

/-- A name ends at a parenthesis, whatever follows. -/
theorem keyUpTo?_eq_some (found : keyUpTo? depth text = some (key, rest)) :
    text = key ++ ')' :: rest ∧
      ∀ behind, keyUpTo? depth (key ++ ')' :: behind) = some (key, behind) := by
  induction text generalizing depth key with
  | nil => cases found
  | cons c text ih =>
    -- Whichever the character is, the name goes on behind it, and only the depth differs.
    have goesOn {name : List Char} {deeper : Nat} (later : keyUpTo? deeper text = some (name, rest))
        (step : ∀ behind, keyUpTo? depth (c :: (name ++ ')' :: behind)) =
          (keyUpTo? deeper (name ++ ')' :: behind)).map fun parts => (c :: parts.1, parts.2)) :
        c :: text = c :: name ++ ')' :: rest ∧
          ∀ behind, keyUpTo? depth (c :: name ++ ')' :: behind) = some (c :: name, behind) := by
      obtain ⟨rfl, again⟩ := ih later
      refine ⟨rfl, fun behind => ?_⟩
      rw [List.cons_append, step, again]
      rfl
    unfold keyUpTo? at found
    split at found
    case h_1 none => cases none
    case h_2 same =>
      cases same
      split at found
      · next outer =>
        cases found
        exact ⟨rfl, fun behind => by simp [keyUpTo?, outer]⟩
      · next inner =>
        obtain ⟨name, rfl, later⟩ := pushed_eq_some.1 found
        exact goesOn later fun behind => by rw [keyUpTo?, if_neg inner]
    case h_3 same =>
      cases same
      obtain ⟨name, rfl, later⟩ := pushed_eq_some.1 found
      exact goesOn later fun behind => rfl
    case h_4 closing opening same =>
      cases same
      obtain ⟨name, rfl, later⟩ := pushed_eq_some.1 found
      exact goesOn later fun behind => by rw [keyUpTo?]; exacts [closing, opening]

theorem measure_subset (text : List Char) : (measure text).2 ⊆ text := by
  unfold measure
  split
  · exact List.subset_cons_self _ _
  · exact (List.dropWhile_suffix _).subset

theorem precision_subset (text : List Char) : (precision text).2 ⊆ text := by
  unfold precision
  split
  · exact List.subset_cons_of_subset _ (measure_subset _)
  · exact List.Subset.refl _

theorem withoutSize_subset (text : List Char) : withoutSize text ⊆ text := by
  unfold withoutSize
  split
  · exact List.Subset.refl _
  · split
    · exact List.subset_cons_self _ _
    · exact List.Subset.refl _

/-- A directive has the name that was read for it, and the text goes on behind it. -/
theorem directiveWith_spec (key : Option String) (total : Nat) (text : List Char) :
    (∃ d : Directive, (directiveWith key total text).1 = .directive d ∧ d.key = key) ∧
      (directiveWith key total text).2 ⊆ text := by
  unfold directiveWith
  dsimp only
  split
  · exact ⟨⟨_, rfl, rfl⟩, List.nil_subset _⟩
  · next conversion rest found =>
    have inside : rest ⊆ withoutSize (precision (measure (text.drop
        (text.takeWhile ("-+ #0".toList.contains ·)).length)).2).2 := by
      rw [found]
      exact List.subset_cons_self _ _
    have places : withoutSize (precision (measure (text.drop
        (text.takeWhile ("-+ #0".toList.contains ·)).length)).2).2 ⊆ text :=
      List.Subset.trans (withoutSize_subset _) (List.Subset.trans (precision_subset _)
        (List.Subset.trans (measure_subset _) (List.drop_subset _ _)))
    exact ⟨⟨_, rfl, rfl⟩, List.Subset.trans inside places⟩

theorem directive_unbroken {text : List Char} (unbroken : Unbroken text) :
    (directive total text).1.IsUnbroken ∧ (directive total text).2 ⊆ text := by
  unfold directive
  split
  · exact ⟨by simp [TemplatePart.IsUnbroken, IsBreak], List.subset_cons_self _ _⟩
  · next rest =>
    split
    · next key left found =>
      obtain ⟨shown, again⟩ := keyUpTo?_eq_some found
      obtain ⟨⟨d, asked, named⟩, later⟩ :=
        directiveWith_spec (some (String.ofList key)) total left
      rw [asked]
      constructor
      · intro name mem
        rw [named] at mem
        cases mem
        rw [Nameable, String.toList_ofList]
        refine ⟨unbroken.mono ?_, again []⟩
        rw [shown]
        simp
      · refine List.Subset.trans later fun c mem => ?_
        simp [shown, mem]
    · exact ⟨trivial, List.nil_subset _⟩
  · obtain ⟨⟨d, asked, named⟩, later⟩ := directiveWith_spec none total text
    rw [asked]
    refine ⟨fun name mem => ?_, later⟩
    rw [named] at mem
    cases mem

@[simp] theorem partsFrom_nil (fuel : Nat) : partsFrom total fuel [] = [] := by
  cases fuel <;> rfl

@[simp] theorem partsFrom_percent (fuel : Nat) (text : List Char) :
    partsFrom total (fuel + 1) ('%' :: text) =
      (directive total text).1 :: partsFrom total fuel (directive total text).2 := rfl

theorem partsFrom_plain {c : Char} (other : c ≠ '%') (fuel : Nat) (text : List Char) :
    partsFrom total (fuel + 1) (c :: text) = .plain c :: partsFrom total fuel text := by
  rw [partsFrom]
  exact fun same => other same

/-- The parts of a template without line breaks have none either. -/
theorem partsFrom_unbroken (fuel : Nat) (unbroken : Unbroken text) :
    ∀ part ∈ partsFrom total fuel text, part.IsUnbroken := by
  induction fuel generalizing text with
  | zero => simp [partsFrom]
  | succ fuel ih =>
    rcases text with _ | ⟨c, rest⟩
    · simp
    · obtain ⟨first, later⟩ := unbroken_cons.1 unbroken
      by_cases percent : c = '%'
      · subst percent
        obtain ⟨asked, behind⟩ := @directive_unbroken total rest later
        rw [partsFrom_percent, List.forall_mem_cons]
        exact ⟨asked, ih (later.mono behind)⟩
      · rw [partsFrom_plain percent, List.forall_mem_cons]
        exact ⟨first, ih later⟩

end Template

/-! ## Values that are taken -/

section Taken

variable {values left : List Value} {value : Value}

theorem nextValue_eq_ok : nextValue values = .ok (value, left) ↔ values = value :: left := by
  cases values <;> simp [nextValue]

theorem Measure.read_subset {measure : Option Measure} {name target : String} {limit : Nat}
    {n : Option Int} (read : Measure.read name target limit values measure = .ok (n, left)) :
    left ⊆ values := by
  unfold Measure.read at read
  split at read
  case h_1 =>
    cases read
    exact List.Subset.refl _
  case h_2 =>
    split at read
    · cases read
    · cases read
      exact List.Subset.refl _
  case h_3 =>
    obtain ⟨⟨first, rest⟩, taken, later⟩ := except_bind_eq_ok.1 read
    obtain ⟨m, -, checked⟩ := except_bind_eq_ok.1 later
    rw [nextValue_eq_ok.1 taken]
    split at checked
    · cases checked
    · cases checked
      exact List.subset_cons_self _ _

namespace Directive

variable {d : Directive}

theorem layout_subset {layout : Layout} (laid : d.layout values = .ok (layout, left)) :
    left ⊆ values := by
  obtain ⟨⟨width, behind⟩, wide, later⟩ := except_bind_eq_ok.1 laid
  obtain ⟨⟨places, rest⟩, precise, shown⟩ := except_bind_eq_ok.1 later
  cases shown
  exact List.Subset.trans (Measure.read_subset precise) (Measure.read_subset wide)

/-- A directive takes a value that is left, or one under its name. -/
theorem mem_source {named : Option Value} {taken : List Value}
    (found : d.source named values = .ok taken) (mem : value ∈ taken) :
    value ∈ values ∨
      ∃ mapping ∈ named, ∃ name ∈ d.key, Directive.entry? mapping name = some value := by
  unfold source at found
  split at found
  · cases found
    exact .inl mem
  · cases found
  · next name mapping key =>
    split at found
    · next there entry =>
      cases found
      rw [List.mem_singleton] at mem
      exact .inr ⟨mapping, rfl, name, key, mem ▸ entry⟩
    · cases found

end Directive

end Taken

/-! ## Messages -/

/-- The entries that a template without line breaks can name are inline. -/
def Value.EntriesInline (mapping : Value) : Prop :=
  ∀ name value, Nameable name → Directive.entry? mapping name = some value → value.IsInline

section Messages

variable {named : Option Value} {values : List Value} {text : List Char}

/-- A directive adds no line break, and leaves inline values behind. -/
theorem Directive.fill_unbroken {d : Directive} {left : List Value}
    (entries : ∀ mapping ∈ named, mapping.EntriesInline)
    (given : ∀ value ∈ values, value.IsInline) (nameable : ∀ name ∈ d.key, Nameable name)
    (filled : d.fill named values = .ok (text, left)) :
    Unbroken text ∧ ∀ value ∈ left, value.IsInline := by
  obtain ⟨taken, found, behind⟩ := except_bind_eq_ok.1 filled
  obtain ⟨⟨layout, rest⟩, laid, converted⟩ := except_bind_eq_ok.1 behind
  have source : ∀ value ∈ rest, value.IsInline := by
    intro value mem
    rcases mem_source found (layout_subset laid mem) with there | ⟨mapping, is, name, key, entry⟩
    · exact given value there
    · exact entries mapping is name value (nameable name key) entry
  dsimp only at converted
  split at converted
  · cases converted
  · next conversion place _ =>
    obtain ⟨⟨value, later⟩, next, shown⟩ := except_bind_eq_ok.1 converted
    obtain ⟨written, conversion, same⟩ := except_bind_eq_ok.1 shown
    cases same
    rw [nextValue_eq_ok.1 next, List.forall_mem_cons] at source
    exact ⟨Conversion.unbroken_convert source.1 conversion, source.2⟩

/-- Filling parts without line breaks from inline values makes a message without line breaks. -/
theorem Template.fillParts_unbroken {parts : List TemplatePart}
    (entries : ∀ mapping ∈ named, mapping.EntriesInline)
    (given : ∀ value ∈ values, value.IsInline) (whole : ∀ part ∈ parts, part.IsUnbroken)
    (filled : fillParts named values parts = .ok text) : Unbroken text := by
  induction parts generalizing values text with
  | nil =>
    unfold fillParts at filled
    split at filled
    · cases filled
      exact unbroken_nil
    · cases filled
  | cons part parts ih =>
    obtain ⟨first, later⟩ := List.forall_mem_cons.1 whole
    cases part with
    | plain c =>
      obtain ⟨behind, rest, shown⟩ := except_bind_eq_ok.1 filled
      cases shown
      exact unbroken_cons.2 ⟨first, ih given later rest⟩
    | unclosed => cases filled
    | directive d =>
      obtain ⟨⟨front, left⟩, here, more⟩ := except_bind_eq_ok.1 filled
      obtain ⟨behind, rest, shown⟩ := except_bind_eq_ok.1 more
      cases shown
      obtain ⟨unbroken, kept⟩ := Directive.fill_unbroken entries given first here
      exact unbroken_append.2 ⟨unbroken, ih kept later rest⟩

end Messages

/-! ## Templates that reveal -/

/-- For every value there is a conversion that shows a line break unless the value is inline. -/
theorem Value.exists_revealing (value : Value) :
    ∃ conversion ∈ ['s', 'r', 'c'], ∃ text,
      (∀ place, Conversion.convert ⟨[], 0, none⟩ conversion place value = .ok text) ∧
        (Unbroken text → value.IsInline) := by
  have alone (text : String) : Layout.text ⟨[], 0, none⟩ text = text.toList := by
    simp [Layout.text, Layout.padded, Layout.has]
  by_cases spelling : Unbroken value.spelling.toList
  · by_cases literal : Unbroken value.literal.toList
    · by_cases feed : value = .int 10
      · exact ⟨'c', by simp, ['\n'], by rw [feed]; exact fun place => rfl, by simp [IsBreak]⟩
      · by_cases ret : value = .int 13
        · exact ⟨'c', by simp, ['\r'], by rw [ret]; exact fun place => rfl, by simp [IsBreak]⟩
        · exact ⟨'s', by simp, _, fun _ => rfl, fun _ => ⟨spelling, literal, feed, ret⟩⟩
    · refine ⟨'r', by simp, _, fun _ => rfl, fun unbroken => ?_⟩
      exact absurd (alone value.literal ▸ unbroken) literal
  · refine ⟨'s', by simp, _, fun _ => rfl, fun unbroken => ?_⟩
    exact absurd (alone value.spelling ▸ unbroken) spelling

section Revealing

variable {total place : Nat} {conversion : Char} {named : Option Value} {values left : List Value}
  {value : Value} {text : List Char}

/-- A directive with a conversion alone. -/
def Directive.bare (key : Option String) (conversion : Char) (place : Nat) : Directive :=
  ⟨key, [], none, none, some (conversion, place)⟩

theorem Directive.fill_bare {key : Option String}
    (source : (bare key conversion place).source named values = .ok (value :: left))
    (converted : Conversion.convert ⟨[], 0, none⟩ conversion place value = .ok text) :
    (bare key conversion place).fill named values = .ok (text, left) := by
  refine except_bind_eq_ok.2 ⟨_, source, ?_⟩
  exact except_bind_eq_ok.2 ⟨_, rfl, except_bind_eq_ok.2 ⟨_, rfl,
    except_bind_eq_ok.2 ⟨text, converted, rfl⟩⟩⟩

namespace Template

theorem letter_spec (letter : conversion ∈ ['s', 'r', 'c']) :
    conversion ≠ '%' ∧ conversion ≠ '(' ∧ ¬IsBreak conversion := by
  simp only [List.mem_cons, List.not_mem_nil, or_false] at letter
  rcases letter with rfl | rfl | rfl <;> decide

theorem directiveWith_bare (key : Option String) (letter : conversion ∈ ['s', 'r', 'c']) :
    directiveWith key total (conversion :: text) =
      (.directive (.bare key conversion (total - text.length - 1)), text) := by
  simp only [List.mem_cons, List.not_mem_nil, or_false] at letter
  rcases letter with rfl | rfl | rfl <;> simp [directiveWith, measure, precision, withoutSize,
    isAsciiDigit, Directive.bare]

theorem directive_bare (letter : conversion ∈ ['s', 'r', 'c']) :
    directive total (conversion :: text) =
      (.directive (.bare none conversion (total - text.length - 1)), text) := by
  obtain ⟨percent, opening, -⟩ := letter_spec letter
  rw [← directiveWith_bare none letter, directive]
  · exact fun rest same => percent (List.cons.inj same).1
  · exact fun rest same => opening (List.cons.inj same).1

theorem directive_named {name : String} (nameable : Nameable name)
    (letter : conversion ∈ ['s', 'r', 'c']) :
    directive total ('(' :: (name.toList ++ ')' :: conversion :: text)) =
      (.directive (.bare (some name) conversion (total - text.length - 1)), text) := by
  have key := (keyUpTo?_eq_some nameable.2).2 (conversion :: text)
  rw [← directiveWith_bare (some name) letter, directive, key]
  simp

/-- For all values together, a template with one conversion for each. -/
theorem exists_template (values : List Value) :
    ∃ template, Unbroken template ∧ ∀ total fuel, template.length ≤ fuel → ∃ message,
      fillParts none values (partsFrom total fuel template) = .ok message ∧
        (Unbroken message → ∀ value ∈ values, value.IsInline) := by
  induction values with
  | nil => exact ⟨[], unbroken_nil, fun total fuel _ => ⟨[], by simp [fillParts], by simp⟩⟩
  | cons value values ih =>
    obtain ⟨template, unbroken, fills⟩ := ih
    obtain ⟨conversion, letter, text, converted, reveals⟩ := value.exists_revealing
    have front : Unbroken ('%' :: conversion :: template) :=
      unbroken_cons.2 ⟨by decide, unbroken_cons.2 ⟨(letter_spec letter).2.2, unbroken⟩⟩
    refine ⟨_, front, fun total fuel enough => ?_⟩
    obtain ⟨fuel, rfl⟩ : ∃ left, fuel = left + 1 := ⟨fuel - 1, by simp at enough; omega⟩
    obtain ⟨message, filled, all⟩ := fills total fuel (by simp at enough; omega)
    refine ⟨text ++ message, ?_, ?_⟩
    · rw [partsFrom_percent, directive_bare letter]
      exact except_bind_eq_ok.2 ⟨_, Directive.fill_bare rfl (converted _),
        except_bind_eq_ok.2 ⟨message, filled, rfl⟩⟩
    · intro whole
      obtain ⟨front, behind⟩ := unbroken_append.1 whole
      exact List.forall_mem_cons.2 ⟨reveals front, all behind⟩

/-- For a value that a directive takes from a mapping, the template of this directive. -/
theorem exists_single {mapping : Value} {key : Option String} {front : List Char}
    (unbroken : Unbroken front)
    (read : ∀ {conversion}, conversion ∈ ['s', 'r', 'c'] → ∀ total,
      directive total (front ++ [conversion]) = (.directive (.bare key conversion (total - 1)), []))
    (source : ∀ conversion place,
      (Directive.bare key conversion place).source (some mapping) [mapping] = .ok [value]) :
    ∃ template text, Unbroken template.toList ∧
      fill template (.named mapping) = .ok (String.ofList text) ∧
        (Unbroken text → value.IsInline) := by
  obtain ⟨conversion, letter, text, converted, reveals⟩ := value.exists_revealing
  let written := front ++ [conversion]
  have whole : Unbroken ('%' :: written) :=
    unbroken_cons.2 ⟨by decide, unbroken_append.2 ⟨unbroken, by
      simpa using (letter_spec letter).2.2⟩⟩
  have parts : parts (String.ofList ('%' :: written)) =
      [.directive (.bare key conversion (written.length + 1 - 1))] := by
    rw [parts, String.toList_ofList, String.length_ofList, List.length_cons, partsFrom_percent,
      read letter, partsFrom_nil]
  refine ⟨String.ofList ('%' :: written), text, by rwa [String.toList_ofList], ?_, reveals⟩
  refine except_bind_eq_ok.2 ⟨text ++ [], ?_, by rw [List.append_nil]; rfl⟩
  rw [parts]
  exact except_bind_eq_ok.2 ⟨_, Directive.fill_bare (source _ _) (converted _),
    except_bind_eq_ok.2 ⟨[], rfl, rfl⟩⟩

end Template

end Revealing

/-- Whatever a template without line breaks can convert is inline. -/
def LogArguments.IsInline : LogArguments → Prop
  | .positional values => ∀ value ∈ values, value.IsInline
  | .named mapping => mapping.IsInline ∧ mapping.EntriesInline

namespace LogArguments

variable {arguments : LogArguments} {template message : String}

theorem IsInline.unbroken_fill (given : arguments.IsInline) (unbroken : Unbroken template.toList)
    (filled : Template.fill template arguments = .ok message) : Unbroken message.toList := by
  have parts : ∀ part ∈ Template.parts template, part.IsUnbroken :=
    Template.partsFrom_unbroken _ unbroken
  cases arguments with
  | named mapping =>
    obtain ⟨text, written, shown⟩ := except_bind_eq_ok.1 filled
    cases shown
    rw [String.toList_ofList]
    exact Template.fillParts_unbroken (by simpa using given.2) (by simpa using given.1) parts written
  | positional values =>
    cases values with
    | nil =>
      cases filled
      exact unbroken
    | cons value values =>
      obtain ⟨text, written, shown⟩ := except_bind_eq_ok.1 filled
      cases shown
      rw [String.toList_ofList]
      exact Template.fillParts_unbroken (by simp) given parts written

/-- **Which arguments no template without line breaks can turn into a message with one.** -/
theorem unbroken_fill_iff :
    (∀ template message, Unbroken template.toList → Template.fill template arguments = .ok message →
      Unbroken message.toList) ↔ arguments.IsInline := by
  refine ⟨fun all => ?_, fun given template message => given.unbroken_fill⟩
  cases arguments with
  | positional values =>
    cases values with
    | nil => simp [IsInline]
    | cons value values =>
      obtain ⟨template, unbroken, fills⟩ := Template.exists_template (value :: values)
      obtain ⟨message, filled, reveals⟩ := fills template.length template.length le_rfl
      refine reveals ?_
      have written : Template.fill (String.ofList template) (.positional (value :: values)) =
          .ok (String.ofList message) := by
        refine except_bind_eq_ok.2 ⟨message, ?_, rfl⟩
        rwa [Template.parts, String.toList_ofList, String.length_ofList]
      simpa using all _ _ (by simpa using unbroken) written
  | named mapping =>
    constructor
    · have source (conversion : Char) (place : Nat) :
          (Directive.bare none conversion place).source (some mapping) [mapping] =
            .ok [mapping] := rfl
      obtain ⟨template, text, unbroken, filled, reveals⟩ := Template.exists_single unbroken_nil
        (fun letter _ => Template.directive_bare letter) source
      exact reveals (by simpa using all _ _ unbroken filled)
    · intro name value nameable entry
      have opening : Unbroken ('(' :: (name.toList ++ [')'])) := by simp [nameable.1, IsBreak]
      have read {conversion : Char} (letter : conversion ∈ ['s', 'r', 'c']) (total : Nat) :
          Template.directive total ('(' :: (name.toList ++ [')']) ++ [conversion]) =
            (.directive (.bare (some name) conversion (total - 1)), []) := by
        rw [List.cons_append, List.append_assoc]
        exact Template.directive_named nameable letter
      have source (conversion : Char) (place : Nat) :
          (Directive.bare (some name) conversion place).source (some mapping) [mapping] =
            .ok [value] := by simp [Directive.source, Directive.bare, entry]
      obtain ⟨template, text, unbroken, filled, reveals⟩ :=
        Template.exists_single opening read source
      exact reveals (by simpa using all _ _ unbroken filled)

end LogArguments

end MediaCommand
