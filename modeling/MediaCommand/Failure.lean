import MediaCommand.Value

/-!
# Failures

Why an operation failed, by cause. `Failure.message` is the one place where a cause is worded.
-/

namespace MediaCommand

/-- A broken promise of the caller. -/
inductive Contract where
  | nullKey
  | missingHeight
  | outOfRange (low high value : String)
  | graphWithoutSet
  | nullGraph
  | emptyOption
  | emptySplit
  | emptyOutput
  | noPixelFormat
  | undeclaredVariants (catalog : String) (variants : List String)
  /-- A promise that the caller worded. -/
  | stated (message : String)
  deriving DecidableEq, Repr

/-- Why a program could not be started. -/
inductive LaunchFault where
  | notFound
  | notPermitted
  | system
  /-- A fault outside the operating system, by its kind. -/
  | other (kind : String)
  deriving DecidableEq, Repr

inductive Failure where
  | contract (broken : Contract)
  | unknownVariant (catalog variant : String)
  | emptyCommand
  /-- The program ended with a code other than zero. -/
  | commandFailed (program : String) (exitCode : Int)
  | launch (fault : LaunchFault) (message : String)
  /-- A decimal outside the precision, or one without an order. -/
  | decimalInvalid
  /-- An integer quotient of decimals beyond the precision. -/
  | quotientTooLarge
  | decimalNanToInteger
  | decimalInfinityToInteger
  /-- A literal that no decimal is written as. -/
  | decimalSyntax
  | nanToInteger
  | infinityToInteger
  | signalingNan
  | integerTooLarge
  /-- An integer of more digits than can be written. -/
  | integerTooLong
  /-- A numeral of more digits than can be read as an integer. -/
  | numeralTooLong (digits : Nat)
  | notInteger (text : String)
  | notReal (text : String)
  | tooFewParts (expected got : Nat)
  | tooManyParts (expected : Nat)
  | noAttribute (kind name : String)
  | unordered (operator left right : String)
  | noOperator (operator left right : String)
  | notIterable (kind : String)
  | notUnpackable (kind : String)
  | notNumber (kind : String)
  /-- A value that cannot be turned into an integer. -/
  | noInteger (kind : String)
  | formatMissing
  | formatUnused
  | formatNumber (conversion : Char) (kind : String)
  | formatInteger (conversion : Char) (kind : String)
  | formatCharacter
  | formatCodePoint
  /-- A width or a precision in the arguments that is no integer. -/
  | formatStar
  /-- A width or a precision in a template that is too big. -/
  | formatTooBig (measure : String)
  /-- A width or a precision in the arguments that is too big. -/
  | formatBeyond (target : String)
  | formatMapping
  | formatKey (key : String)
  | formatKeyUnclosed
  | formatIncomplete
  | formatUnknown (conversion : Char) (place : Nat)
  /-- Settings that do not validate: each field with its problem. -/
  | settings (problems : List (String × String))
  /-- A reference to an object that was never made. -/
  | noObject
  /-- An object that was called like an operation. -/
  | notCallable (kind : String)
  /-- A document with containers of a kind nested too deep. -/
  | nestedTooDeep (container : String)
  deriving DecidableEq, Repr

namespace Contract

def message : Contract → String
  | .nullKey => "The command input cannot be null"
  | .missingHeight => "Scale height is required when width is not a VideoSize"
  | .outOfRange low high value =>
    "Value out of range(" ++ low ++ ", " ++ high ++ "), but your value is " ++ value
  | .graphWithoutSet => "This graph does not belong to a filter set"
  | .nullGraph => "The filter graph cannot be null"
  | .emptyOption => "The filter option name cannot be empty"
  | .emptySplit => "The input split stream name cannot be empty"
  | .emptyOutput => "The output path cannot be empty"
  | .noPixelFormat => "At least one pixel format is required"
  | .undeclaredVariants catalog variants =>
    catalog ++ " declares no variant(s): " ++ ", ".intercalate variants
  | .stated message => message

end Contract

namespace Failure

/-- The operands of a failed operation, in quotes. -/
private def operands (left right : String) : String :=
  "'" ++ left ++ "' and '" ++ right ++ "'"

/-- How much of a text that is no integer is shown. -/
def shownLength : Nat := 200

private def conversionLimit : String :=
  "Exceeds the limit (" ++ toString digitLimit ++ " digits) for integer string conversion"

private def adjustLimit : String :=
  "; use sys.set_int_max_str_digits() to increase the limit"

def message : Failure → String
  | .contract broken => broken.message
  | .unknownVariant catalog variant => catalog ++ " has no variant named " ++ quoted variant
  | .emptyCommand => "Command list must not be empty"
  | .commandFailed program exitCode =>
    program ++ " command exited with code " ++ toString exitCode
  | .launch _ message => message
  | .decimalInvalid => "[<class 'decimal.InvalidOperation'>]"
  | .quotientTooLarge => "[<class 'decimal.DivisionImpossible'>]"
  | .decimalNanToInteger => "cannot convert NaN to integer"
  | .decimalInfinityToInteger => "cannot convert Infinity to integer"
  | .decimalSyntax => "[<class 'decimal.ConversionSyntax'>]"
  | .nanToInteger => "cannot convert float NaN to integer"
  | .infinityToInteger => "cannot convert float infinity to integer"
  | .signalingNan => "cannot convert signaling NaN to float"
  | .integerTooLarge => "int too large to convert to float"
  | .integerTooLong => conversionLimit ++ adjustLimit
  | .numeralTooLong digits =>
    conversionLimit ++ ": value has " ++ toString digits ++ " digits" ++ adjustLimit
  | .notInteger text =>
    "invalid literal for int() with base 10: "
      ++ String.ofList ((quoted text).toList.take shownLength)
  | .notReal text => "could not convert string to float: " ++ quoted text
  | .tooFewParts expected got =>
    "not enough values to unpack (expected " ++ toString expected ++ ", got " ++ toString got ++ ")"
  | .tooManyParts expected =>
    "too many values to unpack (expected " ++ toString expected ++ ")"
  | .noAttribute kind name => "'" ++ kind ++ "' object has no attribute '" ++ name ++ "'"
  | .unordered operator left right =>
    "'" ++ operator ++ "' not supported between instances of " ++ operands left right
  | .noOperator operator left right =>
    "unsupported operand type(s) for " ++ operator ++ ": " ++ operands left right
  | .notIterable kind => "'" ++ kind ++ "' object is not iterable"
  | .notUnpackable kind => "cannot unpack non-iterable " ++ kind ++ " object"
  | .notNumber kind => "must be real number, not " ++ kind
  | .noInteger kind =>
    "int() argument must be a string, a bytes-like object or a real number, not '" ++ kind ++ "'"
  | .formatMissing => "not enough arguments for format string"
  | .formatUnused => "not all arguments converted during string formatting"
  | .formatNumber conversion kind =>
    "%" ++ toString conversion ++ " format: a real number is required, not " ++ kind
  | .formatInteger conversion kind =>
    "%" ++ toString conversion ++ " format: an integer is required, not " ++ kind
  | .formatCharacter => "%c requires int or char"
  | .formatCodePoint => "%c arg not in range(0x110000)"
  | .formatStar => "* wants int"
  | .formatTooBig measure => measure ++ " too big"
  | .formatBeyond target => "Python int too large to convert to C " ++ target
  | .formatMapping => "format requires a mapping"
  | .formatKey key => quoted key
  | .formatKeyUnclosed => "incomplete format key"
  | .formatIncomplete => "incomplete format"
  | .formatUnknown conversion place =>
    let shown := if 31 ≤ conversion.toNat ∧ conversion.toNat ≤ 126 then conversion else '?'
    "unsupported format character '" ++ toString shown ++ "' (0x"
      ++ String.ofList (Nat.toDigits 16 conversion.toNat) ++ ") at index " ++ toString place
  | .settings problems =>
    "; ".intercalate (problems.map fun problem => problem.1 ++ ": " ++ problem.2)
  | .noObject => "no such object"
  | .notCallable kind => "'" ++ kind ++ "' object is not callable"
  | .nestedTooDeep container =>
    "maximum recursion depth exceeded while decoding a JSON " ++ container
      ++ " from a unicode string"

end Failure

/-- An operation on a state. A failure, too, leaves the state that it reached. -/
abbrev Action (σ α : Type) := EStateM Failure σ α

/-- Runs an action on one part of a larger state. -/
def Action.within {σ τ α : Type} (part : σ → τ) (replace : τ → σ → σ) (action : Action τ α) :
    Action σ α := fun s =>
  match action (part s) with
  | .ok result t => .ok result (replace t s)
  | .error failure t => .error failure (replace t s)

/-- An outcome without a state, as an action. -/
def Action.ofExcept {σ α : Type} : Except Failure α → Action σ α
  | .ok result => pure result
  | .error failure => throw failure

/-- The object behind a reference. -/
def requireObject {σ α : Type} : Option α → Action σ α
  | some object => return object
  | none => throw .noObject

end MediaCommand
