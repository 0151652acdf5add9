import FlightRecorder.CommandLine.Options

/-!
# Reading the words of a level

The words of a level are read one after the other. An option that takes a value may find it in the
same word, or else takes the next one; a value is checked only when the next thing is given, so an
unknown word is reported before the value in front of it. Behind a word of two dashes nothing is an
option or a command any more.

* `readWords` — the words up to the command, or up to the end
* `Reading.finish` — what has to hold at the end
-/

namespace FlightRecorder

/-- What has been read of a level. -/
structure Reading where
  level : Level
  /-- What was given, in order; an option without a value has an empty one. -/
  given : List (OptionKey × String)
  /-- Given last and not yet checked: an option that waits for its value or has found it, or an
  operand. -/
  pending : Option (OptionKey × Option String)
  /-- The operands that may still come. -/
  operands : List OptionKey
  deriving DecidableEq, Repr

namespace Reading

/-- Nothing has been read. -/
def start (level : Level) : Reading where
  level := level
  given := []
  pending := none
  operands := level.operands

/-- How often an option was given. -/
def count (r : Reading) (key : OptionKey) : Nat := r.given.countP (·.1 = key)

/-- The value that was given for an option. -/
def value? (r : Reading) (key : OptionKey) : Option String := r.given.lookup key

/-- Adds what was given: nothing is given twice, and its value has to fit. -/
def give (r : Reading) (key : OptionKey) (value : String) : Except UsageFault Reading := do
  if r.count key ≠ 0 ∧ !key.repeats then throw .argumentConflict
  key.check value
  pure { r with given := r.given ++ [(key, value)] }

/-- Adds what was given last, if it is still to be checked. -/
def settle (r : Reading) : Except UsageFault Reading :=
  match r.pending with
  | none => .ok r
  | some (_, none) => .error .invalidValue
  | some (key, some value) => { r with pending := none }.give key value

/-- An option with its value in the same word. -/
def giveAttached (r : Reading) (key : OptionKey) (value : String) : Except UsageFault Reading := do
  (← r.settle).give key value

/-- An option that takes the next word as its value. -/
def expect (r : Reading) (key : OptionKey) : Except UsageFault Reading := do
  pure { ← r.settle with pending := some (key, none) }

/-- An option without a value. -/
def raise (r : Reading) (key : OptionKey) : Except UsageFault Reading := do
  let r ← r.settle
  match key with
  | .help => throw .displayHelp
  | .version => throw .displayVersion
  | _ => r.give key ""

/-- Whether an option waits for the next word. -/
def isWaiting (r : Reading) : Bool :=
  match r.pending with
  | some (_, none) => true
  | _ => false

/-- An operand. Where none is left, the word is no command either. -/
def operand (r : Reading) (literal : Bool) (word : String) : Except UsageFault Reading :=
  match r.operands with
  | key :: operands => do
    pure { ← r.settle with pending := some (key, some word), operands := operands }
  | [] =>
    if r.level ≠ .program then .error .unknownArgument
    else if literal && r.level.isCommandWord word then .error .unknownArgument
    else .error .invalidSubcommand

/-! ## Words -/

/-- Splits a word at its first equals sign. -/
def splitEquals (word : List Char) : String × Option String :=
  match word.dropWhile (· ≠ '=') with
  | _ :: value => (String.ofList (word.takeWhile (· ≠ '=')), some (String.ofList value))
  | [] => (String.ofList word, none)

/-- A word behind two dashes. -/
def long (r : Reading) (word : List Char) : Except UsageFault Reading :=
  match splitEquals word with
  | (name, value?) =>
    match r.level.long? name with
    | none => .error .unknownArgument
    | some key =>
      match key.takesValue, value? with
      | true, some value => r.giveAttached key value
      | true, none => r.expect key
      | false, some _ => .error .tooManyValues
      | false, none => r.raise key

/-- Letters behind one dash. The letters behind an option that takes a value are its value, with or
without an equals sign. -/
def letters (r : Reading) : List Char → Except UsageFault Reading
  | [] => .ok r
  | letter :: rest =>
    match r.level.short? letter with
    | none => .error .unknownArgument
    | some key =>
      if key.takesValue then
        match rest with
        | [] => r.expect key
        | '=' :: value => r.giveAttached key (String.ofList value)
        | value => r.giveAttached key (String.ofList value)
      else
        match r.raise key with
        | .error fault => .error fault
        | .ok r => r.letters rest

/-- A word that is no command. -/
def word (r : Reading) (word : String) : Except UsageFault Reading :=
  match word.toList with
  | '-' :: '-' :: name => r.long name
  | '-' :: letter :: rest => r.letters (letter :: rest)
  | _ =>
    match r.pending with
    | some (key, none) => .ok { r with pending := some (key, some word) }
    | _ => r.operand false word

/-- Reads words up to a command: what was read, and the words from the command on. -/
def words (r : Reading) (literal : Bool) : List String → Except UsageFault (Reading × List String)
  | [] => .ok (r, [])
  | word :: rest =>
    if literal then
      match r.operand true word with
      | .error fault => .error fault
      | .ok r => r.words true rest
    else if !r.isWaiting && r.level.isCommandWord word then .ok (r, word :: rest)
    else if word = "--" then r.words true rest
    else
      match r.word word with
      | .error fault => .error fault
      | .ok r => r.words false rest

/-! ## The end of a level -/

/-- Options of which only one may be given. -/
def hasConflict (r : Reading) : Bool := r.count .verbose ≠ 0 && r.count .quiet ≠ 0

/-- Checks a level whose words have all been read. -/
def finish (r : Reading) : Except UsageFault Reading := do
  let r ← r.settle
  if r.hasConflict then throw .argumentConflict
  if r.level.required.any (fun key => r.count key = 0) then throw .missingRequiredArgument
  pure r

end Reading

end FlightRecorder
