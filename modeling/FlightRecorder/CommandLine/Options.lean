/-!
# Options of the command line

The words of the command line are read on two levels: the program itself, and the command that it is
asked to run. Each level has its options and its operands; the program also has the commands.
-/

namespace FlightRecorder

/-- Why a command line is not carried out. -/
inductive UsageFault
  /-- An option without its value, or an empty path. -/
  | invalidValue
  | unknownArgument
  | invalidSubcommand
  /-- A value for an option that takes none. -/
  | tooManyValues
  /-- A value that is no number of the right size. -/
  | valueValidation
  | argumentConflict
  | missingRequiredArgument
  | missingSubcommand
  /-- Help was asked for. -/
  | displayHelp
  /-- Nothing was asked for. -/
  | displayHelpOnMissing
  /-- The version was asked for. -/
  | displayVersion
  deriving DecidableEq, Repr

/-- What can be given on the command line. -/
inductive OptionKey
  | port
  | baud
  | controlTimeout
  | dataTimeout
  | logFile
  | verbose
  | quiet
  | help
  | version
  | json
  | output
  | index
  deriving DecidableEq, Repr

namespace OptionKey

/-- The name behind two dashes. -/
def long? : OptionKey → Option String
  | port => some "port"
  | baud => some "baud"
  | controlTimeout => some "control-timeout-ms"
  | dataTimeout => some "data-timeout-ms"
  | logFile => some "log-file"
  | verbose => some "verbose"
  | quiet => some "quiet"
  | help => some "help"
  | version => some "version"
  | json => some "json"
  | output => some "output"
  | index => none

/-- The letter behind one dash. -/
def short? : OptionKey → Option Char
  | port => some 'p'
  | baud => some 'b'
  | verbose => some 'v'
  | quiet => some 'q'
  | help => some 'h'
  | version => some 'V'
  | output => some 'o'
  | _ => none

/-- Whether a value belongs to it. -/
def takesValue : OptionKey → Bool
  | verbose | quiet | help | version | json => false
  | _ => true

/-- Whether it may be given more than once. -/
def repeats : OptionKey → Bool
  | verbose | quiet => true
  | _ => false

end OptionKey

/-! ## Levels -/

/-- The commands of the program. -/
inductive CommandName
  | ping
  | list
  | info
  | download
  | exit
  deriving DecidableEq, Repr

/-- The word of a command. -/
def CommandName.word : CommandName → String
  | ping => "ping"
  | list => "list"
  | info => "info"
  | download => "download"
  | exit => "exit"

/-- All commands. -/
def CommandName.all : List CommandName := [.ping, .list, .info, .download, .exit]

/-- The command of a word. -/
def CommandName.ofWord? (word : String) : Option CommandName :=
  CommandName.all.find? fun name => name.word = word

/-- The word with which help is asked for in the place of a command. -/
def helpWord : String := "help"

/-- Where a word stands: before the command, or behind it. -/
inductive Level
  | program
  | command (name : CommandName)
  deriving DecidableEq, Repr

namespace Level

/-- The options of a level. -/
def options : Level → List OptionKey
  | program =>
    [.port, .baud, .controlTimeout, .dataTimeout, .logFile, .verbose, .quiet, .help, .version]
  | command .list => [.json, .verbose, .quiet, .help]
  | command .download => [.output, .verbose, .quiet, .help]
  | command _ => [.verbose, .quiet, .help]

/-- The operands of a level, in order. -/
def operands : Level → List OptionKey
  | command .info => [.index]
  | command .download => [.index]
  | _ => []

/-- What has to be given on a level. -/
def required : Level → List OptionKey
  | program => [.port]
  | command .info => [.index]
  | command .download => [.index]
  | _ => []

/-- The option of a name behind two dashes. -/
def long? (level : Level) (name : String) : Option OptionKey :=
  level.options.find? fun key => key.long? = some name

/-- The option of a letter behind one dash. -/
def short? (level : Level) (letter : Char) : Option OptionKey :=
  level.options.find? fun key => key.short? = some letter

/-- Whether a word stands for a command, or asks for help, on this level. -/
def isCommandWord (level : Level) (word : String) : Bool :=
  level = program && ((CommandName.ofWord? word).isSome || word = helpWord)

end Level

/-! ## Values -/

/-- The number that a text of digits stands for. -/
def digitsNumber? (text : List Char) : Option Nat :=
  if text ≠ [] ∧ text.all Char.isDigit then some (Nat.ofDigitChars 10 text 0) else none

/-- A number that may have a sign; only zero may be negative. -/
def signedNumber? (text : List Char) : Option Nat :=
  match text with
  | '+' :: digits => digitsNumber? digits
  | '-' :: digits => (digitsNumber? digits).filter (· = 0)
  | digits => digitsNumber? digits

/-- A number that may have a plus sign. -/
def unsignedNumber? (text : List Char) : Option Nat :=
  match text with
  | '+' :: digits => digitsNumber? digits
  | digits => digitsNumber? digits

/-- The number that a value stands for, where a number is needed. -/
def OptionKey.number? (key : OptionKey) (value : String) : Option Nat :=
  match key with
  | baud => (signedNumber? value.toList).filter (· < UInt32.size)
  | index => (signedNumber? value.toList).filter (· < UInt8.size)
  | _ => (unsignedNumber? value.toList).filter (· < UInt64.size)

/-- Checks a value. -/
def OptionKey.check (key : OptionKey) (value : String) : Except UsageFault Unit :=
  match key with
  | logFile | output => if value = "" then .error .invalidValue else .ok ()
  | baud | index | controlTimeout | dataTimeout =>
    if (key.number? value).isSome then .ok () else .error .valueValidation
  | _ => .ok ()

end FlightRecorder
