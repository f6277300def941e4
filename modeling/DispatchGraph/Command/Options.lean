import DispatchGraph.Numeral.Digits
import DispatchGraph.Signature

/-!
# Options of the command line

Arguments are taken one at a time, from left to right (`Arguments.step`). An option takes its value
after an equals sign or from the next argument. A value that follows its option waits until the next
known option, or until the end, before it is looked at; an argument that nobody knows is reported
first. A value of its own may not begin with a dash, unless it is a single dash.

* `Options.parse`: the options, or what is wrong with the arguments.
-/

namespace DispatchGraph

/-- The format of the report. -/
inductive ReportFormat where
  | sarif | json
  deriving DecidableEq

/-- What a call of the program asks for. -/
structure Options where
  /-- The model of the application. -/
  input : String
  /-- The models of the libraries. -/
  classpath : List String
  /-- Where to start; at the main methods, if there are none. -/
  entries : List Signature
  /-- Where the report goes. -/
  output : Option String
  format : ReportFormat
  /-- How many methods to visit. -/
  maxMethods : Option Nat
  /-- Show no warnings. -/
  quiet : Bool
  /-- Show counts and the time that the run took. -/
  timing : Bool
  deriving DecidableEq

/-- Why a call of the program does not run. -/
inductive Usage where
  /-- The help text was asked for. -/
  | help
  /-- The version was asked for. -/
  | version
  /-- There is no input. -/
  | missingInput
  /-- An argument is no option, or stands where no value is due. -/
  | unknownArgument
  /-- A value is missing, empty where it must not be, or not one of those that are allowed. -/
  | invalidValue
  /-- A value cannot be read. -/
  | unreadableValue
  /-- An option that may be given once is given twice. -/
  | repeatedArgument
  /-- A flag has a value. -/
  | unneededValue
  deriving DecidableEq

/-- The exit code of a call that does not run. -/
def Usage.exitCode : Usage → Nat
  | help => 0
  | version => 0
  | _ => 2

/-- The options that take a value. -/
inductive ValueOption where
  | input | classpath | entry | output | format | maxMethods
  deriving DecidableEq

/-- The options that take none. -/
inductive Flag where
  | quiet | timing | help | version
  deriving DecidableEq

/-- An option by its long name. -/
def longOption? (name : String) : Option (ValueOption ⊕ Flag) :=
  match name with
  | "input" => some (.inl .input)
  | "classpath" => some (.inl .classpath)
  | "entry" => some (.inl .entry)
  | "output" => some (.inl .output)
  | "format" => some (.inl .format)
  | "max-methods" => some (.inl .maxMethods)
  | "quiet" => some (.inr .quiet)
  | "timing" => some (.inr .timing)
  | "help" => some (.inr .help)
  | "version" => some (.inr .version)
  | _ => none

/-- An option by its letter. -/
def shortOption? : Char → Option Flag
  | 'h' => some .help
  | 'V' => some .version
  | _ => none

/-! ## Values -/

/-- A path must not be empty. -/
def readPath (value : String) : Except Usage String :=
  if value = "" then .error .invalidValue else .ok value

/-- An entry point is a signature in its written form. -/
def readEntry (value : String) : Except Usage Signature :=
  (Signature.parse value).mapError fun _ => .unreadableValue

/-- A format is given by its name, in lower case. -/
def readFormat : String → Except Usage ReportFormat
  | "sarif" => .ok .sarif
  | "json" => .ok .json
  | _ => .error .invalidValue

/-- The largest count. -/
def maxCount : Nat := Nat.pow 2 64 - 1

/-- Digits, with a plus sign before them or without. -/
def readCount? (value : String) : Option Nat :=
  let digits := match value.toList with
    | '+' :: cs => cs
    | cs => cs
  if digits ≠ [] && digits.all Char.isDigit then
    let n := digitsValue digits
    if n ≤ maxCount then some n else none
  else none

/-- A count that cannot be read is a fault of its value. -/
def readCount (value : String) : Except Usage Nat :=
  match readCount? value with
  | some n => .ok n
  | none => .error .unreadableValue

/-! ## Arguments -/

/-- What the arguments so far say. -/
structure Arguments where
  input : Option String
  classpath : List String
  entries : List Signature
  output : Option String
  format : Option ReportFormat
  maxMethods : Option Nat
  quiet : Bool
  timing : Bool
  /-- The last option, if its value was due after it, and that value. -/
  pending : Option (ValueOption × Option String)
  /-- No options follow. -/
  closed : Bool

namespace Arguments

/-- No arguments. -/
def start : Arguments := ⟨none, [], [], none, none, none, false, false, none, false⟩

/-- A value for an option that may be given once. -/
def once {α : Type} (old : Option α) (read : String → Except Usage α) (value : String) :
    Except Usage (Option α) :=
  if old.isSome then .error .repeatedArgument else (read value).map some

/-- An option with its value. -/
def set (a : Arguments) (option : ValueOption) (value : String) : Except Usage Arguments :=
  match option with
  | .input => do return { a with input := ← once a.input readPath value }
  | .classpath => do return { a with classpath := a.classpath ++ [← readPath value] }
  | .entry => do return { a with entries := a.entries ++ [← readEntry value] }
  | .output => do return { a with output := ← once a.output readPath value }
  | .format => do return { a with format := ← once a.format readFormat value }
  | .maxMethods => do return { a with maxMethods := ← once a.maxMethods readCount value }

/-- An option without a value. -/
def raise (a : Arguments) : Flag → Except Usage Arguments
  | .quiet => if a.quiet then .error .repeatedArgument else .ok { a with quiet := true }
  | .timing => if a.timing then .error .repeatedArgument else .ok { a with timing := true }
  | .help => .error .help
  | .version => .error .version

/-- Look at the value that waits. -/
def settle (a : Arguments) : Except Usage Arguments :=
  match a.pending with
  | none => .ok a
  | some (_, none) => .error .invalidValue
  | some (option, some value) => { a with pending := none }.set option value

/-- An argument that begins with two dashes: a name, and perhaps an equals sign and a value. -/
def long (a : Arguments) (text : List Char) : Except Usage Arguments :=
  let name := String.ofList (text.takeWhile (· != '='))
  let attached := match text.dropWhile (· != '=') with
    | [] => none
    | _ :: value => some (String.ofList value)
  match longOption? name, attached with
  | none, _ => .error .unknownArgument
  | some (.inl option), some value => do (← a.settle).set option value
  | some (.inl option), none => do return { ← a.settle with pending := some (option, none) }
  | some (.inr _), some _ => .error .unneededValue
  | some (.inr flag), none => do (← a.settle).raise flag

/-- An argument that begins with one dash: letters, of which the first decides. -/
def short (a : Arguments) (letter : Char) : Except Usage Arguments :=
  match shortOption? letter with
  | none => .error .unknownArgument
  | some flag => do (← a.settle).raise flag

/-- An argument that is no option: the value that is due. -/
def plain (a : Arguments) (value : String) : Except Usage Arguments :=
  match a.pending with
  | some (option, none) => .ok { a with pending := some (option, some value) }
  | _ => .error .unknownArgument

/-- Take one argument. -/
def step (a : Arguments) (argument : String) : Except Usage Arguments :=
  if a.closed then .error .unknownArgument
  else
    match argument.toList with
    | ['-', '-'] => .ok { a with closed := true }
    | '-' :: '-' :: text => a.long text
    | '-' :: letter :: _ => a.short letter
    | _ => a.plain argument

/-- The options, once all arguments are taken. -/
def finish (a : Arguments) : Except Usage Options := do
  let a ← a.settle
  match a.input with
  | none => .error .missingInput
  | some input => return {
      input
      classpath := a.classpath
      entries := a.entries
      output := a.output
      format := a.format.getD .sarif
      maxMethods := a.maxMethods
      quiet := a.quiet
      timing := a.timing }

end Arguments

/-- The options that arguments stand for. -/
def Options.parse (arguments : List String) : Except Usage Options := do
  (← arguments.foldlM Arguments.step Arguments.start).finish

end DispatchGraph
