import AmqpBlob.Decoder

/-!
# Arguments of the inspection command

The command line names a subcommand, its files and its options. An option's value stands behind an
equals sign or in the next argument, for a short option also directly behind its letter; options may
stand before, between and behind files, and `--` ends them. Each option may be given once.

Arguments are understood from left to right, and each is checked before the next one is looked at:
a request for help is granted if nothing before it was wrong.
-/

namespace AmqpBlob.Inspect

/-- Where log events start to be written. -/
inductive LogLevel where
  | error
  | warn
  | info
  | debug
  | trace
  deriving DecidableEq, Repr

/-- What the command is to do. -/
inductive Action where
  /-- Write the schema of each file, in the order of the declarations or of their uses. -/
  | schema (declared : Bool)
  /-- Write the value of each file. -/
  | dump (options : DecodeOptions)

/-- A command line that was understood. -/
structure Request where
  /-- What is to be done. -/
  action : Action
  /-- The files to do it on. -/
  files : List String
  /-- The file that the output goes to, instead of the standard output. -/
  output? : Option String
  /-- Where log events start to be written. -/
  logLevel : LogLevel

/-- Why there is nothing to do. -/
inductive Refusal where
  /-- Help was asked for. -/
  | help
  /-- The command line is not understood. -/
  | misuse
  deriving DecidableEq, Repr

/-- The options of the command. -/
inductive OptionName where
  | logLevel
  | declared
  | lenient
  | maxDepth
  | output
  | help
  deriving DecidableEq, Repr

/-- One argument, or two that belong together. -/
inductive Item where
  /-- A file. -/
  | file (path : String)
  /-- An option with its value, which is empty for a flag. -/
  | option (name : OptionName) (value : String)

namespace OptionName

/-- Whether the option has no value. -/
def isFlag : OptionName → Bool
  | declared | lenient | help => true
  | logLevel | maxDepth | output => false

/-- The long name of an option. -/
def long : OptionName → String
  | logLevel => "log-level"
  | declared => "declared"
  | lenient => "lenient"
  | maxDepth => "max-depth"
  | output => "output"
  | help => "help"

/-- The letter of an option. -/
def short? : OptionName → Option Char
  | output => some 'o'
  | help => some 'h'
  | _ => none

end OptionName

/-- The options before the subcommand. -/
def commonOptions : List OptionName :=
  [.logLevel, .help]

/-- A subcommand of the command line. -/
inductive Subcommand where
  | schema
  | dump
  deriving DecidableEq, Repr

/-- The options of a subcommand. -/
def Subcommand.options : Subcommand → List OptionName
  | schema => .declared :: .output :: commonOptions
  | dump => .lenient :: .maxDepth :: .output :: commonOptions

/-- The value of an option in the next argument. A hyphen alone is a value, but not more behind
it. -/
def nextValue : List String → Except Refusal (String × List String)
  | [] => .error .misuse
  | value :: rest =>
    match value.toList with
    | '-' :: _ :: _ => .error .misuse
    | _ => .ok (value, rest)

/-- An argument `--name` or `--name=value`, without its hyphens. -/
def longOption (allowed : List OptionName) (text : List Char) (rest : List String) :
    Except Refusal (Item × List String) := do
  let name := String.ofList (text.takeWhile (· ≠ '='))
  match allowed.find? fun option => option.long == name, text.dropWhile (· ≠ '=') with
  | none, _ => throw .misuse
  | some option, [] =>
    if option.isFlag then
      return (.option option "", rest)
    else
      let (value, rest) ← nextValue rest
      return (.option option value, rest)
  | some option, _ :: value =>
    if option.isFlag then
      throw .misuse
    else
      return (.option option (String.ofList value), rest)

/-- An argument of a hyphen and a letter, possibly with a value. What stands behind the letter of
help is not looked at. -/
def shortOption (allowed : List OptionName) (letter : Char) (text : List Char)
    (rest : List String) : Except Refusal (Item × List String) := do
  match allowed.find? fun option => option.short? == some letter, text with
  | none, _ => throw .misuse
  | some .help, _ => return (.option .help "", rest)
  | some option, [] =>
    let (value, rest) ← nextValue rest
    return (.option option value, rest)
  | some option, '=' :: value => return (.option option (String.ofList value), rest)
  | some option, value => return (.option option (String.ofList value), rest)

/-- The first item of the arguments. -/
def firstItem (allowed : List OptionName) (argument : String) (rest : List String) :
    Except Refusal (Item × List String) :=
  match argument.toList with
  | '-' :: '-' :: text => longOption allowed text rest
  | '-' :: letter :: text => shortOption allowed letter text rest
  | _ => .ok (.file argument, rest)

/-- A number of 64 bits in decimal digits, possibly with a plus sign. -/
def number? (text : String) : Option Nat :=
  let digits : List Char :=
    match text.toList with
    | '+' :: rest => rest
    | digits => digits
  let value : Nat := digits.foldl (fun value digit => value * 10 + (digit.toNat - '0'.toNat)) 0
  if digits ≠ [] ∧ digits.all Char.isDigit ∧ value < Nat.pow 2 64 then some value else none

/-- A level by its name, in letters of either case, or by its number. -/
def LogLevel.ofText? (text : String) : Option LogLevel :=
  match number? text with
  | some 1 => some error
  | some 2 => some warn
  | some 3 => some info
  | some 4 => some debug
  | some 5 => some trace
  | some _ => none
  | none =>
    match text.toLower with
    | "error" => some error
    | "warn" => some warn
    | "info" => some info
    | "debug" => some debug
    | "trace" => some trace
    | _ => none

/-- The path of a file, which is never empty. -/
def path? (text : String) : Option String :=
  if text = "" then none else some text

/-- What the arguments up to some point ask for. -/
structure Given where
  /-- The files, in their order. -/
  files : List String := []
  /-- The log level. -/
  logLevel? : Option LogLevel := none
  /-- Whether schemas are to be in the order of their declarations. -/
  declared? : Option Unit := none
  /-- Whether values may have a descriptor that is not the one of their type. -/
  lenient? : Option Unit := none
  /-- The number of levels that values may have. -/
  maxDepth? : Option Nat := none
  /-- The file that the output goes to. -/
  output? : Option String := none

/-- The value of an option that may be given once: `before?` is what was given before, `value?` what
is given now, if it makes sense. -/
def once {α : Type} (before? value? : Option α) : Except Refusal (Option α) :=
  match before?, value? with
  | none, some value => .ok (some value)
  | _, _ => .error .misuse

namespace Given

/-- Adds an item to what was given before it. -/
def add (given : Given) : Item → Except Refusal Given
  | .file text =>
    match path? text with
    | some path => .ok { given with files := given.files ++ [path] }
    | none => .error .misuse
  | .option .help _ => .error .help
  | .option .logLevel text => do
    return { given with logLevel? := ← once given.logLevel? (LogLevel.ofText? text) }
  | .option .declared _ => do
    return { given with declared? := ← once given.declared? (some ()) }
  | .option .lenient _ => do
    return { given with lenient? := ← once given.lenient? (some ()) }
  | .option .maxDepth text => do
    return { given with maxDepth? := ← once given.maxDepth? (number? text) }
  | .option .output text => do
    return { given with output? := ← once given.output? (path? text) }

/-- Adds a subcommand's arguments; they are as many items at most. -/
def addArguments (allowed : List OptionName) : (limit : Nat) → Given → List String →
    Except Refusal Given
  | 0, given, _ | _, given, [] => .ok given
  | limit + 1, given, argument :: rest =>
    if argument = "--" then
      (rest.map Item.file).foldlM add given
    else do
      let (item, rest) ← firstItem allowed argument rest
      addArguments allowed limit (← given.add item) rest

/-- Adds the options before the subcommand; they come with the subcommand and the arguments behind
it. -/
def addCommon : (limit : Nat) → Given → List String →
    Except Refusal (Given × Subcommand × List String)
  | 0, _, _ | _, _, [] => .error .misuse
  | limit + 1, given, argument :: rest =>
    if argument = "--" then
      .error .misuse
    else do
      match ← firstItem commonOptions argument rest with
      | (.file "schema", rest) => return (given, .schema, rest)
      | (.file "dump", rest) => return (given, .dump, rest)
      | (.file "help", topic) =>
        if topic ∈ [[], ["schema"], ["dump"], ["help"]] then throw .help else throw .misuse
      | (.file _, _) => throw .misuse
      | (item, rest) => addCommon limit (← given.add item) rest

end Given

/-- Understands a command line. The level behind a subcommand counts more than the one before it,
and there is a file at least. -/
def Request.ofArguments (arguments : List String) : Except Refusal Request := do
  let (common, subcommand, rest) ← Given.addCommon arguments.length {} arguments
  let given ← Given.addArguments subcommand.options rest.length {} rest
  if given.files = [] then
    throw .misuse
  let defaults : DecodeOptions := {}
  return {
    action :=
      match subcommand with
      | .schema => .schema given.declared?.isSome
      | .dump => .dump {
          maxDepth := given.maxDepth?.getD defaults.maxDepth
          policy := if given.lenient?.isSome then .lenient else .strict }
    files := given.files
    output? := given.output?
    logLevel := (given.logLevel? <|> common.logLevel?).getD .warn }

end AmqpBlob.Inspect
