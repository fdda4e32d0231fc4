import AmqpBlob.Inspect.Arguments
import AmqpBlob.Inspect.Report
import AmqpBlob.Schema.Text
import AmqpBlob.Value.Text

/-!
# The inspection command

The command writes the schemas or the values of blobs in files. One file's text is written alone;
otherwise each stands under a line with the file's path. The first schema that cannot be read ends
the command; a value that cannot be read is counted and left out.
-/

namespace AmqpBlob.Inspect

/-- What a run of the command leaves behind. -/
structure Outcome where
  /-- The exit code. -/
  code : UInt8
  /-- The standard output. -/
  stdout : String
  /-- The texts of the failures that were passed over. -/
  log : List String
  /-- The failure that ended the command. -/
  failure? : Option Failure

/-- The text about one file. -/
structure Section where
  /-- The path of the file. -/
  path : String
  /-- The text. -/
  text : String

/-- The text of several sections: each has a heading unless there is one only. -/
def sectionsText : List Section → String
  | [single] => single.text
  | sections =>
    String.intercalate "\n" <|
      sections.map fun part => "==> " ++ part.path ++ " <==\n" ++ part.text

/-- How to call the command. -/
def usage : String :=
  "Usage: inspect [--log-level LEVEL] COMMAND FILES...\n\n"
    ++ "  schema [--declared] [-o PATH] FILES...\n"
    ++ "  dump [--lenient] [--max-depth DEPTH] [-o PATH] FILES...\n"

variable {m : Type → Type} [Monad m] [FileStore m]

/-- Writes a text to a file or else to the standard output; `passed` are the texts of the failures
before it. -/
def emit (text : String) (output? : Option String) (passed : List String) : m Outcome := do
  match output? with
  | none => return ⟨0, text, passed, none⟩
  | some path =>
    match ← FileStore.writeFile path text.toUTF8 with
    | .ok () => return ⟨0, "", passed, none⟩
    | .error fault => return ⟨1, "", passed, some ⟨fault.message, []⟩⟩

/-- The sections of the schemas in files, up to the first one that cannot be read. -/
def schemaSections (declared : Bool) : List String → m (Except BlobFileError (List Section))
  | [] => return .ok []
  | path :: paths => do
    match ← Blob.schemaOfFile path with
    | .error error => return .error error
    | .ok schema =>
      let text := if declared then schema.declaredText else schema.text
      return (⟨path, text⟩ :: ·) <$> (← schemaSections declared paths)

/-- The sections of the values in files, and the errors of those that cannot be read. -/
def valueSections (options : DecodeOptions) : List String → m (List Section × List BlobFileError)
  | [] => return ([], [])
  | path :: paths => do
    let result ← Blob.ofFile options path
    let (sections, errors) ← valueSections options paths
    match result with
    | .ok blob => return (⟨path, blob.value.dump⟩ :: sections, errors)
    | .error error => return (sections, error :: errors)

/-- Carries out a request. -/
def Request.run (request : Request) : m Outcome := do
  match request.action with
  | .schema declared =>
    match ← schemaSections declared request.files with
    | .error error => return ⟨1, "", [], some error.failure⟩
    | .ok sections => emit (sectionsText sections) request.output? []
  | .dump options =>
    let (sections, errors) ← valueSections options request.files
    let outcome ← emit (sectionsText sections) request.output? (errors.map BlobFileError.message)
    if errors = [] ∨ outcome.failure?.isSome then
      return outcome
    else
      let text := Decimal.natural errors.length ++ " of "
        ++ Decimal.natural request.files.length ++ " files failed to decode"
      return { outcome with code := 1, failure? := some ⟨text, []⟩ }

/-- Runs the command with the given arguments. -/
def run (arguments : List String) : m Outcome := do
  match Request.ofArguments arguments with
  | .ok request => request.run
  | .error .help => return ⟨0, usage, [], none⟩
  | .error .misuse => return ⟨2, "", [usage], none⟩

end AmqpBlob.Inspect
