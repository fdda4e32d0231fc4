import AmqpBlob.Envelope
import AmqpBlob.FileStore

/-!
# Blobs

A blob is a serialized envelope. It is decoded against the schema that it carries, from bytes or
from a file.
-/

namespace AmqpBlob

/-- The schema of a blob and its decoded value. -/
structure Blob where
  /-- The schema. -/
  schema : Schema
  /-- The value. -/
  value : Value

/-- An error of reading a blob from a file. -/
inductive BlobFileError where
  /-- The file cannot be opened. -/
  | unopened (path : String) (fault : FileFault)
  /-- The content of the file cannot be decoded. -/
  | undecoded (path : String) (error : ReadError)
  deriving DecidableEq

/-- The text of an error of reading a blob from a file. -/
def BlobFileError.message : BlobFileError → String
  | unopened path fault => "failed to open " ++ path ++ ": " ++ fault.message
  | undecoded path error => "failed to decode " ++ path ++ ": " ++ error.message

namespace Blob

/-- Decodes the schema and the value of a blob. -/
def ofBytes (bytes : ByteArray) (options : DecodeOptions) : Except ReadError Blob := do
  let envelope ← Envelope.ofBytes bytes
  let value ← envelope.decode options
  return { schema := envelope.schema, value }

/-- Reads the schema of a blob only. -/
def schemaOfBytes (bytes : ByteArray) : Except ReadError Schema := do
  return (← Envelope.ofBytes bytes).schema

variable {m : Type → Type} [Monad m] [FileStore m] {α : Type}

/-- Reads the content of a file with `read`. -/
def ofFileWith (read : ByteArray → Except ReadError α) (path : String) :
    m (Except BlobFileError α) := do
  match ← FileStore.readFile path with
  | .error fault => return .error (.unopened path fault)
  | .ok content => return (read content).mapError (.undecoded path)

/-- Decodes the schema and the value of the blob in a file. -/
def ofFile (options : DecodeOptions) (path : String) : m (Except BlobFileError Blob) :=
  ofFileWith (ofBytes · options) path

/-- Reads the schema of the blob in a file only. -/
def schemaOfFile (path : String) : m (Except BlobFileError Schema) :=
  ofFileWith schemaOfBytes path

end Blob

end AmqpBlob
