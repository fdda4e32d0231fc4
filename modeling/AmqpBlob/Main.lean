import AmqpBlob.Inspect

/-!
# Command line

The inspection command on the files of the system. Failures are reported on the standard error.
-/

namespace AmqpBlob.Inspect

/-- A fault of the system as a fault of a file. -/
def fileFault : IO.Error → FileFault
  | .noFileOrDirectory .. => .notFound
  | error => .other (toString error)

/-- The result of an action on a file of the system. -/
def onFile {α : Type} (action : IO α) : IO (Except FileFault α) := do
  match ← action.toBaseIO with
  | .ok value => return .ok value
  | .error error => return .error (fileFault error)

instance : FileStore IO where
  readFile path := onFile (IO.FS.readBinFile path)
  writeFile path content := onFile (IO.FS.writeBinFile path content)

end AmqpBlob.Inspect

/-- Runs the inspection command. -/
def main (arguments : List String) : IO UInt32 := do
  let outcome : AmqpBlob.Inspect.Outcome ← AmqpBlob.Inspect.run arguments
  for line in outcome.log do
    IO.eprintln line
  IO.print outcome.stdout
  if let some failure := outcome.failure? then
    IO.eprint failure.report
  return outcome.code.toUInt32
