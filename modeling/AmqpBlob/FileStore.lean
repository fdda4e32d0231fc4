/-!
# Stores of files

Files are read and written through a `FileStore`, so that whatever works on files can also be run on
a `Directory` that is held in memory. A path is walked name by name through the directory; what
stands in its way is a `FileFault`.
-/

namespace AmqpBlob

/-- What stands in the way of reading or writing a file. -/
inductive FileFault where
  /-- There is no such file, or no such directory on the way to it. -/
  | notFound
  /-- A file stands where the path needs a directory. -/
  | notDirectory
  /-- A directory stands where a file is to be written. -/
  | isDirectory
  /-- A directory stands where a file is to be read. -/
  | noDevice
  /-- A name on the path is too long, or the path is. -/
  | nameTooLong
  /-- There is a null character on the path. -/
  | nullCharacter
  /-- Any other fault, with its text. -/
  | other (text : String)
  deriving DecidableEq, Repr

/-- The text of a fault. -/
def FileFault.message : FileFault → String
  | notFound => "No such file or directory (os error 2)"
  | noDevice => "No such device (os error 19)"
  | notDirectory => "Not a directory (os error 20)"
  | isDirectory => "Is a directory (os error 21)"
  | nameTooLong => "File name too long (os error 36)"
  | nullCharacter => "file name contained an unexpected NUL byte"
  | other text => text

/-- A place where files are kept under paths. -/
class FileStore (m : Type → Type) where
  /-- The content of a file. -/
  readFile : (path : String) → m (Except FileFault ByteArray)
  /-- Gives a file a new content; the file need not be there yet. -/
  writeFile : (path : String) → (content : ByteArray) → m (Except FileFault Unit)

/-- Files under the names of one directory, without directories inside. -/
structure Directory where
  /-- The names and the contents of the files. -/
  files : List (String × ByteArray)

namespace Directory

/-- Where a path leads to. -/
inductive Place where
  /-- The directory. -/
  | inside
  /-- A directory around it, of which nothing else is known. -/
  | outside
  /-- A file of the directory. -/
  | file (content : ByteArray)

/-- The names between the slashes of a path. There is an empty one in front of a slash that begins
the path, behind one that ends it and between two in a row. -/
def names (path : String) : Except FileFault (List String) :=
  if path.toList.contains '\x00' then
    .error .nullCharacter
  else if path = "" then
    .error .notFound
  else if path.utf8ByteSize ≥ 4096 then
    .error .nameTooLong
  else
    .ok ((path.toList.splitOnP (· = '/')).map String.ofList)

/-- The place that a name leads to from another one. -/
def step (directory : Directory) (place : Place) (name : String) : Except FileFault Place :=
  match place with
  | .file _ => .error .notDirectory
  | place =>
    if name = "" ∨ name = "." then
      .ok place
    else if name = ".." then
      .ok .outside
    else if name.utf8ByteSize > 255 then
      .error .nameTooLong
    else
      match place, directory.files.lookup name with
      | .inside, some content => .ok (.file content)
      | _, _ => .error .notFound

/-- The place that names lead to. They start outside of the directory if the first one is empty. -/
def walk (directory : Directory) (names : List String) : Except FileFault Place :=
  names.foldlM directory.step (if names.head? = some "" then .outside else .inside)

/-- The content of a file. -/
def read (directory : Directory) (path : String) : Except FileFault ByteArray := do
  match ← directory.walk (← names path) with
  | .file content => return content
  | .inside | .outside => throw .noDevice

/-- The name of the file that is written under a path. The last name must not stand for a directory,
as `.` and `..` do and a name before a slash. -/
def newName (directory : Directory) (path : String) : Except FileFault String := do
  let reversed := (← names path).reverse
  match reversed.dropWhile (· = "") with
  | [] => throw .isDirectory
  | name :: parents =>
    match ← directory.walk parents.reverse with
    | .file _ => throw .notDirectory
    | place =>
      if reversed.head? = some "" ∨ name = "." ∨ name = ".." then
        throw .isDirectory
      else if name.utf8ByteSize > 255 then
        throw .nameTooLong
      else
        match place with
        | .inside => return name
        | _ => throw .notFound

/-- The directory with a new content for a file. -/
def put (directory : Directory) (name : String) (content : ByteArray) : Directory :=
  ⟨(name, content) :: directory.files.filter fun file => file.1 ≠ name⟩

instance : FileStore (StateM Directory) where
  readFile path := return (← get).read path
  writeFile path content := do
    match (← get).newName path with
    | .ok name =>
      modify fun directory => directory.put name content
      return .ok ()
    | .error fault => return .error fault

end Directory

end AmqpBlob
