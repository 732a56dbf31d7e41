import Attribution.Fault
import Attribution.Text.Lines

namespace Attribution

/-- Why a path could not be used. -/
inductive AccessError where
  | missing
  | notDirectory
  | isDirectory
  /-- The path leads to a socket, which cannot be opened as a file. -/
  | isSocket
  | tooManyLinks
  | nameTooLong
  deriving DecidableEq, Repr

def AccessError.number : AccessError → Nat
  | .missing => 2
  | .notDirectory => 20
  | .isDirectory => 21
  | .isSocket => 6
  | .tooManyLinks => 40
  | .nameTooLong => 36

def AccessError.reason : AccessError → String
  | .missing => "No such file or directory"
  | .notDirectory => "Not a directory"
  | .isDirectory => "Is a directory"
  | .isSocket => "No such device or address"
  | .tooManyLinks => "Too many levels of symbolic links"
  | .nameTooLong => "File name too long"

/-- The error with its number and the path it is about. -/
def AccessError.message (e : AccessError) (path : String) : String :=
  "[Errno " ++ toString e.number ++ "] " ++ e.reason ++ ": " ++ path.quoted

structure FileSystem where
  isSocket : String → Except AccessError Bool
  read : String → Except AccessError (List UInt8)
  list : String → Except AccessError (List String)
  /-- Whether there is a socket under bytes that are no text. -/
  isRawSocket : List UInt8 → Except AccessError Bool := fun _ => .error .missing

namespace FileSystem

/-- What `use` makes of a path that holds no null character. -/
def guarded {α : Type} (path : String) (use : Except AccessError α) :
    Except Fault (Except AccessError α) :=
  if path.toList.contains '\x00' then .error .nullInPath else .ok use

/-- Whether there is a socket. What cannot be looked at is none. -/
def isThere : Except AccessError Bool → Bool
  | .ok b => b
  | .error _ => false

/-- Whether the path leads to a socket. -/
def leadsToSocket (fs : FileSystem) (path : String) : Except Fault Bool :=
  (guarded path (fs.isSocket path)).map isThere

/-- Whether there is a socket under the bytes of a path. The bytes of a text lead where the text does. -/
def hasSocketAt (fs : FileSystem) (bytes : List UInt8) : Bool :=
  match Utf8.decode bytes with
  | .ok cs => isThere (fs.isSocket (String.ofList cs))
  | .error _ => isThere (fs.isRawSocket bytes)

/-- The text of a file with its line ends unified. There is none if the file cannot be read. -/
def readText? (fs : FileSystem) (path : String) : Except Fault (Option String) :=
  match guarded path (fs.read path) with
  | .error fault => .error fault
  | .ok (.error _) => .ok none
  | .ok (.ok bytes) =>
    match Utf8.decode bytes with
    | .error e => .error (.notUtf8 e)
    | .ok cs => .ok (some (String.ofList (Text.unifyNewlines cs)))

def names (fs : FileSystem) (path : String) : Except Fault (Except AccessError (List String)) :=
  guarded path (fs.list path)

end FileSystem

/-- The path of `name` under `base`. A name that begins with a slash replaces the base. -/
def joinPath (base name : String) : String :=
  if name.toList.head? = some '/' then name
  else if base = "" ∨ base.toList.getLast? = some '/' then base ++ name
  else base ++ "/" ++ name

end Attribution
