import PatchPanel.Text.Split

/-!
Files as a program uses them: texts that are read and written by path. The effect of a storage is a
parameter, so that a program over it runs on the files of a system as well as on a value that stands
for a directory.
-/
namespace PatchPanel

/-- Why a file cannot be read or written. -/
inductive FileFault where
  | notFound
  | isDirectory
  | notDirectory
  | notText
  | other (reason : String)
  deriving DecidableEq, Repr

/-- The message about a file that cannot be read or written. -/
def FileFault.message : FileFault → String
  | .notFound => "No such file or directory (os error 2)"
  | .isDirectory => "Is a directory (os error 21)"
  | .notDirectory => "Not a directory (os error 20)"
  | .notText => "stream did not contain valid UTF-8"
  | .other reason => reason

def readText (bytes : ByteArray) : Except FileFault String :=
  match String.fromUTF8? bytes with
  | some text => .ok text
  | none => .error .notText

/-- The files that a program can reach. -/
structure Storage (m : Type → Type) where
  read : String → m (Except FileFault ByteArray)
  write : String → String → m (Except FileFault Unit)

/-- A directory as a value: its files by path, without folders. -/
structure Directory where
  files : List (String × ByteArray)

namespace Directory

/-- A path without leading references to the directory itself. -/
def dropDots : List Char → List Char
  | '.' :: '/' :: path => dropDots path
  | path => path

def plain (path : String) : String := String.ofList (dropDots path.toList)

/-- The path leads to the directory itself. -/
def isSelf (path : String) : Bool := plain path = "." || (plain path = "" && path != "")

def file? (d : Directory) (path : String) : Option (String × ByteArray) :=
  d.files.find? (fun f => f.1 = plain path)

/-- Why nothing is found on the way to a path that leads out of the directory: its first part is a
file, or it is not there. -/
def blocked? (d : Directory) (path : String) : Option FileFault :=
  match Text.cut? '/' (plain path).toList with
  | none => none
  | some (first, _) =>
    if (d.file? (String.ofList first)).isSome then some .notDirectory else some .notFound

def read (d : Directory) (path : String) : Except FileFault ByteArray :=
  if isSelf path then .error .isDirectory
  else
    match d.file? path with
    | some f => .ok f.2
    | none => .error ((d.blocked? path).getD .notFound)

def write (d : Directory) (path text : String) : Except FileFault Directory :=
  if isSelf path then .error .isDirectory
  else
    match d.blocked? path with
    | some fault => .error fault
    | none =>
      if path.isEmpty then .error .notFound
      else .ok ⟨(plain path, text.toUTF8) :: d.files.filter (fun f => f.1 != plain path)⟩

/-- The storage of a directory that is kept as a state. -/
def storage : Storage (StateM Directory) where
  read path := do return (← get).read path
  write path text := do
    match (← get).write path text with
    | .ok d =>
      set d
      return .ok ()
    | .error fault => return .error fault

end Directory
end PatchPanel
