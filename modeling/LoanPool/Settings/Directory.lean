/-!
# Files by their paths

A directory with files in it and below it, and what a path leads to from there. Of all that lies
outside it is only known that there are directories: a path may lead out, but to no file.
-/
namespace LoanPool

inductive PathFault where
  | noSuchFile
  | notDirectory
  | isDirectory
  | nameTooLong
deriving DecidableEq, Repr, Inhabited

def PathFault.text : PathFault → String
  | .noSuchFile => "No such file or directory (os error 2)"
  | .notDirectory => "Not a directory (os error 20)"
  | .isDirectory => "Is a directory (os error 21)"
  | .nameTooLong => "File name too long (os error 36)"

structure Directory where
  /-- The files, each under the names that lead to it. -/
  files : List (List String × String)
deriving DecidableEq, Repr, Inhabited

inductive Place where
  | file (text : String)
  | inside (names : List String)
  | outside
deriving DecidableEq, Repr, Inhabited

namespace Directory

/-- The greatest length of a name, in bytes. -/
def nameLimit : Nat :=
  255

/-- A path has to be shorter than this, in bytes. -/
def pathLimit : Nat :=
  4096

def enter (d : Directory) (names : List String) : Except PathFault Place :=
  match d.files.lookup names with
  | some text => .ok (.file text)
  | none =>
    if d.files.any fun f => names.isPrefixOf f.1 then .ok (.inside names)
    else .error .noSuchFile

/-- One name further. From a file no name leads on, not even the empty one. -/
def step (d : Directory) (p : Place) (name : String) : Except PathFault Place :=
  match p with
  | .file _ => .error .notDirectory
  | .inside names =>
    if name = "" ∨ name = "." then .ok p
    else if name = ".." then .ok (if names.isEmpty then .outside else .inside names.dropLast)
    else if nameLimit < name.utf8ByteSize then .error .nameTooLong
    else d.enter (names ++ [name])
  | .outside =>
    if name = "" ∨ name = "." ∨ name = ".." then .ok p
    else if nameLimit < name.utf8ByteSize then .error .nameTooLong
    else .error .noSuchFile

/-- Follows names joined by slashes; a slash before them leads out of the directory. -/
def follow (d : Directory) (path : String) : Except PathFault Place :=
  if path = "" then .error .noSuchFile
  else if pathLimit ≤ path.utf8ByteSize then .error .nameTooLong
  else (path.splitOn "/").foldlM d.step (if path.startsWith "/" then .outside else .inside [])

def read (d : Directory) (path : String) : Except PathFault String :=
  match d.follow path with
  | .ok (.file text) => .ok text
  | .ok _ => .error .isDirectory
  | .error fault => .error fault

end Directory
end LoanPool
