import TaintTrace.Files.Path

/-!
# File trees

A tree of directories and files, one of its directories being the working directory.
A path is followed part by part, and each part but the last must lead to a directory.
-/

namespace TaintTrace

inductive FileCause where
  | missing
  | alreadyThere
  | notDirectory
  | isDirectory
  | nameTooLong
  | badName
  | noDevice
  | other (text : Text)
  deriving DecidableEq, Repr

namespace FileCause

def message : FileCause -> Text
  | missing => "no such file or directory"
  | alreadyThere => "file exists"
  | notDirectory => "not a directory"
  | isDirectory => "is a directory"
  | nameTooLong => "file name too long"
  | badName => "invalid argument"
  | noDevice => "no such device"
  | other text => text

end FileCause

structure FileFault where
  action : Text
  path : Text
  cause : FileCause
  deriving DecidableEq, Repr

namespace FileFault

def message (f : FileFault) : Text :=
  f.action ++ " " ++ f.path ++ ": " ++ f.cause.message

end FileFault

inductive FileEntry where
  | directory
  | file (content : Text)
  deriving DecidableEq, Repr

/-- The entries of a tree by their places below the root, and the working directory. -/
structure FileTree where
  entries : List (List Text × FileEntry)
  working : List Text

namespace FileTree

/-- A tree with a working directory, a directory for what is not kept and a file for what
nobody needs. -/
def empty : FileTree :=
  ⟨[(["work"], .directory), (["tmp"], .directory), (["dev"], .directory),
    (["dev", "null"], .file [])], ["work"]⟩

def at? (t : FileTree) (place : List Text) : Option FileEntry :=
  if place.isEmpty then some .directory else t.entries.lookup place

def put (t : FileTree) (place : List Text) (e : FileEntry) : FileTree :=
  { t with entries := (place, e) :: t.entries.filter fun x => x.1 ≠ place }

def nameLimit : Nat := 255

def pathLimit : Nat := 4095

def step (t : FileTree) (place : List Text) (part : Text) : Except FileCause (List Text) :=
  match t.at? place with
  | none => .error .missing
  | some (.file _) => .error .notDirectory
  | some .directory =>
      if part.isEmpty ∨ part = Path.dot then .ok place
      else if part = Path.dotDot then .ok place.dropLast
      else if nameLimit < part.length then .error .nameTooLong
      else .ok (place ++ [part])

def follow (t : FileTree) : (parts : List Text) -> (place : List Text) ->
    Except FileCause (List Text)
  | [], place => .ok place
  | part :: rest, place =>
      match t.step place part with
      | .error e => .error e
      | .ok place => follow t rest place

/-- The place that a path leads to, which may hold no entry yet. -/
def locate (t : FileTree) (path : Text) : Except FileCause (List Text) :=
  if path.isEmpty then .error .missing
  else if path.elem 0 then .error .badName
  else if pathLimit < path.length then .error .nameTooLong
  else t.follow (Path.split path) (if Path.isRooted path then [] else t.working)

/-- The place that a path leads to if the slashes at its end are taken away. -/
def locateNew (t : FileTree) (path : Text) : Except FileCause (List Text) :=
  let short := (path.reverse.dropWhile (· = Path.slash)).reverse
  if pathLimit < path.length ∨ short.isEmpty then t.locate path else t.locate short

def find (t : FileTree) (path : Text) : Except FileCause FileEntry :=
  match t.locate path with
  | .error e => .error e
  | .ok place =>
      match t.at? place with
      | none => .error .missing
      | some e => .ok e

def read (t : FileTree) (path : Text) : Except FileFault Text :=
  match t.find path with
  | .error e => .error ⟨"open", path, e⟩
  | .ok .directory => .error ⟨"read", path, .isDirectory⟩
  | .ok (.file content) => .ok content

def makeDirectory (t : FileTree) (path : Text) : Except FileFault FileTree :=
  match t.locateNew path with
  | .error e => .error ⟨"mkdir", path, e⟩
  | .ok place =>
      match t.at? place with
      | some _ => .error ⟨"mkdir", path, .alreadyThere⟩
      | none => .ok (t.put place .directory)

def write (t : FileTree) (path content : Text) : Except FileFault FileTree :=
  let fault (e : FileCause) : Except FileFault FileTree := .error ⟨"open", path, e⟩
  match t.locateNew path with
  | .error e => fault e
  | .ok place =>
      let slashed := path.getLast? = some Path.slash
      match t.at? place with
      | some .directory => fault .isDirectory
      | some (.file _) => if slashed then fault .notDirectory else .ok (t.put place (.file content))
      | none => if slashed then fault .isDirectory else .ok (t.put place (.file content))

def place (t : FileTree) (path : Text) (e : FileEntry) : FileTree :=
  let parts := (Path.split path).filter fun p => !p.isEmpty && p != Path.dot
  let above := (List.range parts.length).tail.map fun n => t.working ++ parts.take n
  let t := above.foldl (fun t p => if (t.at? p).isSome then t else t.put p .directory) t
  t.put (t.working ++ parts) e

/-- The entries below the working directory that another tree does not have, by
their paths. -/
def newSince (t before : FileTree) : List (Text × FileEntry) :=
  t.entries.filterMap fun (place, e) =>
    if t.working.isPrefixOf place ∧ place ≠ t.working ∧ (before.entries.lookup place).isNone then
      some (Text.join [Path.slash] (place.drop t.working.length), e)
    else none

end FileTree
end TaintTrace
