import TaintTrace.Files.Tree
import TaintTrace.Log.Basic

/-!
# Scripts

What a command does to the world is written down as a script: it reads and makes
files, prints text and logs messages, and goes on with what it got.  A script can be
run on a file tree, which makes it a plain function.
-/

namespace TaintTrace

inductive Channel where
  | output
  | error
  deriving DecidableEq, Repr

/-- A script with a result.  Time is counted in ten thousandths of a second. -/
inductive Script (α : Type) : Type where
  | done (a : α)
  | readFile (path : Text) (next : Except FileFault Text -> Script α)
  | mapFile (path : Text) (next : Except FileFault (Except FileCause Text) -> Script α)
  | makeDirectory (path : Text) (next : Except FileFault Unit -> Script α)
  | makeTempDirectory (directory start finish : Text) (next : Option Text -> Script α)
  | makeTempFile (directory start finish : Text) (next : Option Text -> Script α)
  | writeFile (path content : Text) (next : Except FileFault Unit -> Script α)
  | print (channel : Channel) (text : Text) (next : Script α)
  | note (message : Message) (next : Script α)
  | clock (next : Nat -> Script α)

namespace Script

def bind {α β : Type} : Script α -> (α -> Script β) -> Script β
  | .done a, f => f a
  | .readFile p next, f => .readFile p fun r => (next r).bind f
  | .mapFile p next, f => .mapFile p fun r => (next r).bind f
  | .makeDirectory p next, f => .makeDirectory p fun r => (next r).bind f
  | .makeTempDirectory d s e next, f => .makeTempDirectory d s e fun r => (next r).bind f
  | .makeTempFile d s e next, f => .makeTempFile d s e fun r => (next r).bind f
  | .writeFile p c next, f => .writeFile p c fun r => (next r).bind f
  | .print c t next, f => .print c t (next.bind f)
  | .note m next, f => .note m (next.bind f)
  | .clock next, f => .clock fun n => (next n).bind f

instance : Monad Script where
  pure := .done
  bind := bind

def say (text : Text) : Script Unit :=
  .print .output text (.done ())

def complain (text : Text) : Script Unit :=
  .print .error text (.done ())

def now : Script Nat :=
  .clock .done

def notes (threshold : Int) (log : Log) : Script Unit :=
  (log.filter (Message.shownAt threshold)).foldr (fun m next => .note m next) (.done ())

def logAt (threshold : Int) (level : Level) (text : Text) : Script Unit :=
  notes threshold [⟨level, text⟩]

/-!
## Running on a file tree

The names of temporary files have the first number of ten digits that makes them new where
a chosen part stands, and no time passes.
-/

/-- The world of a script: files, and what was printed. -/
structure World where
  files : FileTree
  output : Text
  error : Text

namespace World

def print (w : World) (channel : Channel) (text : Text) : World :=
  match channel with
  | .output => { w with output := w.output ++ text }
  | .error => { w with error := w.error ++ text }

def channelOf (level : Level) : Channel :=
  if level = .error then .error else .output

end World

def firstNumber : Nat := 1000000000

/-- The first path of an entry of a directory that leads nowhere yet, from a number on.
The fuel bounds the number of paths that are taken. -/
def newPath (files : FileTree) (directory start finish : Text) : (fuel n : Nat) -> Text
  | 0, n => Path.entry directory (start ++ Text.ofNat n ++ finish)
  | fuel + 1, n =>
      let path := Path.entry directory (start ++ Text.ofNat n ++ finish)
      match files.find path with
      | .ok _ => newPath files directory start finish fuel (n + 1)
      | .error _ => path

def run {α : Type} : Script α -> World -> α × World
  | .done a, w => (a, w)
  | .readFile p next, w => (next (w.files.read p)).run w
  | .mapFile p next, w =>
      let result : Except FileFault (Except FileCause Text) :=
        match w.files.find p with
        | .error e => .error ⟨"open", p, e⟩
        | .ok .directory => .ok (.error .noDevice)
        | .ok (.file content) => .ok (.ok content)
      (next result).run w
  | .makeDirectory p next, w =>
      match w.files.makeDirectory p with
      | .error e => (next (.error e)).run w
      | .ok files => (next (.ok ())).run { w with files := files }
  | .makeTempDirectory d start finish next, w =>
      let path := newPath w.files d start finish w.files.entries.length firstNumber
      match w.files.makeDirectory path with
      | .error _ => (next none).run w
      | .ok files => (next (some path)).run { w with files := files }
  | .makeTempFile d start finish next, w =>
      let path := newPath w.files d start finish w.files.entries.length firstNumber
      match w.files.write path [] with
      | .error _ => (next none).run w
      | .ok files => (next (some path)).run { w with files := files }
  | .writeFile p content next, w =>
      match w.files.write p content with
      | .error e => (next (.error e)).run w
      | .ok files => (next (.ok ())).run { w with files := files }
  | .print channel text next, w => next.run (w.print channel text)
  | .note m next, w => next.run (w.print (World.channelOf m.level) m.line)
  | .clock next, w => (next 0).run w

end Script
end TaintTrace
