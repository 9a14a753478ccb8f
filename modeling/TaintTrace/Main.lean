import TaintTrace.Tool.Basic

/-!
# The program

The scripts of the tools, run on the files of the system.
-/

namespace TaintTrace
namespace Program

def fileName (t : Text) : String :=
  t.toString?.getD (String.ofList t.chars)

/-- Why the system could not use a file. -/
def causeOf (e : IO.Error) : FileCause :=
  match e with
  | .noFileOrDirectory .. => .missing
  | .alreadyExists .. => .alreadyThere
  | .inappropriateType _ code _ => if code = 20 then .notDirectory else .isDirectory
  | .invalidArgument _ code _ => if code = 36 then .nameTooLong else .badName
  | .permissionDenied .. => .other "permission denied"
  | e => .other (toString e)

def attempt {α : Type} (action path : Text) (step : IO α) : IO (Except FileFault α) := do
  try
    return .ok (← step)
  catch e => return .error ⟨action, path, causeOf e⟩

def bytesOf (t : Text) : ByteArray :=
  ⟨t.toArray⟩

def contentOf (path : Text) : IO Text := do
  return (← IO.FS.readBinFile (fileName path)).data.toList

def readFile (path : Text) : IO (Except FileFault Text) := do
  match ← attempt "open" path (contentOf path) with
  | .error f => return .error (if f.cause = .isDirectory then { f with action := "read" } else f)
  | .ok content => return .ok content

def mapFile (path : Text) : IO (Except FileFault (Except FileCause Text)) := do
  match ← attempt "open" path (contentOf path) with
  | .error f => return if f.cause = .isDirectory then .ok (.error .noDevice) else .error f
  | .ok content => return .ok (.ok content)

/-- A path for something new, with a number chosen at random in its name. -/
def freshPath (directory start finish : Text) : IO Text := do
  let n ← IO.rand 0 999999999
  return Path.entry directory (start ++ Text.ofNat n ++ finish)

def makeFresh (path : Text) (step : IO Unit) : IO (Option Text) := do
  match ← attempt "open" path step with
  | .ok () => return some path
  | .error _ => return none

def makeEmpty (path : Text) : IO Unit := do
  let _ ← IO.FS.Handle.mk (fileName path) .writeNew

def print (channel : Channel) (text : Text) : IO Unit := do
  let stream ← match channel with
    | .output => IO.getStdout
    | .error => IO.getStderr
  stream.write (bytesOf text)
  stream.flush

def perform {α : Type} : Script α -> IO α
  | .done a => pure a
  | .readFile path next => do perform (next (← readFile path))
  | .mapFile path next => do perform (next (← mapFile path))
  | .makeDirectory path next => do
      perform (next (← attempt "mkdir" path (IO.FS.createDir (fileName path))))
  | .makeTempDirectory directory start finish next => do
      let path ← freshPath directory start finish
      perform (next (← makeFresh path (IO.FS.createDir (fileName path))))
  | .makeTempFile directory start finish next => do
      let path ← freshPath directory start finish
      perform (next (← makeFresh path (makeEmpty path)))
  | .writeFile path content next => do
      perform (next (← attempt "open" path (IO.FS.writeBinFile (fileName path) (bytesOf content))))
  | .print channel text next => do
      print channel text
      perform next
  | .note m next => do
      print (Script.World.channelOf m.level) m.line
      perform next
  | .clock next => do perform (next ((← IO.monoNanosNow) / 100000))

end Program
end TaintTrace

def main (args : List String) : IO UInt32 := do
  let outcome ← TaintTrace.Program.perform (TaintTrace.Tool.command (args.map TaintTrace.Text.ofString))
  return outcome.status.toUInt32
