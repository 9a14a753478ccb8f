import TaintTrace.Flow.ByteMap
import TaintTrace.Tool.Setup

/-!
# The tool for the map of bytes

It prints which output bytes each input byte flows to.
-/

namespace TaintTrace
namespace MappingTool

def purpose : Text :=
  Text.ofLines
    ["Print which output bytes each input byte flows to.",
      "Usage:",
      "  polyprocess mapping [options] <trace file>",
      "Examples:",
      "  % polyprocess mapping polytracker.tdag",
      "Only print the mapping of the bytes of one input file:",
      "  % polyprocess mapping -input /tmp/in.png polytracker.tdag"]

/-- The options of the tool.  An empty path stands for all files. -/
structure Options where
  shared : SharedOptions := {}
  input : Text := []
  deriving DecidableEq, Repr

def flags : List (Flag Options) :=
  SharedOptions.flags (fun change o => { o with shared := change o.shared }) ++
  [⟨"input", "only print the bytes of the input file with this path", [],
      .text fun path o => { o with input := path }⟩]

def restrict (path : Text) (m : ByteMap) : ByteMap :=
  if path.isEmpty then m else m.filter fun entry => entry.1.file.path == path

def run (o : Options) (args : List Text) : Action Unit := do
  let w ← Workspace.prepare "mapping" o.shared args
  let s := w.settings
  let ((log, found), _, seconds) ← w.measured (w.trace.byteMap s.options.progressInterval)
  Workspace.logAll s log
  match found with
  | .error e => throw (.noByteMap e)
  | .ok m =>
      Workspace.log s .info
        ("Mapped " ++ Text.ofNat m.length ++ " input bytes in " ++ seconds ++ " s")
      Workspace.say (restrict o.input m).text
      Workspace.writeReport s s.mappingReport m.text

end MappingTool
end TaintTrace
