import TaintTrace.Flow.Report
import TaintTrace.Tool.Setup

/-!
# The tool for cavities

It prints the cavities of the input files, with their contents if that is wanted.
-/

namespace TaintTrace
namespace CavitiesTool

def purpose : Text :=
  Text.ofLines
    ["Find the byte ranges of the input files that are never used by the traced program.",
      "Usage:",
      "  polyprocess cavities [options] <trace file>",
      "Examples:",
      "  % polyprocess cavities polytracker.tdag",
      "Print the contents of every cavity, with 16 bytes of context:",
      "  % polyprocess cavities -print-bytes -context 16 polytracker.tdag"]

/-- The options of the tool.  A negative number of context bytes leaves the setting
as it is. -/
structure Options where
  shared : SharedOptions := {}
  printBytes : Bool := false
  context : Int := -1
  legacyTrailing : Bool := false
  deriving DecidableEq, Repr

def flags : List (Flag Options) :=
  SharedOptions.flags (fun change o => { o with shared := change o.shared }) ++
  [⟨"print-bytes", "print the contents of the cavities, read from the input files", "false",
      .truth fun b o => { o with printBytes := b }⟩,
    ⟨"context", "override the number of context bytes printed around a cavity", "-1",
      .integer fun i o => { o with context := i }⟩,
    ⟨"legacy-trailing-cavity",
      "close cavities reaching the end of a file one byte short of the end", "false",
      .truth fun b o => { o with legacyTrailing := b }⟩]

def settingsWith (o : Options) (s : Settings) : Settings :=
  { s with
    options := { s.options with
      contextBytes := if 0 ≤ o.context then o.context else s.options.contextBytes
      legacyTrailingCavity := o.legacyTrailing || s.options.legacyTrailingCavity } }

/-!
## Contents

Lines go through a buffer, but warnings are logged at once.
-/

def bufferSize : Nat := 4096

/-- Add text to a buffer that holds `pending`: what the buffer lets through, and what
it holds afterwards. -/
def push (pending t : Text) : Text × Text :=
  if pending.length + t.length ≤ bufferSize then ([], pending ++ t)
  else if pending.isEmpty then (t, [])
  else
    let room := bufferSize - pending.length
    let rest := t.drop room
    if rest.length ≤ bufferSize then (pending ++ t.take room, rest) else (pending ++ t, [])

def printPieces (s : Settings) : (pending : Text) -> List CavityReport.Piece -> Action Unit
  | pending, [] => Workspace.say pending
  | pending, .warning m :: pieces => do
      Workspace.logAll s [m]
      printPieces s pending pieces
  | pending, .line t :: pieces => do
      Workspace.say (push pending t).1
      printPieces s (push pending t).2 pieces

def readFiles : List Text -> Script (List (Text × CavityReport.FileContent))
  | [] => .done []
  | path :: paths =>
      .readFile path fun content => do
        let others ← readFiles paths
        return (path, content.mapError FileFault.message) :: others

def printContents (s : Settings) (cavities : List Cavity) : Action Unit := do
  let files : List (Text × CavityReport.FileContent) ←
    ExceptT.lift (readFiles (cavities.map Cavity.path).eraseDups)
  let content (path : Text) : CavityReport.FileContent := (files.lookup path).getD (.ok [])
  printPieces s [] (CavityReport.withContext content s.options.contextBytes cavities).pieces

/-!
## The tool
-/

def run (o : Options) (args : List Text) : Action Unit := do
  let w ← Workspace.prepare "cavities" o.shared args
  let s := settingsWith o w.settings
  let ((log, found), _, seconds) ← w.measured (w.trace.cavities s.cavityOptions)
  Workspace.logAll s log
  match found with
  | .error e => throw (.noCavities e)
  | .ok cavities =>
      Workspace.log s .info
        ("Found " ++ Text.ofNat cavities.length ++ " cavities in " ++ seconds ++ " s")
      if o.printBytes then printContents s cavities
      else Workspace.say (CavityReport.plain cavities)
      Workspace.writeReport s s.cavitiesReport (CavityReport.plain cavities)

end CavitiesTool
end TaintTrace
