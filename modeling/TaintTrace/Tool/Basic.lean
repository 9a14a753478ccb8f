import TaintTrace.Tool.Cavities
import TaintTrace.Tool.Check
import TaintTrace.Tool.Hint
import TaintTrace.Tool.Info
import TaintTrace.Tool.Mapping
import TaintTrace.Tool.Render

/-!
# The command line

The first word of a command line names a tool; the others are for the tool.  A fault
is explained on the error channel, with a hint if there is one.
-/

namespace TaintTrace

inductive Outcome where
  | success
  | failure
  deriving DecidableEq, Repr

namespace Outcome

def status : Outcome -> UInt8
  | success => 0
  | failure => 2

end Outcome

inductive Tool where
  | cavities
  | check
  | cli
  | info
  | mapping
  | render
  deriving DecidableEq, Repr

namespace Tool

def name : Tool -> Text
  | cavities => "cavities"
  | check => "check"
  | cli => "cli"
  | info => "info"
  | mapping => "mapping"
  | render => "render"

def all : List Tool :=
  [cavities, check, cli, info, mapping, render]

def ofName? (t : Text) : Option Tool :=
  all.find? fun tool => tool.name == t

def description : Tool -> Text
  | cavities => "prints the byte ranges of the input files that the traced program never used"
  | check => "checks that a trace file is consistent"
  | cli => "interactive terminal-like interface to explore a trace"
  | info => "prints statistics about a trace"
  | mapping => "prints which output bytes each input byte flows to"
  | render => "renders the taint graph of a label"

def usage : Text :=
  let front : List Text :=
    ["polyprocess: post-processing of taint traces",
      "Usage:",
      "  polyprocess [tool] [options] <trace file>",
      "Tools:"]
  let tools : List Text := all.map fun t => "  - " ++ t.name ++ ": " ++ t.description
  let examples : List Text :=
    ["Examples:",
      "  Find the file cavities: polyprocess cavities polytracker.tdag",
      "  Run the interactive CLI: polyprocess cli -config config.yaml polytracker.tdag"]
  Text.join [Text.newline] (front ++ tools ++ examples)

def explain (message : Text) : Script Unit := do
  Script.complain ("error: " ++ message ++ "\n")
  match Hint.find? message with
  | some hint => Script.complain ("Hint: " ++ hint ++ "\n")
  | none => pure ()

def start {σ : Type} (purpose : Text) (flags : List (Flag σ)) (options : σ)
    (run : σ -> List Text -> Action Unit) (words : List Text) : Script Outcome := do
  match Flag.read flags words options with
  | .error e =>
      let line : Text := (e.message?.map fun m => m ++ [Text.newline]).getD []
      Script.complain (line ++ Flag.usageOf purpose flags)
      return if e = .help then .success else .failure
  | .ok (options, args) =>
      match ← (run options args).run with
      | .ok () => return .success
      | .error e =>
          explain e.message
          return .failure

def cliPurpose : Text :=
  Text.join [Text.newline]
    ["Interactive CLI for exploring a taint trace and running the analyses on it.",
      "Usage:",
      "  polyprocess cli [options] <trace file>"]

/-- Exploring needs a terminal, which a script does not have. -/
def explore (o : SharedOptions) (args : List Text) : Action Unit := do
  let _ ← Workspace.prepare "cli" o args
  throw .noTerminal

def run (t : Tool) (words : List Text) : Script Outcome :=
  match t with
  | cavities => start CavitiesTool.purpose CavitiesTool.flags {} CavitiesTool.run words
  | check => start CheckTool.purpose CheckTool.flags {} CheckTool.run words
  | cli => start cliPurpose InfoTool.flags {} explore words
  | info => start InfoTool.purpose InfoTool.flags {} InfoTool.run words
  | mapping => start MappingTool.purpose MappingTool.flags {} MappingTool.run words
  | render => start RenderTool.purpose RenderTool.flags {} RenderTool.run words

def command (words : List Text) : Script Outcome := do
  match words with
  | [] =>
      Script.complain ("error: expected subcommand\n" ++ usage ++ "\n")
      return .failure
  | word :: rest =>
      if word = "-help" ∨ word = "--help" then
        Script.say (usage ++ "\n")
        return .success
      else if word = "-version" ∨ word = "--version" then
        Script.say (toolVersion ++ "\n")
        return .success
      else
        match ofName? word with
        | some tool => tool.run rest
        | none =>
            Script.complain
              ("error: unexpected command: " ++ word ++ "\nusage:\n" ++ usage ++ "\n")
            return .failure

end Tool
end TaintTrace
