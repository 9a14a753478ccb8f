import TaintTrace.Command.Line
import TaintTrace.Flow.ByteMap
import TaintTrace.Flow.Cavity
import TaintTrace.Graph.Tree
import TaintTrace.Settings.Basic
import TaintTrace.Text.Columns
import TaintTrace.Trace.Cache
import TaintTrace.Trace.Statistics

/-!
# Sessions

In a session a user explores a trace with commands.  The cavities and the map of bytes
are computed once and kept.
-/

namespace TaintTrace

inductive CommandName where
  | cavities
  | exit
  | files
  | help
  | info
  | mapping
  | node
  | sinks
  | sources
  | state
  | tree
  deriving DecidableEq, Repr

namespace CommandName

def text : CommandName -> Text
  | cavities => "cavities"
  | exit => "exit"
  | files => "files"
  | help => "help"
  | info => "info"
  | mapping => "mapping"
  | node => "node"
  | sinks => "sinks"
  | sources => "sources"
  | state => "state?"
  | tree => "tree"

def all : List CommandName :=
  [cavities, exit, files, help, info, mapping, node, sinks, sources, state, tree]

def ofText? (t : Text) : Option CommandName :=
  all.find? fun c => c.text == t

end CommandName

/-- A trace that is being explored, and what was computed about it. -/
structure Session where
  tracePath : Text
  configPath : Text
  workingDirectory : Text
  settings : Settings
  width : Int
  reader : TraceReader
  cavities : Option (Except Fault (List Cavity)) := none
  byteMap : Option (Except Fault ByteMap) := none

/-- The answer to a command: what is shown, whether the session ends, the messages
that came up and the session after it. -/
structure Response where
  output : Text
  stop : Bool := false
  log : Log := []
  session : Session

namespace Session

/-!
## The terminal

Faults are shown in red, and what went well in green.
-/

def blue : Text := "\x1b[34m"

def red : Text := "\x1b[31m"

def green : Text := "\x1b[32m"

def reset : Text := "\x1b[0m"

def errorLine (t : Text) : Text :=
  red ++ t ++ reset ++ "\n"

def successLine (t : Text) : Text :=
  green ++ t ++ reset ++ "\n"

/-- A text as a terminal gets it: a carriage return stands before each newline. -/
def onTerminal (t : Text) : Text :=
  t.flatMap fun b => if b = Text.newline then [0x0d, b] else [b]

def helpLine (name : CommandName) (args help : Text) : Text :=
  let args : Text := if args.isEmpty then [] else " " ++ args
  "\t- " ++ blue ++ name.text ++ reset ++ args ++ " : " ++ help ++ "\n"

def helpOf (name : CommandName) : Text :=
  match name with
  | .cavities => helpLine name "[regex]" "print the cavities of the files whose path matches regex"
  | .exit => helpLine name [] "exit the program"
  | .files => helpLine name [] "list the files of the trace"
  | .help => helpLine name [] "print this message"
  | .info => helpLine name [] "print statistics about the trace"
  | .mapping => helpLine name "uid offset" "print the output bytes the input byte flows to"
  | .node => helpLine name "label..." "print the nodes of the labels"
  | .sinks => helpLine name "[--limit n]" "print the sinks of the trace"
  | .sources =>
      helpLine name "label [-nocf]" "print the input bytes a label was computed from"
        ++ "\t  Options:\n"
        ++ "\t    -nocf  only the bytes reached without going through a node affecting control flow\n"
  | .state => helpLine name [] "print information about the current state"
  | .tree => helpLine name "label [--depth n]" "print the tree of the labels a label refers to"

def help : Text :=
  "Commands:\n" ++ CommandName.all.flatMap helpOf

/-!
## Commands

Each command answers with a text and with the session after it.  Most of them only look at
the trace, and change no more than what the reader has cached.
-/

def trace (s : Session) : Trace :=
  s.reader.trace

def reply (s : Session) (output : Text) : Response :=
  { output := output, session := s }

def look {α : Type} (s : Session) (p : Lookup α) (output : α -> Text) : Response :=
  let (a, reader) := s.reader.run p
  { output := output a, session := { s with reader := reader } }

def state (s : Session) : Response :=
  let config : Text := if s.configPath.isEmpty then "none (default options)" else s.configPath
  let computed : Text := if s.cavities.isSome then "true" else "false"
  let cached : Text :=
    match s.reader.cache with
    | some c => "# cached nodes    : " ++ Text.ofNat c.size ++ "\n"
    | none => []
  s.reply ("Trace path        : " ++ s.tracePath ++ "\n"
    ++ "Config path       : " ++ config ++ "\n"
    ++ "Working dir       : " ++ s.workingDirectory ++ "\n"
    ++ "# labels          : " ++ Text.ofInt (s.trace.labelCount - 1) ++ "\n"
    ++ "cavities computed?: " ++ computed ++ "\n"
    ++ cached)

def info (s : Session) : Response :=
  s.look s.trace.statistics fun statistics =>
    Text.ofLines statistics.lines

def files (s : Session) : Response :=
  s.reply ((s.trace.headers.mapIdx fun i h =>
    ("[" ++ Text.ofNat i ++ "] " ++ Text.sanitized h.text ++ "\n" : Text)).flatten)

def nodeLine (t : Trace) (l : Label) (n : Node) : Text :=
  let plain : Text := l.text ++ ": " ++ n.text
  match n.origin with
  | .source file offset =>
      match t.inputs[file.toNat]? with
      | some i => plain ++ " " ++ i.path ++ "[" ++ Text.ofNat offset.toNat ++ "]\n"
      | none => plain ++ "\n"
  | _ => plain ++ "\n"

def nodeLines (t : Trace) : List Text -> (shown : Text) -> Lookup Text
  | [], shown => .done shown
  | word :: words, shown =>
      match Command.readLabel word with
      | .error e => nodeLines t words (shown ++ errorLine e.message)
      | .ok l =>
          .decode l fun
            | .error e => nodeLines t words (shown ++ errorLine e.message)
            | .ok n => nodeLines t words (shown ++ nodeLine t l n)

def node (s : Session) (c : Command) : Response :=
  if c.args.isEmpty then s.reply (errorLine "node expects at least one label")
  else s.look (nodeLines s.trace c.args []) id

def sourcesAmong : List Label -> (found : List FoundSource) -> Lookup (List FoundSource)
  | [], found => .done found.reverse
  | l :: ls, found =>
      .decode l fun
        | .ok ⟨.source file offset, _⟩ => sourcesAmong ls (⟨l, file, offset⟩ :: found)
        | _ => sourcesAmong ls found

/-- The sources that are reached without passing a node that affects control flow. -/
def unhindered (t : Trace) (l : Label) : Lookup (Except Fault (List FoundSource)) :=
  (Lookup.unhinderedSources l (LabelSet.withRoom t.labelCount)).bind fun r =>
    match r.fault with
    | some e => .done (.error e)
    | none => (sourcesAmong r.yielded []).bind fun found => .done (.ok found)

def allSources (l : Label) : Lookup (Except Fault (List FoundSource)) :=
  (Lookup.sources l).bind fun
    | (_, some e) => .done (.error e)
    | (found, none) => .done (.ok found)

/-- The bytes of sources in columns.  Sources of unknown files are listed in front. -/
def sourcesText (t : Trace) (width : Int) (found : List FoundSource) : Text :=
  let isKnown (f : FoundSource) : Bool := (t.input? f.file.toNat).isSome
  let unknown := (found.filter fun f => !isKnown f).map FoundSource.label
  let bytes := found.filterMap fun f =>
    (t.input? f.file.toNat).map fun i => (⟨i, f.offset⟩ : ByteOffset)
  let complaint : Text :=
    if unknown.isEmpty then []
    else
      errorLine ("labels [" ++ Text.join " " (unknown.map Label.text)
        ++ "] are sources of files without header")
  let listing : Text :=
    if bytes.isEmpty then successLine "No source found."
    else
      Text.ofLines (Columns.layout ((ByteMap.sortBytes bytes).map ByteOffset.text) "  " width)
  complaint ++ listing

def sources (s : Session) (c : Command) : Response :=
  match c.label 0 with
  | .error e => s.reply (errorLine e.message)
  | .ok l =>
      let search := if c.hasFlag "nocf" then unhindered s.trace l else allSources l
      s.look search fun
        | .error e => errorLine e.message
        | .ok found => sourcesText s.trace s.width found

def defaultTreeDepth : Nat := 3

def maxTreeNodes : Nat := 500

/-- The lines of a walk, and the last label that could not be decoded. -/
def treeLines : List LabelTree.Visit -> (shown : Text) -> (fault : Option InvalidLabel) ->
    Lookup (Text × Option InvalidLabel)
  | [], shown, fault => .done (shown, fault)
  | v :: vs, shown, fault =>
      .decode v.label fun
        | .error e => treeLines vs shown (some e)
        | .ok n =>
            treeLines vs
              (shown ++ List.replicate (2 * v.walkDepth) Text.space ++ v.label.text ++ ": " ++ n.text
                ++ "\n") fault

def treeText (l : Label) (depth : Nat) : Lookup Text :=
  (Lookup.labelTree l depth maxTreeNodes).bind fun
    | .error e => .done (errorLine e.message)
    | .ok (tree, complete) =>
        (treeLines tree.walk [] none).bind fun (shown, fault) =>
          let complaint : Text := (fault.map fun e => errorLine e.message).getD []
          let cut : Text :=
            if complete then []
            else errorLine ("tree truncated to " ++ Text.ofNat maxTreeNodes ++ " nodes")
          .done (shown ++ complaint ++ cut)

def tree (s : Session) (c : Command) : Response :=
  match c.label 0, c.count "depth" with
  | .error e, _ => s.reply (errorLine e.message)
  | _, .error e => s.reply (errorLine e.message)
  | .ok l, .ok depth => s.look (treeText l (depth.getD defaultTreeDepth)) id

def sinkLine (t : Trace) (s : Sink) : Text :=
  let path : Text :=
    match t.inputs[s.output.toNat]? with
    | some i => i.path
    | none => "fd header " ++ Text.ofNat s.output.toNat
  path ++ "[" ++ Text.ofNat s.offset.toNat ++ "] <- " ++ s.label.text ++ "\n"

def sinks (s : Session) (c : Command) : Response :=
  match c.count "limit" with
  | .error e => s.reply (errorLine e.message)
  | .ok limit =>
      let all := s.trace.sinks
      let shown := all.take (limit.getD all.length)
      let more : Text :=
        if shown.length < all.length then
          "... " ++ Text.ofNat (all.length - shown.length) ++ " more sinks\n"
        else []
      s.reply (shown.flatMap (sinkLine s.trace) ++ more)

def withCavities (s : Session) : Except Fault (List Cavity) × Log × Session :=
  match s.cavities with
  | some found => (found, [], s)
  | none =>
      let ((log, found), reader) := s.reader.run (s.trace.cavities s.settings.cavityOptions)
      (found, log, { s with reader := reader, cavities := some found })

def withByteMap (s : Session) : Except Fault ByteMap × Log × Session :=
  match s.byteMap with
  | some found => (found, [], s)
  | none =>
      let ((log, found), reader) := s.reader.run (s.trace.byteMap s.settings.options.progressInterval)
      (found, log, { s with reader := reader, byteMap := some found })

def cavityLines (selects : Text -> Bool) (found : Except Fault (List Cavity)) : Text :=
  match found with
  | .error e => errorLine ("could not compute cavities: " ++ e.message)
  | .ok all =>
      let shown := all.filter fun c => selects c.path
      if shown.isEmpty then successLine "No cavity found."
      else shown.flatMap fun c => (c.text ++ "\n" : Text)

def listCavities (s : Session) (c : Command) : Response :=
  let filter : Except Text (Text -> Bool) :=
    match c.args with
    | [] => .ok fun _ => true
    | word :: _ =>
        match Pattern.read word with
        | .ok p => .ok (PatternProgram.ofPattern p).matchesText
        | .error e => .error ("invalid regex " ++ Text.quoted word ++ ": " ++ e.message)
  match filter with
  | .error message => s.reply (errorLine message)
  | .ok selects =>
      let (found, log, s) := s.withCavities
      { output := cavityLines selects found, log := log, session := s }

def flowLine (b : ByteOffset) (found : Except Fault ByteMap) : Text :=
  match found with
  | .error e => errorLine ("could not compute the mapping: " ++ e.message)
  | .ok m =>
      match (m.lookup b).getD [] with
      | [] => successLine (b.text ++ " does not flow to any output.")
      | outputs => b.text ++ " -> " ++ Text.join ", " (outputs.map ByteOffset.text) ++ "\n"

def showMapping (s : Session) (c : Command) : Response :=
  match c.args with
  | [file, offset] =>
      match Numeral.decimal? file with
      | none => s.reply (errorLine ("invalid file index " ++ Text.quoted file))
      | some id =>
          match Numeral.natural none Numeral.max64 offset with
          | .error _ => s.reply (errorLine ("invalid offset " ++ Text.quoted offset))
          | .ok n =>
              match s.trace.input id with
              | .error e => s.reply (errorLine e.message)
              | .ok i =>
                  let (found, log, s) := s.withByteMap
                  { output := flowLine ⟨i, UInt64.ofNat n⟩ found, log := log, session := s }
  | _ => s.reply (errorLine "mapping expects a file index and an offset")

def perform (s : Session) (name : CommandName) (c : Command) : Response :=
  match name with
  | .cavities => s.listCavities c
  | .exit => { output := [], stop := true, session := s }
  | .files => s.files
  | .help => s.reply help
  | .info => s.info
  | .mapping => s.showMapping c
  | .node => s.node c
  | .sinks => s.sinks c
  | .sources => s.sources c
  | .state => s.state
  | .tree => s.tree c

/-- Answer a line.  A line without a command has an empty answer, and an unknown
command is answered with the commands there are. -/
def interpret (s : Session) (line : Text) : Response :=
  let c := Command.ofLine line
  if c.name.isEmpty then s.reply []
  else
    match CommandName.ofText? c.name with
    | some name => s.perform name c
    | none =>
        s.reply (errorLine ("Command name " ++ Text.quoted c.name ++ " not recognized.") ++ help)

end Session
end TaintTrace
