import TaintTrace.Yaml.Decoding

/-!
# Options

The options of a configuration file stand in a mapping under the key `options`.
Unknown keys are ignored and an option without a value keeps its default.  All
options of a wrong type are reported together.
-/

namespace TaintTrace

structure Options where
  reportsDir : Text := []
  reportCavities : Bool := false
  reportMapping : Bool := false
  maxRoutines : Int := 1
  decodeCacheSize : Int := 0
  progressInterval : Int := 1000000
  legacyTrailingCavity : Bool := false
  contextBytes : Int := 10
  pathFilter : Text := []
  logLevel : Int := 3
  deriving DecidableEq, Repr

namespace Options

inductive Setter where
  | text (set : Text -> Options -> Options)
  | truth (set : Bool -> Options -> Options)
  | integer (set : Int -> Options -> Options)

def setters : List (Text × Setter) :=
  [("reports-dir", .text fun v o => { o with reportsDir := v }),
    ("report-cavities", .truth fun v o => { o with reportCavities := v }),
    ("report-mapping", .truth fun v o => { o with reportMapping := v }),
    ("max-routines", .integer fun v o => { o with maxRoutines := v }),
    ("decode-cache-size", .integer fun v o => { o with decodeCacheSize := v }),
    ("progress-interval", .integer fun v o => { o with progressInterval := v }),
    ("legacy-trailing-cavity", .truth fun v o => { o with legacyTrailingCavity := v }),
    ("context-bytes", .integer fun v o => { o with contextBytes := v }),
    ("path-filter", .text fun v o => { o with pathFilter := v }),
    ("log-level", .integer fun v o => { o with logLevel := v })]

/-- Why options cannot be read: decoding ended at once, or values have wrong types. -/
inductive Fault where
  | undecoded (f : Yaml.DecodingFault)
  | mistyped (problems : List Text)

namespace Fault

def message : Fault -> Text
  | .undecoded (.malformed e) => e.message
  | .undecoded .incomparable => "runtime error: hash of unhashable type"
  | .mistyped problems => "yaml: unmarshal errors:\n  " ++ Text.join "\n  " problems

end Fault

/-!
## Sections

Both mappings of a configuration file are decoded in the same way, field by field, and a
field that is set twice is reported.
-/

open Yaml
open Yaml.Decoding

/-- The two mappings of a configuration file: the file itself and its options. -/
inductive Section where
  | file
  | options
  deriving DecidableEq, Repr

namespace Section

def type : Section -> Text
  | file => "config.Config"
  | options => "config.Options"

def names : Section -> List Text
  | file => ["options"]
  | options => setters.map (·.1)

end Section

def decodeOption (name : Text) (n : Yaml.Node) : Decoding Options Unit := do
  let update (f : Options -> Options) : Decoding Options Unit :=
    modify fun d => { d with value := f d.value }
  match setters.lookup name with
  | some (.text f) => if let some v ← text? n then update (f v)
  | some (.truth f) => if let some v ← truth? n then update (f v)
  | some (.integer f) => if let some v ← integer? n then update (f v)
  | none => pure ()

/-- Decode an entry of a section with a way to decode the value of a field.  The names of
the fields that are set are passed on; a field that is set twice is reported. -/
def decodeField (s : Section) (decodeValue : Text -> Yaml.Node -> Decoding Options Unit) (k : Content)
    (e : Yaml.Node × Yaml.Node) (done : List Text) : Decoding Options (List Text) := do
  match k with
  | .scalar (.text name) =>
      if !s.names.elem name then return done
      else if done.elem name then
        report (onLine e.1.properties.line ++ "field " ++ name ++ " already set in type " ++ s.type)
        return done
      else
        decodeValue name e.2
        return name :: done
  | _ => return done

/-- Decode a node into a section.  The fuel bounds the depth. -/
def decodeSection : (fuel : Nat) -> Section -> Yaml.Node -> Decoding Options Unit
  | 0, _, _ => pure ()
  | fuel + 1, s, n =>
      follow n fun n => do
        match n with
        | .mapping _ entries =>
            if !(← reportRepeats entries) then
              let decodeValue : Text -> Yaml.Node -> Decoding Options Unit :=
                match s with
                | .file => fun _ => decodeSection fuel .options
                | .options => decodeOption
              let _ ← decodeEntries nameKey? (decodeField s decodeValue) [] entries
              merge (any? fuel) (fun n _ => decodeSection fuel s n) () entries
        | .scalar p v _ =>
            if (← scalarValue p v) != .null then mistyped n s.type
        | n => mistyped n s.type

def read (t : Text) : Except Fault Options :=
  match Document.read t with
  | .error e => .error (.undecoded (.malformed e))
  | .ok none => .ok {}
  | .ok (some doc) =>
      let decoding : Decoding Options Unit := do
        visit
        decodeSection (2 * t.length + 16) .file doc.root
      match decoding.run { document := doc, value := {} } with
      | .error f => .error (.undecoded f)
      | .ok (_, d) =>
          if d.problems.isEmpty then .ok d.value else .error (.mistyped d.problems.reverse)

end Options
end TaintTrace
