import TaintTrace.Files.Script
import TaintTrace.Flow.Cavity
import TaintTrace.Settings.Filter
import TaintTrace.Settings.Options

/-!
# Settings

Settings are options together with what was made for them: the files for reports and
the filter of paths.  Options out of range get their defaults.
-/

namespace TaintTrace

structure Settings where
  options : Options
  source : Text
  cavitiesReport : Text
  mappingReport : Text
  filter : PathFilter

namespace Settings

def default : Settings :=
  ⟨{}, [], [], [], .everything⟩

inductive Fault where
  | options (f : Options.Fault)
  | tempDirectory
  | directory (path : Text)
  | reportFile (name folder : Text)

namespace Fault

def message : Fault -> Text
  | .options f => "could not unmarshal config file: " ++ f.message
  | .tempDirectory => "could not create temp dir for reports"
  | .directory path => "could not create directory " ++ path
  | .reportFile name folder =>
      "could not create report file " ++ name ++ " in " ++ folder

end Fault

/-- Give options that are unset or out of range their defaults. -/
def filled (o : Options) : Options :=
  { o with
    logLevel := if o.logLevel = 0 then 3 else o.logLevel
    maxRoutines := if o.maxRoutines ≤ 0 then 1 else o.maxRoutines
    progressInterval := if o.progressInterval ≤ 0 then 1000000 else o.progressInterval
    contextBytes := if o.contextBytes < 0 then 10 else o.contextBytes }

/-- Make the directory of reports: a new one beside the configuration file, or the
given one unless it exists. -/
def makeReportsDirectory (file : Text) (given : Text) : Script (Except Fault Text) :=
  if given.isEmpty then
    .makeTempDirectory (Path.directory file) [] "-report" fun
      | some path => .done (.ok path)
      | none => .done (.error .tempDirectory)
  else
    .makeDirectory given fun
      | .ok () => .done (.ok given)
      | .error e =>
          .done (if e.cause = .alreadyThere then .ok given else .error (.directory given))

def makeReportFile (wanted : Bool) (directory name : Text) : Script (Except Fault Text) :=
  if wanted then
    .makeTempFile directory (name ++ "-") ".out" fun
      | some path => .done (.ok path)
      | none => .done (.error (.reportFile (name ++ "-*.out") directory))
  else .done (.ok [])

/-- Make the files for reports; the directory and the two files are returned. -/
def makeReports (file : Text) (o : Options) : Script (Except Fault (Text × Text × Text)) := do
  if o.reportCavities || o.reportMapping then
    match ← makeReportsDirectory file o.reportsDir with
    | .error e => return .error e
    | .ok directory =>
        match ← makeReportFile o.reportCavities directory "cavities" with
        | .error e => return .error e
        | .ok cavities =>
            match ← makeReportFile o.reportMapping directory "mapping" with
            | .error e => return .error e
            | .ok mapping => return .ok (directory, cavities, mapping)
  else return .ok (o.reportsDir, [], [])

def load (file text : Text) : Script (Except Fault Settings) := do
  match Options.read text with
  | .error e => return .error (.options e)
  | .ok o =>
      match ← makeReports file o with
      | .error e => return .error e
      | .ok (directory, cavities, mapping) =>
          let o := filled { o with reportsDir := directory }
          return .ok ⟨o, file, cavities, mapping, PathFilter.ofText o.pathFilter⟩

def cavityOptions (s : Settings) : CavityOptions where
  selects := s.filter.selects
  legacyTrailing := s.options.legacyTrailingCavity
  progressInterval := s.options.progressInterval

def logLevel (s : Settings) : Int :=
  s.options.logLevel

def relative (s : Settings) (path : Text) : Text :=
  Path.append (Path.directory s.source) path

end Settings
end TaintTrace
