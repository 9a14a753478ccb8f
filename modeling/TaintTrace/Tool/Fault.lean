import TaintTrace.Files.Tree
import TaintTrace.Flow.Fault
import TaintTrace.Graph.Order
import TaintTrace.Settings.Basic
import TaintTrace.Trace.Image.Reading

/-!
# Faults of tools

A tool fails for one of these reasons.
-/

namespace TaintTrace

/-- Why a trace file cannot be opened. -/
inductive OpenFault where
  | missing (fault : FileFault)
  | unmapped (path : Text) (cause : FileCause)
  | rejected (path : Text) (cause : Image.ImageError)

namespace OpenFault

def message : OpenFault -> Text
  | missing fault => "could not open trace: " ++ fault.message
  | unmapped path cause => "could not map trace " ++ path ++ ": " ++ cause.message
  | rejected path cause => "could not read trace " ++ path ++ ": " ++ cause.message

end OpenFault

inductive ToolFault where
  | labelExpected
  | oneTraceExpected (args : List Text)
  | configUnreadable (path : Text) (fault : FileFault)
  | configInvalid (path : Text) (fault : Settings.Fault)
  | traceUnusable (fault : OpenFault)
  | noCavities (fault : Fault)
  | inconsistent (problems cycles : Nat)
  | noByteMap (fault : Fault)
  | notRendered (label : Label) (fault : InvalidLabel)
  | notOrdered (label : Label) (fault : Unorderable)
  | reportNotOpened (fault : FileFault)
  | noTerminal

namespace ToolFault

def message : ToolFault -> Text
  | labelExpected => "a label must be specified with -label"
  | oneTraceExpected args =>
      "expected exactly one trace file, got " ++ Text.ofNat args.length ++ " arguments ["
        ++ Text.join " " args ++ "]"
  | configUnreadable path fault =>
      "failed to load config file " ++ path ++ ": could not read config file: " ++ fault.message
  | configInvalid path fault =>
      "failed to load config file " ++ path ++ ": " ++ fault.message
  | traceUnusable fault => "could not open trace: " ++ fault.message
  | noCavities fault => "cavity detection failed: " ++ fault.message
  | inconsistent problems cycles =>
      "trace is not consistent: " ++ Text.ofNat problems ++ " errors, " ++ Text.ofNat cycles
        ++ " cycles"
  | noByteMap fault => "could not compute the input to output mapping: " ++ fault.message
  | notRendered label fault =>
      "could not render label " ++ label.text ++ ": " ++ fault.message
  | notOrdered label fault =>
      "labels of " ++ label.text ++ " cannot be ordered: " ++ fault.message
  | reportNotOpened fault => "could not open report file: " ++ fault.message
  | noTerminal => "could not start the terminal: inappropriate ioctl for device"

end ToolFault
end TaintTrace
