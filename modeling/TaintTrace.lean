import TaintTrace.Command.Completion
import TaintTrace.Flow.ByteMap
import TaintTrace.Flow.Cavity
import TaintTrace.Flow.Report
import TaintTrace.Graph.Dot
import TaintTrace.Graph.Order
import TaintTrace.Graph.Tree
import TaintTrace.Main
import TaintTrace.Proofs.Agreement
import TaintTrace.Proofs.Aliases
import TaintTrace.Proofs.Ancestry
import TaintTrace.Proofs.Bitmap
import TaintTrace.Proofs.Cavity
import TaintTrace.Proofs.CavityReport
import TaintTrace.Proofs.CheckedRun
import TaintTrace.Proofs.Columns
import TaintTrace.Proofs.CommandLine
import TaintTrace.Proofs.Cycle
import TaintTrace.Proofs.Hint
import TaintTrace.Proofs.Image
import TaintTrace.Proofs.InvalidLabel
import TaintTrace.Proofs.MappingReport
import TaintTrace.Proofs.Order
import TaintTrace.Proofs.OutputSources
import TaintTrace.Proofs.Recency
import TaintTrace.Proofs.RecordedByte
import TaintTrace.Proofs.Refusal
import TaintTrace.Proofs.Render
import TaintTrace.Proofs.Rewriting
import TaintTrace.Proofs.Rounds
import TaintTrace.Proofs.Schedule
import TaintTrace.Proofs.Screen
import TaintTrace.Proofs.Searches
import TaintTrace.Proofs.Slices
import TaintTrace.Proofs.Statistics
import TaintTrace.Proofs.Truncation
import TaintTrace.Settings.Basic
import TaintTrace.Text.Columns
import TaintTrace.Text.Quoted
import TaintTrace.Text.Style
import TaintTrace.Trace.Ancestry
import TaintTrace.Trace.Cache
import TaintTrace.Trace.Image.Reading
import TaintTrace.Trace.Image.Writing
import TaintTrace.Trace.Statistics
import TaintTrace.Trace.Validity
import TaintTrace.Unicode.Category
import TaintTrace.Unicode.Folding
import TaintTrace.Unicode.Script
