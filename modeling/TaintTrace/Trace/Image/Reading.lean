import TaintTrace.Trace.Image.Layout
import TaintTrace.Trace.Recording

/-!
# Reading trace files

Reading checks the preamble, then every entry of the section table in order, then
that the headers and the labels are there, then the names of the headers.  The
first fault found is the answer.  Where a section is repeated the last one counts.
-/

namespace TaintTrace
namespace Image

inductive SectionFault where
  | entrySize (found expected : Nat)
  | size (found expected : Nat)
  | missing
  | nameOutside (index : Nat)
  deriving DecidableEq, Repr

inductive ImageError where
  | badMagic
  | truncated
  | version (found : Nat)
  | outside (entry : TableEntry)
  | malformed (kind : SectionKind) (fault : SectionFault)
  deriving DecidableEq, Repr

namespace SectionFault

def message : SectionFault -> Text
  | entrySize found expected =>
      "entry size is " ++ Text.ofNat found ++ ", expected " ++ Text.ofNat expected
  | size found expected =>
      "size " ++ Text.ofNat found ++ " is not a multiple of " ++ Text.ofNat expected
  | missing => "missing"
  | nameOutside index =>
      "name of header " ++ Text.ofNat index ++ " is outside of the string table"

end SectionFault

namespace ImageError

def message : ImageError -> Text
  | badMagic => "not a taint trace file"
  | truncated => "truncated taint trace file"
  | version found =>
      "unsupported trace version " ++ Text.ofNat found ++ " (expected "
        ++ Text.ofNat Image.version ++ ")"
  | outside e =>
      tagText e.tag ++ " section [" ++ Text.ofNat e.offset ++ ", +" ++ Text.ofNat e.size
        ++ ") outside of file: truncated taint trace file"
  | malformed kind fault => "malformed " ++ kind.text ++ " section: " ++ fault.message

def isTruncation : ImageError -> Bool
  | truncated => true
  | outside _ => true
  | _ => false

end ImageError

/-- What is wrong with an entry of the section table of a file of a given size. -/
def entryError? (fileSize : Nat) (e : TableEntry) : Option ImageError :=
  if fileSize < e.offset + e.size then some (.outside e)
  else
    match SectionKind.ofTag? e.tag, requiredEntrySize? e.tag with
    | some kind, some expected =>
        if e.entrySize ≠ expected then
          some (.malformed kind (.entrySize e.entrySize expected))
        else if e.size % expected ≠ 0 then
          some (.malformed kind (.size e.size expected))
        else none
    | _, _ => none

def chunks (size : Nat) : (count : Nat) -> Text -> List Text
  | 0, _ => []
  | count + 1, b => b.take size :: chunks size count (b.drop size)

def table (file : Text) : List TableEntry :=
  (chunks tableEntrySize (field file 6 2) (file.drop preambleSize)).map TableEntry.ofBytes

def checkedTable (file : Text) : Except ImageError (List TableEntry) :=
  if file.length < preambleSize then
    if magic.length ≤ file.length ∧ file.take 4 ≠ magic then .error .badMagic
    else .error .truncated
  else if file.take 4 ≠ magic then .error .badMagic
  else if field file 4 2 ≠ version then .error (.version (field file 4 2))
  else if file.length < preambleSize + field file 6 2 * tableEntrySize then .error .truncated
  else
    let size := file.length
    match (table file).findSome? (entryError? size) with
    | some e => .error e
    | none => .ok (table file)

def section? (file : Text) (entries : List TableEntry) (kind : SectionKind) : Option Text :=
  (entries.reverse.find? fun e => e.tag == kind.tag).map fun e => e.content file

def sectionEntries (kind : SectionKind) (content : Text) : List Text :=
  chunks kind.entrySize (content.length / kind.entrySize) content

def readHeaders (names : Text) : (index : Nat) -> List Text -> Except ImageError (List Header)
  | _, [] => .ok []
  | index, b :: rest =>
      match headerOfBytes? names b with
      | none => .error (.malformed .headers (.nameOutside index))
      | some h => (readHeaders names (index + 1) rest).map (h :: ·)

def read (file : Text) : Except ImageError Recording :=
  match checkedTable file with
  | .error e => .error e
  | .ok entries =>
      match section? file entries .headers, section? file entries .labels with
      | none, _ => .error (.malformed .headers .missing)
      | some _, none => .error (.malformed .labels .missing)
      | some headers, some labels =>
          let names := (section? file entries .names).getD []
          let sinks := (section? file entries .sinks).getD []
          let taints := (section? file entries .taints).getD []
          (readHeaders names 0 (sectionEntries .headers headers)).map fun hs =>
            { headers := hs.toArray
              words := ((sectionEntries .labels labels).map fun b =>
                UInt64.ofNat (number b)).toArray
              sinks := ((sectionEntries .sinks sinks).map sinkOfBytes).toArray
              taints := ((sectionEntries .taints taints).map taintOfBytes).toArray }

end Image
end TaintTrace
