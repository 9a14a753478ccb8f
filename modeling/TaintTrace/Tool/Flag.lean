import TaintTrace.Numeral.Integer
import TaintTrace.Text.Quoted

/-!
# Flags

A command line begins with flags, which change options, and goes on with arguments.
A flag is written `-name` or `--name`.  Its value follows after an equals sign or as
the next word; only a flag that is true or false may stand without a value.
-/

namespace TaintTrace

/-- How the value of a flag is read, and what it changes in options. -/
inductive FlagKind (σ : Type) where
  | truth (set : Bool -> σ -> σ)
  | text (set : Text -> σ -> σ)
  | integer (set : Int -> σ -> σ)
  | natural (set : Nat -> σ -> σ)

/-- A flag for options `σ`.  The default value is for the usage text. -/
structure Flag (σ : Type) where
  name : Text
  usage : Text
  initial : Text
  kind : FlagKind σ

/-- Why flags cannot be read.  Asking for help is one of the reasons. -/
inductive FlagFault where
  | help
  | malformed (word : Text)
  | unknown (name : Text)
  | valueMissing (name : Text)
  | badTruth (value name : Text)
  | badValue (value name : Text) (cause : Numeral.Fault)
  deriving DecidableEq, Repr

namespace FlagFault

def causeText : Numeral.Fault -> Text
  | .malformed => "parse error"
  | .outOfRange => "value out of range"

/-- The line that explains a fault; help needs none. -/
def message? : FlagFault -> Option Text
  | help => none
  | malformed word => some ("bad flag syntax: " ++ word)
  | unknown name => some ("flag provided but not defined: -" ++ name)
  | valueMissing name => some ("flag needs an argument: -" ++ name)
  | badTruth value name =>
      some ("invalid boolean value " ++ Text.quoted value ++ " for -" ++ name ++ ": parse error")
  | badValue value name cause =>
      some ("invalid value " ++ Text.quoted value ++ " for flag -" ++ name ++ ": "
        ++ causeText cause)

end FlagFault

namespace Flag

variable {σ : Type}

inductive Word where
  | argument
  | endOfFlags
  | malformed
  | flag (name : Text) (value : Option Text)
  deriving DecidableEq, Repr

def dash : UInt8 := 0x2d

def equals : UInt8 := 0x3d

/-- Cut the text of a flag at its first equals sign, which is not the first byte. -/
def Word.ofFlag (t : Text) : Word :=
  match t with
  | [] => .malformed
  | b :: rest =>
      if b = dash ∨ b = equals then .malformed
      else
        let name := b :: rest.takeWhile (· ≠ equals)
        match rest.dropWhile (· ≠ equals) with
        | [] => .flag name none
        | _ :: value => .flag name (some value)

/-- Classify a word.  A lone dash is an argument, and two dashes end the flags. -/
def Word.ofText (t : Text) : Word :=
  match t with
  | a :: b :: rest =>
      if a ≠ dash then .argument
      else if b ≠ dash then .ofFlag (b :: rest)
      else if rest.isEmpty then .endOfFlags
      else .ofFlag rest
  | _ => .argument

def truth? (t : Text) : Option Bool :=
  if ([("1" : Text), "t", "T", "true", "TRUE", "True"] : List Text).contains t then some true
  else if ([("0" : Text), "f", "F", "false", "FALSE", "False"] : List Text).contains t then
    some false
  else none

def isTruth (f : Flag σ) : Bool :=
  match f.kind with
  | .truth _ => true
  | _ => false

def set (f : Flag σ) (value : Text) (options : σ) : Except FlagFault σ :=
  match f.kind with
  | .text change => .ok (change value options)
  | .truth change =>
      match truth? value with
      | some b => .ok (change b options)
      | none => .error (.badTruth value f.name)
  | .integer change =>
      match Numeral.integer none value with
      | .ok i => .ok (change i options)
      | .error e => .error (.badValue value f.name e)
  | .natural change =>
      match Numeral.natural none Numeral.max64 value with
      | .ok n => .ok (change n options)
      | .error e => .error (.badValue value f.name e)

/-- The flag with a name.  Help may be asked for where no flag has that name. -/
def find (flags : List (Flag σ)) (name : Text) : Except FlagFault (Flag σ) :=
  match flags.find? fun f => f.name == name with
  | some f => .ok f
  | none => .error (if name = "help" ∨ name = "h" then .help else .unknown name)

/-- Read the flags at the beginning of a command line; the arguments after them are
returned with the options. -/
def read (flags : List (Flag σ)) : List Text -> σ -> Except FlagFault (σ × List Text)
  | [], options => .ok (options, [])
  | word :: rest, options =>
      match Word.ofText word with
      | .argument => .ok (options, word :: rest)
      | .endOfFlags => .ok (options, rest)
      | .malformed => .error (.malformed word)
      | .flag name value =>
          match find flags name with
          | .error e => .error e
          | .ok f =>
              match value with
              | some value =>
                  match f.set value options with
                  | .error e => .error e
                  | .ok options => read flags rest options
              | none =>
                  if f.isTruth then
                    match f.set "true" options with
                    | .error e => .error e
                    | .ok options => read flags rest options
                  else
                    match rest with
                    | [] => .error (.valueMissing name)
                    | value :: rest =>
                        match f.set value options with
                        | .error e => .error e
                        | .ok options => read flags rest options

def usageLine (f : Flag σ) : Text :=
  "  " ++ f.name ++ ": " ++ f.usage ++ " (default: " ++ Text.quoted f.initial ++ ")\n"

def usageOf (purpose : Text) (flags : List (Flag σ)) : Text :=
  purpose ++ "\nOptions:\n"
    ++ (flags.mergeSort fun a b => Text.le a.name b.name).flatMap usageLine

end Flag
end TaintTrace
