import LeafPaths.FilePath
import LeafPaths.Record

/-!
The command line.

Arguments are read from left to right, and the first that asks for the version, asks for help or
makes no sense decides the answer. A value follows its option, in the next argument or, behind an
equals sign or directly behind a letter, in the same one. A value in the next argument does not
begin with a hyphen, unless it is one.
-/

namespace LeafPaths

/-- `Cli`: what a run is asked to do. -/
structure Options where
  inputs : List FilePath
  folders : List FilePath
  workspace? : Option FilePath
  output? : Option FilePath
  format? : Option Format
  jobs? : Option Nat
  keepGoing : Bool
  verbosity : Nat
deriving DecidableEq, Repr, Inhabited

namespace CommandLine

inductive Setting where
  | input
  | folder
  | workspace
  | output
  | format
  | jobs
deriving DecidableEq, Repr, Inhabited

inductive Switch where
  | keepGoing
  | verbose
  /-- Asked for by name, the help is longer than asked for by letter. -/
  | help (isLong : Bool)
  | version
deriving DecidableEq, Repr, Inhabited

inductive Misuse where
  | unknownOption (text : String)
  | missingValue (setting : Setting)
  | invalidValue (setting : Setting) (value : String)
  | unwantedValue (switch : Switch)
  | repeatedSetting (setting : Setting)
  | repeatedSwitch (switch : Switch)
  | unexpectedArgument (text : String)
deriving DecidableEq, Repr, Inhabited

/-- Answers that are given without a run. -/
inductive Reply where
  | version
  | help (isLong : Bool)
  | misuse (reason : Misuse)
deriving DecidableEq, Repr, Inhabited

def Setting.ofName? : String → Option Setting
  | "input" => some .input
  | "folder" => some .folder
  | "workspace" => some .workspace
  | "output" => some .output
  | "format" => some .format
  | "jobs" => some .jobs
  | _ => none

def Setting.ofLetter? : Char → Option Setting
  | 'i' => some .input
  | 'd' => some .folder
  | 'o' => some .output
  | 'f' => some .format
  | 'j' => some .jobs
  | _ => none

def Switch.ofName? : String → Option Switch
  | "keep-going" => some .keepGoing
  | "verbose" => some .verbose
  | "help" => some (.help true)
  | "version" => some .version
  | _ => none

def Switch.ofLetter? : Char → Option Switch
  | 'v' => some .verbose
  | 'h' => some (.help false)
  | 'V' => some .version
  | _ => none

/-- A number of workers: decimal digits, perhaps behind a plus sign, of a value below `2 ^ 64`. -/
def workers? (s : String) : Option Nat :=
  let digits := match s.toList with
    | '+' :: ds => ds
    | ds => ds
  let n := digits.foldl (fun n c => 10 * n + (c.toNat - 48)) 0
  if !digits.isEmpty && digits.all Char.isDigit && n < Nat.pow 2 64 then some n else none

def path? (s : String) : Option FilePath := if s = "" then none else some ⟨s⟩

def once {α : Type} (setting : Setting) (value : String) (old : Option α)
    (read? : String → Option α) (fill : α → Options) : Except Reply Options :=
  match read? value with
  | none => .error (.misuse (.invalidValue setting value))
  | some a =>
    if old.isSome then .error (.misuse (.repeatedSetting setting)) else .ok (fill a)

def apply (o : Options) (setting : Setting) (value : String) : Except Reply Options :=
  match setting with
  | .input =>
    match path? value with
    | some p => .ok { o with inputs := o.inputs ++ [p] }
    | none => .error (.misuse (.invalidValue setting value))
  | .folder =>
    match path? value with
    | some p => .ok { o with folders := o.folders ++ [p] }
    | none => .error (.misuse (.invalidValue setting value))
  | .workspace =>
    once setting value o.workspace? path? fun p => { o with workspace? := some p }
  | .output => once setting value o.output? path? fun p => { o with output? := some p }
  | .format => once setting value o.format? Format.ofName? fun f => { o with format? := some f }
  | .jobs => once setting value o.jobs? workers? fun n => { o with jobs? := some n }

def turnOn (o : Options) (switch : Switch) : Except Reply Options :=
  match switch with
  | .keepGoing =>
    if o.keepGoing then .error (.misuse (.repeatedSwitch switch))
    else .ok { o with keepGoing := true }
  | .verbose => .ok { o with verbosity := o.verbosity + 1 }
  | .help isLong => .error (.help isLong)
  | .version => .error .version

/-- Reads letters behind one hyphen. The rest of the argument, without an equals sign in front of
it, is the value of the first letter that takes one; if nothing is left, the value is still to
come. -/
def letters (o : Options) : List Char → Except Reply (Options × Option Setting)
  | [] => .ok (o, none)
  | c :: cs =>
    match Setting.ofLetter? c, Switch.ofLetter? c with
    | some setting, _ =>
      match cs with
      | [] => .ok (o, some setting)
      | '=' :: value => (apply o setting (String.ofList value)).map fun o => (o, none)
      | value => (apply o setting (String.ofList value)).map fun o => (o, none)
    | none, some switch =>
      match turnOn o switch with
      | .ok o => letters o cs
      | .error r => .error r
    | none, none => .error (.misuse (.unknownOption (String.ofList [c])))

def nameAndValue (cs : List Char) : String × Option String :=
  let name := cs.takeWhile (· ≠ '=')
  match cs.drop name.length with
  | [] => (String.ofList name, none)
  | _ :: value => (String.ofList name, some (String.ofList value))

def named (o : Options) (cs : List Char) : Except Reply (Options × Option Setting) :=
  let (name, value?) := nameAndValue cs
  match Setting.ofName? name, Switch.ofName? name, value? with
  | some setting, _, some value => (apply o setting value).map fun o => (o, none)
  | some setting, _, none => .ok (o, some setting)
  | none, some switch, none => (turnOn o switch).map fun o => (o, none)
  | none, some switch, some _ => .error (.misuse (.unwantedValue switch))
  | none, none, _ => .error (.misuse (.unknownOption name))

def isValue (arg : String) : Bool :=
  match arg.toList with
  | '-' :: _ :: _ => false
  | _ => true

/-- Reads one argument; two hyphens alone are not one. -/
def argument (o : Options) (arg : String) : Except Reply (Options × Option Setting) :=
  match arg.toList with
  | '-' :: '-' :: name => named o name
  | '-' :: c :: cs => letters o (c :: cs)
  | _ => .error (.misuse (.unexpectedArgument arg))

def arguments (o : Options) : Option Setting → List String → Except Reply Options
  | none, [] => .ok o
  | some setting, [] => .error (.misuse (.missingValue setting))
  | some setting, value :: rest =>
    if isValue value then
      match apply o setting value with
      | .ok o => arguments o none rest
      | .error r => .error r
    else .error (.misuse (.missingValue setting))
  | none, "--" :: rest =>
    match rest with
    | [] => .ok o
    | arg :: _ => .error (.misuse (.unexpectedArgument arg))
  | none, arg :: rest =>
    match argument o arg with
    | .ok (o, pending) => arguments o pending rest
    | .error r => .error r

def parse (args : List String) : Except Reply Options :=
  arguments ⟨[], [], none, none, none, none, false, 0⟩ none args

end CommandLine

end LeafPaths
