/-!
# Command line

Flags and options as they are given, one argument after the other. Everything can be given once.
A value that is written as an argument of its own is taken up when the next flag or option is
recognised, or at the end; an argument that is not known stops the reading before that.
-/

namespace LintLedger.CommandLine

structure Request where
  printOnly : Bool
  check : Bool
  verbose : Bool
  repoRoot : Option String
  output : Option String
  deriving DecidableEq, Repr

namespace Request

def plain : Request :=
  ⟨false, false, false, none, none⟩

end Request

inductive Stop where
  | unknownArgument
  | repeated
  | valueMissing
  | valueUnwanted
  | help
  | version
  deriving DecidableEq, Repr

inductive Flag where
  | printOnly
  | check
  | verbose
  | help
  | version
  deriving DecidableEq, Repr

inductive Setting where
  | repoRoot
  | output
  deriving DecidableEq, Repr

/-- What a word after two dashes names. -/
inductive Named where
  | flag (flag : Flag)
  | setting (setting : Setting)
  deriving DecidableEq, Repr

def long? : String → Option Named
  | "print-only" => some (.flag .printOnly)
  | "check" => some (.flag .check)
  | "verbose" => some (.flag .verbose)
  | "help" => some (.flag .help)
  | "version" => some (.flag .version)
  | "repo-root" => some (.setting .repoRoot)
  | "output" => some (.setting .output)
  | _ => none

def short? : Char → Option Flag
  | 'n' => some .printOnly
  | 'c' => some .check
  | 'v' => some .verbose
  | 'h' => some .help
  | 'V' => some .version
  | _ => none

/-- A setting that is named but not taken up yet, with its value once that is known. -/
structure Pending where
  setting : Setting
  value : Option String

structure State where
  request : Request
  pending : Option Pending

namespace State

def initial : State :=
  ⟨.plain, none⟩

def assign (s : State) (setting : Setting) (value : String) : Except Stop State :=
  match setting with
  | .repoRoot =>
    if s.request.repoRoot.isSome then .error .repeated
    else .ok ⟨{ s.request with repoRoot := some value }, none⟩
  | .output =>
    if s.request.output.isSome then .error .repeated
    else .ok ⟨{ s.request with output := some value }, none⟩

def settle (s : State) : Except Stop State :=
  match s.pending with
  | none => .ok s
  | some ⟨_, none⟩ => .error .valueMissing
  | some ⟨setting, some value⟩ => s.assign setting value

def raise (s : State) (flag : Flag) : Except Stop State := do
  let s ← s.settle
  match flag with
  | .help => throw .help
  | .version => throw .version
  | .printOnly =>
    if s.request.printOnly then throw .repeated
    return ⟨{ s.request with printOnly := true }, none⟩
  | .check =>
    if s.request.check then throw .repeated
    return ⟨{ s.request with check := true }, none⟩
  | .verbose =>
    if s.request.verbose then throw .repeated
    return ⟨{ s.request with verbose := true }, none⟩

def letters (s : State) : List Char → Except Stop State
  | [] => .ok s
  | c :: cs =>
    match short? c with
    | none => .error .unknownArgument
    | some flag => do (← s.raise flag).letters cs

/-- Reads a word after two dashes, with the value that an equals sign attaches to it. -/
def word (s : State) (name : String) (attached : Option String) : Except Stop State :=
  match long? name, attached with
  | none, _ => .error .unknownArgument
  | some (.flag flag), none => s.raise flag
  | some (.flag _), some _ => .error .valueUnwanted
  | some (.setting setting), none => do
    return { (← s.settle) with pending := some ⟨setting, none⟩ }
  | some (.setting setting), some value => do (← s.settle).assign setting value

/-- Reads an argument that names nothing: it can only be an awaited value. -/
def bare (s : State) (arg : String) : Except Stop State :=
  match s.pending with
  | some ⟨setting, none⟩ => .ok { s with pending := some ⟨setting, some arg⟩ }
  | _ => .error .unknownArgument

end State

def cutAtEquals (cs : List Char) : String × Option String :=
  match cs.dropWhile (· ≠ '=') with
  | [] => (String.ofList cs, none)
  | _ :: value => (String.ofList (cs.takeWhile (· ≠ '=')), some (String.ofList value))

/-- Reads the arguments from a state on. Nothing but the end can follow two bare dashes. -/
def readFrom (s : State) : List String → Except Stop State
  | [] => s.settle
  | arg :: args =>
    match arg.toList with
    | ['-', '-'] => if args.isEmpty then s.settle else .error .unknownArgument
    | '-' :: '-' :: cs => do
      let (name, attached) := cutAtEquals cs
      readFrom (← s.word name attached) args
    | '-' :: c :: cs => do readFrom (← s.letters (c :: cs)) args
    | _ => do readFrom (← s.bare arg) args

def read (args : List String) : Except Stop Request := do
  return (← readFrom .initial args).request

end LintLedger.CommandLine
