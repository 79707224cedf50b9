import LintLedger.Disk
import LintLedger.Glob.Pattern

/-!
# Files that match

A pattern with slashes is followed through the directories of a disk, component by component.
A component without wildcards is gone to directly; any other is compared with the names in the
directory, in ascending order. Directories reached by `**` are visited before what follows them.
-/

namespace LintLedger.Glob

inductive Segment where
  | literal (text : String)
  | wild (tokens : List Token)
  /-- Any number of directories. -/
  | directories
  deriving DecidableEq, Repr

/-- The character that a token stands for, if it is the only one. -/
def Token.char? : Token → Option Char
  | .char c => some c
  | _ => none

def Segment.ofTokens (tokens : List Token) : Segment :=
  if tokens = [.anyDirectories] then .directories
  else match tokens.mapM Token.char? with
    | some cs => .literal (String.ofList cs)
    | none => .wild tokens

def Segment.matchesName (s : Segment) (name : String) : Bool :=
  match s with
  | .literal text => text == name
  | .wild tokens => Glob.matchesName tokens name.toList
  | .directories => true

/-- The components of a pattern text that starts at the root. -/
structure Route where
  segments : List Segment
  /-- Whether only directories are asked for. -/
  directoriesOnly : Bool

namespace Route

/-- The pieces between the slashes of a text, without an empty last one. -/
def split (text : List Char) : List (List Char) :=
  let pieces := text.splitOn '/'
  if pieces.getLast? = some [] then pieces.dropLast else pieces

/-- Reads a pattern, first as a whole and then component by component. -/
def ofText (text : String) : Except Fault Route := do
  let _ ← readTokens 0 0 none text.toList
  let inner := match text.toList with
    | '/' :: cs => cs
    | cs => cs
  let segments ← (split inner).mapM fun piece => do
    return Segment.ofTokens (← readTokens 0 0 none piece)
  return ⟨segments, text.toList.getLast? == some '/'⟩

end Route

/-- What is in a directory: names with what they stand for, in ascending order. -/
def children (d : Disk) (p : Path) : List Path :=
  match d.placeOf p with
  | .error _ => []
  | .ok place =>
    ((d.below place).filter fun e => e.1.length = 1).map fun e =>
      e.1.foldl (fun q name => q.join ⟨name⟩) p

def descendants (d : Disk) (p : Path) : List Path :=
  match d.placeOf p with
  | .error _ => []
  | .ok place => (d.below place).map fun e => e.1.foldl (fun q name => q.join ⟨name⟩) p

/-- The names `..` and `.`, if the component starts with a dot and matches them. -/
def dotNames (tokens : List Token) : List String :=
  if tokens.head? = some (.char '.') then
    ["..", "."].filter fun name => matchesName tokens name.toList
  else []

/-- The paths from `p` on that match the components. -/
def walk (d : Disk) (directoriesOnly : Bool) (p : Path) : List Segment → List Path
  | [] => if directoriesOnly && !d.isDirectory p then [] else [p]
  | .literal text :: segments =>
    let next := p.join ⟨text⟩
    let found := if text = "." ∨ text = ".." then d.isDirectory p else d.exists? next
    if found then walk d directoriesOnly next segments else []
  | .wild tokens :: segments =>
    if d.isDirectory p then
      let dots := (dotNames tokens).map fun name => p.join ⟨name⟩
      let named := (children d p).filter fun q =>
        q.fileName?.any fun name => matchesName tokens name.toList
      (dots ++ named).flatMap fun q => walk d directoriesOnly q segments
    else []
  | .directories :: [] =>
    if d.isDirectory p then (descendants d p).filter d.isDirectory else []
  | .directories :: .directories :: segments =>
    walk d directoriesOnly p (.directories :: segments)
  | .directories :: segment :: segments =>
    if d.isDirectory p then
      let named := (descendants d p).filter fun q => q.fileName?.any segment.matchesName
      named.flatMap fun q => walk d directoriesOnly q segments
    else []

def paths (d : Disk) (text : String) : Except Fault (List Path) := do
  let route ← Route.ofText text
  return walk d route.directoriesOnly ⟨"/"⟩ route.segments

end LintLedger.Glob
