/-!
# Paths

A path is the text it was written as. Its components are what the text says about places: the
root, the place itself, the place above, and names. Repeated slashes, a slash at the end and all
but a leading `.` say nothing, so two texts can have the same components.
-/

namespace LintLedger

structure Path where
  text : String
  deriving DecidableEq, Repr

namespace Path

inductive Component where
  | root
  | here
  | up
  | name (text : String)
  deriving DecidableEq, Repr

namespace Component

def text : Component → String
  | .root => "/"
  | .here => "."
  | .up => ".."
  | .name text => text

/-- The component that a piece between slashes stands for. Only a leading `.` counts. -/
def ofPiece? (leading : Bool) (piece : List Char) : Option Component :=
  match piece with
  | [] => none
  | ['.'] => if leading then some .here else none
  | ['.', '.'] => some .up
  | piece => some (.name (String.ofList piece))

end Component

def isAbsolute (p : Path) : Bool :=
  p.text.toList.head? == some '/'

def components (p : Path) : List Component :=
  match p.text.toList.splitOn '/' with
  | [] => []
  | piece :: pieces =>
    (if p.isAbsolute then some .root else Component.ofPiece? true piece).toList
      ++ pieces.filterMap (Component.ofPiece? false)

/-- The second path seen from the first: an absolute one replaces it, any other is written
after it, with one slash between them. -/
def join (p q : Path) : Path :=
  if q.isAbsolute then q
  else if p.text.toList.getLast?.all (· == '/') then ⟨p.text ++ q.text⟩
  else ⟨p.text ++ "/" ++ q.text⟩

theorem join_of_isAbsolute (p : Path) {q : Path} (h : q.isAbsolute) : p.join q = q := by
  simp [join, h]

def ofComponents (cs : List Component) : Path :=
  cs.foldl (fun p c => p.join ⟨c.text⟩) ⟨""⟩

/-- The nonempty beginnings of a list of components, the longest first: a place and the places
above it. -/
def lineage (cs : List Component) : List (List Component) :=
  (List.range cs.length).reverse.map fun k => cs.take (k + 1)

def fileName? (p : Path) : Option String :=
  match p.components.getLast? with
  | some (.name text) => some text
  | _ => none

/-- A file name up to its last dot; a dot in front does not count. -/
def stem (name : String) : String :=
  match name.toList.reverse.dropWhile (· ≠ '.') with
  | [] => name
  | [_] => name
  | _ :: before => String.ofList before.reverse

def fileStem (p : Path) : String :=
  (p.fileName?.map stem).getD ""

end Path

end LintLedger
