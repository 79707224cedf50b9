import LintLedger.Fault
import LintLedger.Path.Basic

/-!
# Disks

A disk says what stands at which place: a file with its bytes, or a directory. A place is given
by the names that lead to it from the root, which is always a directory. A path is followed name
by name: every place that it goes on from has to be a directory, a `.` stays there, and a `..`
goes one up in the tree. Paths start at the root. Everything on a disk may be read and written.
-/

namespace LintLedger

abbrev Place := List String

inductive Entry where
  | directory
  | file (bytes : ByteArray)

structure Disk where
  entries : List (Place × Entry)

namespace Disk

def empty : Disk :=
  ⟨[]⟩

def get? (d : Disk) (place : Place) : Option Entry :=
  if place = [] then some .directory
  else (d.entries.find? fun p => p.1 = place).map (·.2)

def set (d : Disk) (place : Place) (e : Entry) : Disk :=
  ⟨(place, e) :: d.entries.filter fun p => p.1 ≠ place⟩

theorem get?_set_self (d : Disk) {place : Place} (e : Entry) (h : place ≠ []) :
    (d.set place e).get? place = some e := by
  simp [get?, set, h]

theorem get?_set_of_ne (d : Disk) {place other : Place} (e : Entry) (h : other ≠ place) :
    (d.set place e).get? other = d.get? other := by
  have hkept : (fun p : Place × Entry => !decide (p.1 = place) && decide (p.1 = other)) =
      fun p => decide (p.1 = other) := by
    grind
  simp [get?, set, Ne.symm h, List.find?_filter, hkept]

/-! ## Names -/

/-- The longest name, in bytes. -/
def nameLimit : Nat := 255

def isName (s : String) : Bool :=
  s ≠ "" && s ≠ "." && s ≠ ".." && '/' ∉ s.toList && '\x00' ∉ s.toList
    && s.utf8ByteSize ≤ nameLimit

/-- No two entries stand at one place, each has a name, and each stands in a directory. -/
def WellFormed (d : Disk) : Prop :=
  (d.entries.map (·.1)).Nodup ∧
    ∀ p ∈ d.entries, p.1 ≠ [] ∧ p.1.all isName ∧ d.get? p.1.dropLast matches some .directory

/-! ## Following paths -/

def follow (d : Disk) (place : Place) : List String → Except Fault Place
  | [] => .ok place
  | piece :: pieces =>
    match d.get? place with
    | none => .error .notFound
    | some (.file _) => .error .notDirectory
    | some .directory =>
      if piece = "." then d.follow place pieces
      else if piece = ".." then d.follow place.dropLast pieces
      else if nameLimit < piece.utf8ByteSize then .error .nameTooLong
      else d.follow (place ++ [piece]) pieces

/-- The names of a path. A slash at the end asks for a directory, as a `.` does. -/
def pieces (p : Path) : List String :=
  let names := ((p.text.toList.splitOn '/').filter (· ≠ [])).map String.ofList
  if p.text.toList.getLast? = some '/' then names ++ ["."] else names

/-- The place that a path leads to. Something need not stand there, but in the place above. -/
def placeOf (d : Disk) (p : Path) : Except Fault Place :=
  if p.text = "" then .error .notFound
  else if '\x00' ∈ p.text.toList then .error .zeroInName
  else d.follow [] (pieces p)

def lookup (d : Disk) (p : Path) : Except Fault Entry := do
  let place ← d.placeOf p
  match d.get? place with
  | some e => return e
  | none => throw .notFound

def exists? (d : Disk) (p : Path) : Bool :=
  (d.lookup p).isOk

def isFile (d : Disk) (p : Path) : Bool :=
  match d.lookup p with
  | .ok (.file _) => true
  | _ => false

def isDirectory (d : Disk) (p : Path) : Bool :=
  match d.lookup p with
  | .ok .directory => true
  | _ => false

/-! ## Reading and writing -/

def readText (d : Disk) (p : Path) : Except Fault String := do
  match ← d.lookup p with
  | .directory => throw .isDirectory
  | .file bytes =>
    match String.fromUTF8? bytes with
    | some text => return text
    | none => throw .notText

/-- Makes a text the whole content of the file that a path leads to, which is created if it is
not there. -/
def writeText (d : Disk) (p : Path) (text : String) : Except Fault Disk := do
  let place ← d.placeOf p
  match d.get? place with
  | some .directory => throw .isDirectory
  | _ => return d.set place (.file text.toUTF8)

/-- The order of places: name by name, names in the order of their characters. -/
def placeOrder (p q : Place × Entry) : Bool :=
  !decide (q.1 < p.1)

/-- Everything below a place, by the names that lead there from it. A directory comes before
what is in it, and what is in it before what follows the directory. -/
def below (d : Disk) (place : Place) : List (Place × Entry) :=
  ((d.entries.filter fun p => place.isPrefixOf p.1 && p.1 ≠ place).mergeSort placeOrder).map
    fun p => (p.1.drop place.length, p.2)

end Disk

end LintLedger
