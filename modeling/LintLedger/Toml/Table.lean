/-!
# Tables of TOML

What the statements of a document build up. A table can be opened by a header, spelled out by
dotted keys, or merely be on the way to another one; each of these restricts what may be added to
it later. Of the values only texts are told apart.
-/

namespace LintLedger.Toml

inductive Value where
  | text (s : String)
  | other
  deriving DecidableEq, Repr

inductive Origin where
  | header
  | dottedKey
  | passing
  deriving DecidableEq, Repr

inductive Item where
  | value (v : Value)
  | table (origin : Origin) (entries : List (String × Item))
  /-- Tables that share a name, each with its own entries. -/
  | tables (all : List (List (String × Item)))

abbrev Entries := List (String × Item)

namespace Entries

def put (t : Entries) (key : String) (item : Item) : Entries :=
  if t.any (·.1 == key) then t.map fun e => if e.1 == key then (key, item) else e
  else t ++ [(key, item)]

/-- Gives a value to a dotted key. Only tables made by dotted keys take more of them, and no key
gets a second value. -/
def assign (v : Value) : List String → Entries → Option Entries
  | [], _ => none
  | [key], t => if (t.lookup key).isSome then none else some (t.put key (.value v))
  | key :: next :: keys, t =>
    match t.lookup key with
    | none => do return t.put key (.table .dottedKey (← assign v (next :: keys) []))
    | some (.table .dottedKey sub) => do
      return t.put key (.table .dottedKey (← assign v (next :: keys) sub))
    | some (.table .passing sub) =>
      if keys.isEmpty then none
      else do return t.put key (.table .passing (← assign v (next :: keys) sub))
    | some (.tables all) =>
      match keys.isEmpty, all.getLast? with
      | false, some last => do
        return t.put key (.tables (all.dropLast ++ [← assign v (next :: keys) last]))
      | _, _ => none
    | some (.table .header _) => none
    | some (.value _) => none

/-- Changes the table at the end of a path; of tables that share a name it goes on in the last.
Tables that are missing on the way are made. -/
def changeAt (f : Entries → Option Entries) : List String → Entries → Option Entries
  | [], t => f t
  | key :: keys, t =>
    match t.lookup key with
    | none => do return t.put key (.table .passing (← changeAt f keys []))
    | some (.table origin sub) => do return t.put key (.table origin (← changeAt f keys sub))
    | some (.tables all) => do
      let last ← all.getLast?
      return t.put key (.tables (all.dropLast ++ [← changeAt f keys last]))
    | some (.value _) => none

/-- Opens a table. It must be new, or so far only have been on the way to another. -/
def openTable (key : String) (t : Entries) : Option Entries :=
  match t.lookup key with
  | none => some (t.put key (.table .header []))
  | some (.table .passing sub) => some (t.put key (.table .header sub))
  | some _ => none

def openShared (key : String) (t : Entries) : Option Entries :=
  match t.lookup key with
  | none => some (t.put key (.tables [[]]))
  | some (.tables all) => some (t.put key (.tables (all ++ [[]])))
  | some _ => none

end Entries

end LintLedger.Toml
