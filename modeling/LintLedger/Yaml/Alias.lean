import LintLedger.Yaml.Node

/-!
# Aliases

An alias stands for the node that was anchored by its name. Every anchor gets the number of names
known so far, and an alias the number that its name has where it stands; of nodes with one number
the last is meant.
-/

namespace LintLedger.Yaml

/-- The anchors of the nodes so far: the number of every name, and for every number what it
stands for, last first. A collection stands for nothing that can be used. -/
structure Anchors where
  numbers : List (String × Nat)
  targets : List (Nat × Option Scalar)

namespace Anchors

def none : Anchors :=
  ⟨[], []⟩

def note (known : Anchors) (anchor : Option String) (target : Option Scalar) : Anchors :=
  match anchor with
  | Option.none => known
  | some name =>
    let n := known.numbers.length
    ⟨(name, n) :: known.numbers.filter (·.1 ≠ name), (n, target) :: known.targets⟩

end Anchors

mutual

/-- Replaces the names of aliases by numbers. A name that is not known yet is refused. -/
def numbered (known : Anchors) : Node String → Option (Node Nat × Anchors)
  | .alias name => do return (.alias (← known.numbers.lookup name), known)
  | .scalar anchor s => some (.scalar anchor s, known.note anchor (some s))
  | .sequence anchor items => do
    let (items, known) ← numberedItems (known.note anchor none) items
    return (.sequence anchor items, known)
  | .mapping anchor fields => do
    let (fields, known) ← numberedFields (known.note anchor none) fields
    return (.mapping anchor fields, known)

def numberedItems (known : Anchors) : List (Node String) → Option (List (Node Nat) × Anchors)
  | [] => some ([], known)
  | item :: items => do
    let (item, known) ← numbered known item
    let (items, known) ← numberedItems known items
    return (item :: items, known)

def numberedFields (known : Anchors) :
    List (Node String × Node String) → Option (List (Node Nat × Node Nat) × Anchors)
  | [] => some ([], known)
  | (key, value) :: fields => do
    let (key, known) ← numbered known key
    let (value, known) ← numbered known value
    let (fields, known) ← numberedFields known fields
    return ((key, value) :: fields, known)

end

/-- The text that a node is or stands for, if it is one. -/
def Node.scalar? (known : Anchors) : Node Nat → Option Scalar
  | .alias n => (known.targets.lookup n).join
  | .scalar _ s => some s
  | .sequence _ _ => none
  | .mapping _ _ => none

end LintLedger.Yaml
