import LintLedger.Path.Basic

/-!
# Relative display

How a path is shown to someone who stands at a root: by the components below the root if it
leads there, and as it was written otherwise.
-/

namespace LintLedger.Path

/-- The steps from a base to a target, both given by their components. `taken` holds the steps
so far; while there are none, equal components cancel. A base that climbs where the target does
not cannot be undone. -/
def steps? (taken : List Component) : List Component → List Component → Option (List Component)
  | [], [] => some taken
  | a :: target, [] => some (taken ++ a :: target)
  | [], _ :: base => steps? (taken ++ [.up]) [] base
  | a :: target, b :: base =>
    if taken.isEmpty && a == b then steps? taken target base
    else match b with
      | .up => none
      | _ => some (taken ++ .up :: base.map (fun _ => .up) ++ a :: target)

def withoutHere : List Component → List Component
  | .here :: cs => cs
  | cs => cs

def relative? (p base : Path) : Option Path :=
  if p.isAbsolute ≠ base.isAbsolute then
    if p.isAbsolute then some p else none
  else (steps? [] (withoutHere p.components) (withoutHere base.components)).map ofComponents

/-- The text that stands for `p` at a root: relative if `p` leads below the root. -/
def shownFrom (root p : Path) : String :=
  match p.relative? root with
  | some q => if q.text ≠ "" ∧ q.components.head? ≠ some .up then q.text else p.text
  | none => p.text

end LintLedger.Path
