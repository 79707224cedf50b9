import LintLedger.Text.Blank
import LintLedger.Text.Case
import LintLedger.Text.Digit
import LintLedger.Text.Word

/-!
# Character sets

What one character of a pattern can stand for. Sets are kept as they were written, so that equal
sets are recognised without listing their members.
-/

namespace LintLedger.Pattern

inductive CharSet where
  | none
  | range (first last : Char)
  | digit
  | blank
  | word
  | compl (s : CharSet)
  | union (s t : CharSet)
  | inter (s t : CharSet)
  /-- All case variants of the members. -/
  | anyCase (s : CharSet)
  deriving DecidableEq, Repr

namespace CharSet

def mem (c : Char) : CharSet → Bool
  | .none => false
  | .range first last => first ≤ c && c ≤ last
  | .digit => Text.isDigit c
  | .blank => Text.isBlank c
  | .word => Text.isWord c
  | .compl s => !s.mem c
  | .union s t => s.mem c || t.mem c
  | .inter s t => s.mem c && t.mem c
  | .anyCase s => (Text.caseVariants c).any fun d => s.mem d

def single (c : Char) : CharSet :=
  .range c c

@[simp]
theorem mem_single (c d : Char) : (single c).mem d = (c == d) := by
  have hbounds : (c ≤ d ∧ d ≤ c) ↔ c = d :=
    ⟨fun h => Char.le_antisymm h.1 h.2, fun h => h ▸ ⟨Char.le_refl c, Char.le_refl c⟩⟩
  simp only [single, mem, ← Bool.decide_and, hbounds]
  rfl

def all : CharSet :=
  .compl .none

def withinLine : CharSet :=
  .compl (single '\n')

def unions (sets : List CharSet) : CharSet :=
  sets.foldr .union .none

end CharSet

end LintLedger.Pattern
