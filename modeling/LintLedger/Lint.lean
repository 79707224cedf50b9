import LintLedger.Text.Align

/-!
# Lints

What is known of a declared lint: the module it stands in, its name in lower case, the level it
is declared with, and what it is about.
-/

namespace LintLedger

/-- The level a lint has unless it is set otherwise. -/
inductive Level where
  | forbid
  | deny
  | warn
  | allow
  deriving DecidableEq, Repr

namespace Level

def text : Level → String
  | .forbid => "forbid"
  | .deny => "deny"
  | .warn => "warn"
  | .allow => "allow"

def all : List Level :=
  [.forbid, .deny, .warn, .allow]

def lowered (s : String) : String :=
  String.ofList (s.toList.map Char.toLower)

/-- Reads a level, whatever the case of its letters. -/
def read (s : String) : Except String Level :=
  match all.find? fun level => level.text == lowered s with
  | some level => .ok level
  | none => .error ("unknown lint level `" ++ lowered s ++ "`")

theorem read_eq_ok_iff {s : String} {level : Level} :
    read s = .ok level ↔ lowered s = level.text := by
  constructor
  · intro h
    unfold read at h
    split at h
    · next found hfound =>
        have htext := List.find?_some hfound
        rw [beq_iff_eq] at htext
        rw [← htext, Except.ok.inj h]
    · cases h
  · intro h
    unfold read
    rw [h]
    cases level <;> rfl

def display (f : Text.Format) (level : Level) : String :=
  Text.pad f level.text

@[simp]
theorem display_left (width : Nat) (level : Level) :
    level.display ⟨.left, width, none⟩ = Text.alignLeft width level.text := rfl

end Level

structure Lint where
  module : String
  name : String
  level : Level
  description : String
  deriving DecidableEq, Repr

end LintLedger
