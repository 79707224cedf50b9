/-!
# Alignment

Widths count characters and have no bound. A text that is as wide as asked for, or wider, stays as
it is.
-/

namespace LintLedger.Text

def blanks (n : Nat) : String :=
  String.ofList (List.replicate n ' ')

@[simp]
theorem length_blanks (n : Nat) : (blanks n).length = n := by
  simp [blanks]

def lacking (width : Nat) (s : String) : Nat :=
  width - s.length

def alignLeft (width : Nat) (s : String) : String :=
  s ++ blanks (lacking width s)

def alignRight (width : Nat) (s : String) : String :=
  blanks (lacking width s) ++ s

/-- Blanks on both sides; an odd one goes to the right. -/
def alignCenter (width : Nat) (s : String) : String :=
  let n := lacking width s
  blanks (n / 2) ++ s ++ blanks (n - n / 2)

theorem length_alignLeft (width : Nat) (s : String) :
    (alignLeft width s).length = max width s.length := by
  simp only [alignLeft, lacking, String.length_append, length_blanks]
  omega

theorem length_alignRight (width : Nat) (s : String) :
    (alignRight width s).length = max width s.length := by
  simp only [alignRight, lacking, String.length_append, length_blanks]
  omega

theorem length_alignCenter (width : Nat) (s : String) :
    (alignCenter width s).length = max width s.length := by
  simp only [alignCenter, lacking, String.length_append, length_blanks]
  omega

def truncate (n : Nat) (s : String) : String :=
  String.ofList (s.toList.take n)

theorem length_truncate (n : Nat) (s : String) : (truncate n s).length = min n s.length := by
  rw [truncate, String.length_ofList, List.length_take, String.length_toList]

/-! ## Formats -/

inductive Alignment where
  | left
  | center
  | right
  deriving DecidableEq, Repr

structure Format where
  alignment : Alignment
  width : Nat
  /-- How many characters are shown at most. -/
  precision : Option Nat
  deriving DecidableEq, Repr

def align : Alignment → Nat → String → String
  | .left => alignLeft
  | .center => alignCenter
  | .right => alignRight

/-- Shows a text: it is cut first and aligned then. -/
def pad (f : Format) (s : String) : String :=
  align f.alignment f.width (match f.precision with
    | none => s
    | some n => truncate n s)

theorem length_align (a : Alignment) (width : Nat) (s : String) :
    (align a width s).length = max width s.length := by
  cases a with
  | left => exact length_alignLeft width s
  | center => exact length_alignCenter width s
  | right => exact length_alignRight width s

/-- A text is shown as wide as asked for, or as wide as what is left of it. -/
theorem length_pad (f : Format) (s : String) :
    (pad f s).length = max f.width (min (f.precision.getD s.length) s.length) := by
  rw [pad, length_align]
  cases f.precision with
  | none => simp
  | some n => rw [length_truncate, Option.getD_some]

/-! ## Widths of several texts -/

/-- The largest width among some texts, zero if there are none. -/
def widest (texts : List String) : Nat :=
  (texts.map String.length).foldr max 0

theorem length_le_widest {s : String} {texts : List String} (h : s ∈ texts) :
    s.length ≤ widest texts := by
  induction texts with
  | nil => simp at h
  | cons t ts ih =>
    simp only [widest, List.map_cons, List.foldr_cons] at ih ⊢
    rcases List.mem_cons.1 h with rfl | h
    · omega
    · have := ih h
      omega

end LintLedger.Text
