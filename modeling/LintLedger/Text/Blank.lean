/-!
# White space

The white space of the Unicode standard: the controls from tab to carriage return, the blank,
the next-line control and seventeen blanks and separators beyond ASCII.
-/

namespace LintLedger.Text

/-- First and last code points of the runs of white space, in ascending order. -/
def blankRuns : List (Nat × Nat) :=
  [(0x9, 0xd), (0x20, 0x20), (0x85, 0x85), (0xa0, 0xa0), (0x1680, 0x1680), (0x2000, 0x200a),
    (0x2028, 0x2029), (0x202f, 0x202f), (0x205f, 0x205f), (0x3000, 0x3000)]

def isBlank (c : Char) : Bool :=
  blankRuns.any fun (first, last) => first ≤ c.toNat && c.toNat ≤ last

end LintLedger.Text
