/-!
# Quoting

A text turned into a pattern for itself: a backslash goes before every character that means
something in a pattern. White space is left alone.
-/

namespace LintLedger.Pattern

/-- The characters that mean something in some place of a pattern. -/
def metaChars : List Char :=
  ['\\', '.', '+', '*', '?', '(', ')', '|', '[', ']', '\x7b', '\x7d', '^', '$', '#', '&', '-',
    '~']

def quoteChar (c : Char) : List Char :=
  if c ∈ metaChars then ['\\', c] else [c]

def quote (text : List Char) : List Char :=
  text.flatMap quoteChar

end LintLedger.Pattern
