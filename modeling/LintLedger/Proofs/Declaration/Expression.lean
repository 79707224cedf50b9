import Mathlib
import LintLedger.Declaration
import LintLedger.Proofs.Declaration.Grammar
import LintLedger.Proofs.Pattern.Quoted

/-!
# The expression for declarations

What the pattern text for declarations is read as. The white space of the pattern text means
nothing, so none of the macro name is left in the expression.
-/

namespace LintLedger.Declaration

open Pattern Expr

/-! ## The parts of the expression -/

def gapExpr : Expr :=
  .star true (.char .blank)

/-- What the pattern asks for between the macro name and the name. -/
def frontItems : List Expr :=
  [literal '!', gapExpr, .char (.union (.union .none (.single '\x7b')) (.single '(')), gapExpr,
    literal 'p', literal 'u', literal 'b', plus true (.char .blank)]

def nameExpr : Expr :=
  chain [plus true (.char (.union (.union .none (.range 'A' 'Z')) (.single '_')))]

def commaItems : List Expr :=
  [gapExpr, literal ',', gapExpr]

def levelExpr : Expr :=
  oneOf [ofText (keyword .forbid), ofText (keyword .deny), ofText (keyword .warn),
    ofText (keyword .allow)]

/-- A stretch of plain characters or an escaped character. -/
def pieceExpr : Expr :=
  .alt (chain [plus true (.char (.compl (.union (.union .none (.single '"')) (.single '\\'))))])
    (chain [literal '\\', .char .all])

def bodyExpr : Expr :=
  chain [.star true pieceExpr]

def backItems : List Expr :=
  [literal '"', gapExpr, .char (.union (.union .none (.single '\x7d')) (.single ')'))]

/-- What the pattern asks for behind the macro name. -/
def tailItems : List Expr :=
  frontItems ++ (named "name" nameExpr :: commaItems ++ (named "level" levelExpr ::
    (commaItems ++ [literal '"']) ++ (named "desc" bodyExpr :: backItems)))

def expression (macroName : String) : Expr :=
  chain ((nameChars macroName).map literal ++ tailItems)

/-! ## Reading the pattern text -/

/-- White space means nothing and a dot stands for any character. -/
def verboseFlags : Flags :=
  { Flags.none with dotAll := true, verbose := true }

/-- What follows the macro name in the pattern text. -/
def tailText : List Char :=
  ['!', ' ', '\\', 's', '*', ' ', '[', '\x7b', '(', ']', ' ', '\\', 's', '*', ' ', 'p', 'u', 'b',
    ' ', '\\', 's', '+', ' ', '(', '?', 'P', '<', 'n', 'a', 'm', 'e', '>', '[', 'A', '-', 'Z', '_',
    ']', '+', ')', ' ', '\\', 's', '*', ',', '\\', 's', '*', ' ', '(', '?', 'P', '<', 'l', 'e',
    'v', 'e', 'l', '>', 'F', 'o', 'r', 'b', 'i', 'd', '|', 'D', 'e', 'n', 'y', '|', 'W', 'a', 'r',
    'n', '|', 'A', 'l', 'l', 'o', 'w', ')', ' ', '\\', 's', '*', ',', '\\', 's', '*', ' ', '"',
    ' ', '(', '?', 'P', '<', 'd', 'e', 's', 'c', '>', '(', '?', ':', '[', '^', '"', '\\', '\\',
    ']', '+', '|', '\\', '\\', '.', ')', '*', ')', ' ', '"', ' ', '\\', 's', '*', ' ', '[', '\x7d',
    ')', ']']

set_option maxRecDepth 4000 in
private theorem readOn_tailText (items : List Expr) (repeatable : Bool) :
    State.readOn ⟨verboseFlags, [], items, repeatable, [], []⟩ 0 tailText =
      .ok ⟨verboseFlags, [], tailItems.reverse ++ items, true, [], ["desc", "level", "name"]⟩ := by
  cbv

private theorem patternText_toList (macroName : String) :
    (patternText macroName).toList =
      '(' :: '?' :: 'x' :: 's' :: ')' :: (quote macroName.toList ++ tailText) := by
  have hparts : patternText macroName = "(?xs)" ++ String.ofList (quote macroName.toList)
    ++ "! \\s* [\x7b(] \\s* pub \\s+ (?P<name>[A-Z_]+) \\s*,\\s* "
    ++ "(?P<level>Forbid|Deny|Warn|Allow) \\s*,\\s* "
    ++ "\" (?P<desc>(?:[^\"\\\\]+|\\\\.)*) \" \\s* [\x7d)]" := rfl
  have hfront : "(?xs)".toList = ['(', '?', 'x', 's', ')'] := rfl
  have hname : (String.ofList (quote macroName.toList)).toList = quote macroName.toList :=
    String.toList_ofList
  have htail : "! \\s* [\x7b(] \\s* pub \\s+ (?P<name>[A-Z_]+) \\s*,\\s* ".toList
      ++ ("(?P<level>Forbid|Deny|Warn|Allow) \\s*,\\s* ".toList
      ++ "\" (?P<desc>(?:[^\"\\\\]+|\\\\.)*) \" \\s* [\x7d)]".toList) = tailText := by
    decide +kernel
  rw [hparts, String.toList_append, String.toList_append, String.toList_append,
    String.toList_append, hname, hfront, List.append_assoc, List.append_assoc, htail,
    List.append_assoc]
  rfl

/-- Behind the directive at its start, the pattern text is read with other flags. -/
private theorem readOn_directive (rest : List Char) :
    State.start.readOn 0 ('(' :: '?' :: 'x' :: 's' :: ')' :: rest) =
      State.readOn { State.start with flags := verboseFlags } 0 rest := by
  simp [State.readOn, State.step, State.start, Flags.none, verboseFlags, readOpening, Flags.read,
    Flags.set?, bind, Except.bind, pure, Except.pure]

private theorem parse_patternText (macroName : String) :
    Expr.parse (patternText macroName).toList = .ok (expression macroName) := by
  let verbose : State := { State.start with flags := verboseFlags }
  let named := verbose.pushText (nameChars macroName)
  have hread : State.start.readOn 0 (patternText macroName).toList =
      named.readOn 0 tailText := by
    rw [patternText_toList, readOn_directive, readOn_quote]
    rfl
  have hnamed : named = ⟨verboseFlags, [], ((nameChars macroName).map literal).reverse,
      named.repeatable, [], []⟩ := by
    have hitems : named.items = ((nameChars macroName).map literal).reverse ++ [] :=
      State.pushText_items rfl _
    have hrest := State.pushText_eq verbose (nameChars macroName)
    rw [List.append_nil] at hitems
    rw [← hitems]
    exact hrest
  rw [Expr.parse, hread, hnamed, readOn_tailText]
  simp [bind, Except.bind, pure, Except.pure, State.result, Expr.oneOf, expression]

/-- There is a pattern for every macro name. -/
theorem pattern_eq (macroName : String) :
    pattern macroName = .ok ⟨patternText macroName, expression macroName⟩ := by
  rw [pattern, compile, parse_patternText]

end LintLedger.Declaration
