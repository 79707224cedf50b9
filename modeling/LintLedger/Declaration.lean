import LintLedger.Lint
import LintLedger.Pattern.Basic
import LintLedger.Pattern.Quote

/-!
# Declarations

How lints are found in the text of a source file. A declaration is a macro call with a public
name in capitals, a level and a description; nothing else is looked at. The description is
written as a string literal that may go on over several lines.
-/

namespace LintLedger.Declaration

/-- The pattern text for declarations made with a macro of this name. White space in the pattern
means nothing, so none of the name is asked for either. -/
def patternText (macroName : String) : String :=
  "(?xs)" ++ String.ofList (Pattern.quote macroName.toList)
    ++ "! \\s* [\x7b(] \\s* pub \\s+ (?P<name>[A-Z_]+) \\s*,\\s* "
    ++ "(?P<level>Forbid|Deny|Warn|Allow) \\s*,\\s* "
    ++ "\" (?P<desc>(?:[^\"\\\\]+|\\\\.)*) \" \\s* [\x7d)]"

def pattern (macroName : String) : Except Pattern.Invalid Pattern :=
  Pattern.compile (patternText macroName)

/-- Takes out the continuations: a backslash at the end of a line, the line end, and the white
space after it. `skipping` says that such white space may still follow. -/
def joinLines (skipping : Bool) : List Char → List Char
  | '\\' :: '\n' :: cs => joinLines true cs
  | '\\' :: '\r' :: '\n' :: cs => joinLines true cs
  | c :: cs =>
    if skipping && Text.isBlank c then joinLines true cs else c :: joinLines false cs
  | [] => []

/-- Takes the backslash away from every quote that has one. -/
def bareQuotes : List Char → List Char
  | '\\' :: '"' :: cs => '"' :: bareQuotes cs
  | c :: cs => c :: bareQuotes cs
  | [] => []

/-- The description that the text between the quotes stands for. -/
def description (body : List Char) : String :=
  String.ofList (bareQuotes (joinLines false body))

def lint? (module : String) (f : Pattern.Found) : Option Lint := do
  let level ← (Level.read (String.ofList (f.group "level"))).toOption
  let name := String.ofList ((f.group "name").map Char.toLower)
  return ⟨module, name, level, description (f.group "desc")⟩

def extract (p : Pattern) (module text : String) : List Lint :=
  (p.matchesOf text.toList).filterMap (lint? module)

end LintLedger.Declaration
