/-!
# Terminal styles

The control sequences that set off a word on a terminal. A style ends where its text ends.
-/

namespace LintLedger.Terminal

inductive Color where
  | red
  | green

def control (code : String) : String :=
  "\x1b[" ++ code ++ "m"

def bold (text : String) : String :=
  control "1" ++ text ++ control "0"

def colored (color : Color) (text : String) : String :=
  let code := match color with
    | .red => "31"
    | .green => "32"
  control code ++ text ++ control "39"

/-- The word in front of an error, in bold red where colors are wanted. -/
def errorPrefix (colors : Bool) : String :=
  if colors then bold (colored .red "error:") else "error:"

end LintLedger.Terminal
