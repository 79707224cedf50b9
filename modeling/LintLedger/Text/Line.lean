/-!
# Lines

A line keeps its line end, so the lines of a text joined again are the text. What a pattern is
shown of a line is its content, without the line end.
-/

namespace LintLedger.Text

/-- Cuts after every line feed. Each piece but the last ends in one; no piece is empty. -/
def chunks : List Char → List (List Char)
  | [] => []
  | c :: cs =>
    if c = '\n' then [c] :: chunks cs
    else match chunks cs with
      | [] => [[c]]
      | piece :: pieces => (c :: piece) :: pieces

theorem flatten_chunks (cs : List Char) : (chunks cs).flatten = cs := by
  induction cs with
  | nil => rfl
  | cons c cs ih =>
    unfold chunks
    split
    · simp [ih]
    · split
      · next h => rw [h] at ih; simp [← ih]
      · next h => rw [h] at ih; simp [← ih]

def splitLines (text : String) : List String :=
  (chunks text.toList).map String.ofList

theorem join_splitLines (text : String) : String.join (splitLines text) = text := by
  apply String.toList_injective
  simp [splitLines, String.toList_join, List.flatMap_map, flatten_chunks]

def dropFinal (c : Char) (cs : List Char) : List Char :=
  if cs.getLast? = some c then cs.dropLast else cs

/-- The line without its line end: one line feed, then one carriage return. -/
def content (line : String) : List Char :=
  dropFinal '\r' (dropFinal '\n' line.toList)

end LintLedger.Text
