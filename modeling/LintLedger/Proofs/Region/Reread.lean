import LintLedger.Proofs.Region.Filling
import LintLedger.Proofs.Text.Lines

/-!
# Lines that are written and read again

A text is cut into lines in one way only, and what becomes of these lines is written as a text
again. The next reading finds the lines that were written exactly if every generated line is a
single line: no line that is kept can run into the next one, since the last line of the text, which
alone may lack its line end, has nothing generated behind it.
-/

namespace LintLedger.Region

open Text

/-- Lines whose regions are filled anew are the lines of a text exactly if every generated line is
a single line. -/
theorem wellSplit_filled_iff {r : Region} {cs : Filling} {rest : List String}
    (h : WellSplit (Filling.lines cs ++ rest)) :
    WellSplit (Filling.filled r cs ++ rest) ↔ ∀ x ∈ cs, ∀ line ∈ x.2, Terminated line := by
  induction cs with
  | nil => simpa [Filling.filled, Filling.lines] using h
  | cons x cs ih =>
      rw [Filling.lines_cons, ← List.append_assoc, wellSplit_append_cons_iff] at h
      obtain ⟨hfront, hback⟩ := h
      have hbefore : ∀ line ∈ x.1.before, Terminated line :=
        fun line hline => hfront line (List.mem_append_left _ hline)
      have hkept : ∀ line ∈ r.kept x.1.opening, Terminated line := by
        intro line hline
        rw [eq_of_mem_kept hline]
        exact hfront _ (List.mem_append_right _ List.mem_cons_self)
      have hclosing : WellSplit (x.1.closing :: (Filling.filled r cs ++ rest)) ↔
          WellSplit (Filling.filled r cs ++ rest) := by
        generalize htail : Filling.lines cs ++ rest = tail at hback
        cases hback with
        | cons hline _ => exact ⟨WellSplit.tail, WellSplit.cons hline⟩
        | last hne hnot =>
            -- The closing line is the last one of the text.
            obtain ⟨hlines, rfl⟩ := List.append_eq_nil_iff.1 htail
            cases cs with
            | nil => exact ⟨fun _ => .nil, fun _ => .last hne hnot⟩
            | cons y ys => simp [Filling.lines, Closed.lines] at hlines
      rw [Filling.filled_cons, ← List.append_assoc, wellSplit_append_cons_iff, hclosing,
        ih hback.tail, List.forall_mem_cons, Closed.fill]
      simp only [List.forall_mem_append]
      constructor
      · rintro ⟨⟨-, -, hgenerated⟩, hrest⟩
        exact ⟨hgenerated, hrest⟩
      · rintro ⟨hgenerated, hrest⟩
        exact ⟨⟨hbefore, hkept, hgenerated⟩, hrest⟩

theorem wellSplit_regenerate_iff {r : Region} {generate : Nat → List String} {text : String}
    {out : List String} (h : (r.regenerate generate (splitLines text)).result = .ok out) :
    WellSplit out ↔
      ∀ k < (r.regenerate generate (splitLines text)).closed, ∀ line ∈ generate k,
        Terminated line := by
  obtain ⟨f, hf, -, hlines, hout⟩ := exists_filling h
  have hsplit := wellSplit_splitLines text
  rw [hlines] at hsplit
  have hclosed : (r.regenerate generate (splitLines text)).closed = f.closed.length := by
    rw [regenerate_layout r generate hf, Layout.outcome]
  rw [hout, wellSplit_filled_iff hsplit, hclosed]
  constructor
  · intro hall k hk
    exact hall (f.closed[k], generate k)
      (Layout.mem_filling.2 ⟨k, List.getElem?_eq_getElem hk, rfl⟩)
  · intro hall x hx
    obtain ⟨k, hk, hgenerated⟩ := Layout.mem_filling.1 hx
    rw [hgenerated]
    exact hall k (List.getElem?_eq_some_iff.1 hk).1

/-- A text has one list of lines: none is empty, joined they are the text, and a line feed stands
nowhere but at the end of a line, which only the last one may lack. Where the regions of these
lines are generated anew, the new lines are those of the new text exactly if every line that was
generated has one line feed, at its end. -/
theorem splitLines_regenerate (text : String) :
    (∀ lines, lines = splitLines text ↔
      String.join lines = text ∧ (∀ line ∈ lines, line ≠ "") ∧
        (∀ line ∈ lines, '\n' ∉ line.toList.dropLast) ∧
        ∀ line ∈ lines.dropLast, line.toList.getLast? = some '\n') ∧
      ∀ (r : Region) (generate : Nat → List String) (out : List String),
        (r.regenerate generate (splitLines text)).result = .ok out →
        (splitLines (String.join out) = out ↔
          ∀ k < (r.regenerate generate (splitLines text)).closed, ∀ line ∈ generate k,
            Terminated line) := by
  constructor
  · intro lines
    rw [eq_splitLines_iff, wellSplit_iff]
  · intro r generate out h
    rw [splitLines_join_iff, wellSplit_regenerate_iff h]

/-- Here the second region is closed by a last line without a line end. -/
theorem splitLines_regenerate_unended :
    let text := "a\r\nB\nx\nE\nB\nE"
    let generate : Nat → List String := fun k => if k = 0 then ["y\n", "\n"] else []
    let out := ["a\r\n", "B\n", "y\n", "\n", "E\n", "B\n", "E"]
    (∀ lines, lines = ["a\r\n", "B\n", "x\n", "E\n", "B\n", "E"] ↔
      String.join lines = text ∧ (∀ line ∈ lines, line ≠ "") ∧
        (∀ line ∈ lines, '\n' ∉ line.toList.dropLast) ∧
        ∀ line ∈ lines.dropLast, line.toList.getLast? = some '\n') ∧
      (Revision.lettered.regenerate generate (splitLines text)).result = .ok out ∧
      splitLines (String.join out) = out := by
  intro text generate out
  obtain ⟨honly, hagain⟩ := splitLines_regenerate text
  have hlines : splitLines text = ["a\r\n", "B\n", "x\n", "E\n", "B\n", "E"] := by
    decide +kernel
  have hresult : (Revision.lettered.regenerate generate (splitLines text)).result = .ok out := by
    decide +kernel
  refine ⟨hlines ▸ honly, hresult, (hagain _ generate out hresult).2 ?_⟩
  intro k _ line hline
  by_cases hk : k = 0
  · simp only [generate, hk, if_true, List.mem_cons, List.not_mem_nil, or_false] at hline
    rcases hline with rfl | rfl
    · exact ⟨['y'], by decide, by decide⟩
    · exact ⟨[], by decide, by decide⟩
  · simp [generate, hk] at hline

end LintLedger.Region
