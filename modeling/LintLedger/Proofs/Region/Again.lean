import LintLedger.Proofs.Region.Filling
import LintLedger.Proofs.Region.Renewal

/-!
# Regions generated again

Generated lines that a region accepts are made out again between the same delimiters. So the
layout of the new lines is the layout of the old ones with the generated lines in the place of
what stood there, and generating the regions a second time gives the same lines.
-/

namespace LintLedger.Region

variable {r : Region} {generated lines out : List String} {c : Closed} {f : Layout}

namespace Closed

def renewed (r : Region) (generated : List String) (c : Closed) : Closed :=
  match c.fill r generated with
  | [] => c
  | opening :: body => ⟨c.before, opening, body, c.closing⟩

theorem lines_renewed (h : c.fill r generated ≠ []) :
    (c.renewed r generated).lines = c.filled r generated := by
  obtain ⟨opening, body, hfill⟩ := List.exists_cons_of_ne_nil h
  simp only [renewed, hfill, filled_eq]
  simp [lines_eq, own]

/-- What an accepted list makes of a region: delimiters around a body, and the same again. -/
theorem exists_renewed (h : r.Accepts generated) (hc : c.Fits r) :
    ∃ opening body, c.fill r generated = opening :: body ∧
      c.renewed r generated = ⟨c.before, opening, body, c.closing⟩ ∧
      (c.renewed r generated).fill r generated = opening :: body ∧ r.opens opening ∧
      ∀ line ∈ body, ¬ r.closes line := by
  obtain ⟨opening, body, hfill, hagain, hopening, hbody⟩ := h.exists_opening hc.opening
  have hrenewed : c.renewed r generated = ⟨c.before, opening, body, c.closing⟩ := by
    simp only [renewed, fill, hfill]
  refine ⟨opening, body, hfill, hrenewed, ?_, hopening, hbody⟩
  rw [hrenewed]
  exact hagain

theorem fits_renewed (h : r.Accepts generated) (hc : c.Fits r) :
    (c.renewed r generated).Fits r := by
  obtain ⟨opening, body, -, hrenewed, -, hopening, hbody⟩ := exists_renewed h hc
  rw [hrenewed]
  exact ⟨hc.before, hopening, hbody, hc.closing⟩

theorem filled_renewed (h : r.Accepts generated) (hc : c.Fits r) :
    (c.renewed r generated).filled r generated = c.filled r generated := by
  obtain ⟨opening, body, hfill, hrenewed, hagain, -⟩ := exists_renewed h hc
  rw [filled_eq, filled_eq, hagain, hfill, hrenewed]

end Closed

namespace Layout

def renewed (r : Region) (generated : List String) (f : Layout) : Layout :=
  { f with closed := f.closed.map (Closed.renewed r generated) }

/-- The new lines have the layout of the old ones, but for what the regions hold. -/
theorem fits_renewed (h : r.Accepts generated) (hf : f.Fits r lines) (hclosed : f.unclosed = none) :
    (f.renewed r generated).Fits r (f.filled r fun _ => generated) where
  lines_eq := by
    have hlines : ∀ c ∈ f.closed, (c.renewed r generated).lines = c.filled r generated := by
      intro c hc
      obtain ⟨opening, body, hfill, -⟩ := Closed.exists_renewed h (hf.closed c hc)
      exact Closed.lines_renewed (by simp [hfill])
    rw [filled_same]
    simp only [Layout.lines, complete, renewed, hclosed, List.append_nil, List.flatMap_map]
    rw [List.flatMap_congr hlines]
  closed := by
    intro d hd
    obtain ⟨c, hc, rfl⟩ := List.mem_map.1 hd
    exact Closed.fits_renewed h (hf.closed c hc)
  rest := hf.rest
  opening := hf.opening
  unclosed := hf.unclosed

theorem filled_renewed (h : r.Accepts generated) (hf : f.Fits r lines) :
    (f.renewed r generated).filled r (fun _ => generated) = f.filled r fun _ => generated := by
  rw [filled_same, filled_same, renewed, List.flatMap_map]
  congr 1
  exact List.flatMap_congr fun c hc => Closed.filled_renewed h (hf.closed c hc)

end Layout

/-- What is generated once is generated again: if every region gets the same lines and accepts
them, the new lines come back as they are, from as many regions, and nothing is written. -/
theorem regenerate_again (haccepts : r.Accepts generated)
    (h : (r.regenerate (fun _ => generated) lines).result = .ok out) :
    let again := r.regenerate (fun _ => generated) out
    again.result = .ok out ∧ again.closed = (r.regenerate (fun _ => generated) lines).closed ∧
      ∀ path d write, Revision.save ⟨path, r, out, again⟩ d write = .ok ⟨d, false, []⟩ := by
  intro again
  obtain ⟨f, hf, hunclosed, hout⟩ := exists_layout r _ h
  have hfirst : r.regenerate (fun _ => generated) lines = f.outcome r fun _ => generated :=
    regenerate_layout r _ hf
  have hagain : again = (f.renewed r generated).outcome r fun _ => generated := by
    simp only [again, ← hout]
    exact regenerate_layout r _ (Layout.fits_renewed haccepts hf hunclosed)
  have hresult : again.result = .ok out := by
    rw [hagain, Layout.outcome, Layout.filled_renewed haccepts hf, hout]
    simp [Layout.renewed, hunclosed]
  refine ⟨hresult, ?_, ?_⟩
  · rw [hagain, hfirst]
    simp [Layout.outcome, Layout.renewed]
  · intro path d write
    simp [Revision.save, Revision.newLines, hresult, bind, Except.bind, pure, Except.pure]

/-- The opening line of the first region closes too, its closing line opens, and so does the
generated line. -/
theorem regenerate_again_crossed :
    let r := Revision.lettered
    let first := r.regenerate (fun _ => ["xB\n"]) ["BE\n", "a\n", "EB\n", "c\n", "B\n", "E"]
    let again := r.regenerate (fun _ => ["xB\n"])
      ["BE\n", "xB\n", "EB\n", "c\n", "B\n", "xB\n", "E"]
    r.Accepts ["xB\n"] ∧ first.closed = 2 ∧ again.closed = 2 ∧
      again.result = .ok ["BE\n", "xB\n", "EB\n", "c\n", "B\n", "xB\n", "E"] := by
  intro r first again
  have haccepts : r.Accepts ["xB\n"] := by
    intro line hline
    rw [List.mem_singleton.1 hline]
    decide +kernel
  have hfirst : first.result = .ok ["BE\n", "xB\n", "EB\n", "c\n", "B\n", "xB\n", "E"] := by
    decide +kernel
  have hclosed : first.closed = 2 := by decide +kernel
  obtain ⟨hresult, hcount, -⟩ := regenerate_again haccepts hfirst
  exact ⟨haccepts, hclosed, hcount.trans hclosed, hresult⟩

end LintLedger.Region
