import Mathlib.Data.List.Infix
import LintLedger.Proofs.Region.Layout
import LintLedger.Revision

/-!
# Regions that hold what they get

Lines come back from generating their regions anew exactly if every region already holds what is
generated for it. The lines are compared as a whole, so it has to be shown that the regions cannot
make up for each other: behind a region that gets more lines than it held, the new lines stay
behind the old ones. The closing line of that region comes up between the old lines once more, and
no region can swallow it.
-/

namespace LintLedger

namespace Region

/-- Closed regions, each with the lines that are generated for it. -/
abbrev Filling := List (Closed × List String)

namespace Closed

/-- The opening line of a region and what stands behind it. -/
def own (c : Closed) : List String :=
  c.opening :: c.body

/-- What takes the place of the opening line and what stands behind it. -/
def fill (r : Region) (generated : List String) (c : Closed) : List String :=
  r.kept c.opening ++ generated

theorem lines_eq (c : Closed) : c.lines = c.before ++ (c.own ++ [c.closing]) := by
  simp [lines, own]

theorem filled_eq (r : Region) (generated : List String) (c : Closed) :
    c.filled r generated = c.before ++ (c.fill r generated ++ [c.closing]) := by
  simp [filled, fill]

end Closed

namespace Filling

def lines (cs : Filling) : List String :=
  cs.flatMap fun x => x.1.lines

def filled (r : Region) (cs : Filling) : List String :=
  cs.flatMap fun x => x.1.filled r x.2

theorem lines_cons (x : Closed × List String) (cs : Filling) (rest : List String) :
    lines (x :: cs) ++ rest = x.1.before ++ (x.1.own ++ x.1.closing :: (lines cs ++ rest)) := by
  simp [lines, Closed.lines_eq]

theorem filled_cons (r : Region) (x : Closed × List String) (cs : Filling) (rest : List String) :
    filled r (x :: cs) ++ rest =
      x.1.before ++ (x.1.fill r x.2 ++ x.1.closing :: (filled r cs ++ rest)) := by
  simp [filled, Closed.filled_eq]

end Filling

/-- The closed regions of a layout, region `k` with `generate k`. -/
def Layout.filling (f : Layout) (generate : Nat → List String) : Filling :=
  f.closed.zipIdx.map fun (c, k) => (c, generate k)

theorem Layout.mem_filling {f : Layout} {generate : Nat → List String}
    {x : Closed × List String} :
    x ∈ f.filling generate ↔ ∃ k, f.closed[k]? = some x.1 ∧ x.2 = generate k := by
  rcases x with ⟨c, generated⟩
  rw [filling, List.mem_map]
  constructor
  · rintro ⟨⟨c', k⟩, hmem, heq⟩
    obtain ⟨rfl, rfl⟩ := Prod.mk.inj heq
    exact ⟨k, List.mem_zipIdx_iff_getElem?.1 hmem, rfl⟩
  · rintro ⟨k, hc, rfl⟩
    exact ⟨(c, k), List.mem_zipIdx_iff_getElem?.2 hc, rfl⟩

theorem Layout.filled_eq (f : Layout) (r : Region) (generate : Nat → List String) :
    f.filled r generate = (f.filling generate).filled r ++ f.rest := by
  rw [Layout.filled, Filling.filled, filling, List.flatMap_map]

theorem Layout.complete_eq (f : Layout) (generate : Nat → List String) :
    f.complete = (f.filling generate).lines ++ f.rest := by
  have hclosed : f.closed = f.closed.zipIdx.map Prod.fst := by rw [List.zipIdx_map_fst]
  rw [Layout.complete, Filling.lines, filling, List.flatMap_map, hclosed, List.flatMap_map,
    ← hclosed]

/-- What a successful run makes of lines, by their layout. -/
theorem exists_filling {r : Region} {generate : Nat → List String} {lines out : List String}
    (h : (r.regenerate generate lines).result = .ok out) :
    ∃ f : Layout, f.Fits r lines ∧ f.unclosed = none ∧
      lines = (f.filling generate).lines ++ f.rest ∧
      out = (f.filling generate).filled r ++ f.rest := by
  obtain ⟨f, hf, hunclosed, hout⟩ := exists_layout r generate h
  have hlines : f.complete = lines := by
    rw [← hf.lines_eq, Layout.lines, hunclosed, List.append_nil]
  refine ⟨f, hf, hunclosed, ?_, ?_⟩
  · rw [← hlines, f.complete_eq generate]
  · rw [← hout, f.filled_eq r generate]

/-! ## Lines that lag behind -/

variable {r : Region} {c : Closed} {cs : Filling} {rest : List String}

/-- What starts with an element that has a property does not start within a stretch that has no
such element. -/
theorem suffix_of_suffix_append {p : String → Prop} {a : String} {front back tail : List String}
    (hfront : ∀ x ∈ front, ¬ p x) (ha : p a) (h : a :: back <:+ front ++ tail) :
    a :: back <:+ tail := by
  induction front with
  | nil => exact h
  | cons x front ih =>
      rw [List.cons_append] at h
      rcases List.suffix_cons_iff.1 h with heq | hshorter
      · obtain ⟨rfl, -⟩ := List.cons.inj heq
        exact (hfront a List.mem_cons_self ha).elim
      · exact ih (fun y hy => hfront y (List.mem_cons_of_mem x hy)) hshorter

/-- A line that closes comes up behind the body of a region, or is its closing line. -/
theorem suffix_of_closes {back lines : List String} {line : String} (hc : c.Fits r)
    (hline : r.closes line) (h : line :: back <:+ c.body ++ c.closing :: lines) :
    back <:+ lines := by
  have hbehind := suffix_of_suffix_append (p := (r.closes · = true)) hc.body hline h
  rcases List.suffix_cons_iff.1 hbehind with heq | hlater
  · obtain ⟨-, rfl⟩ := List.cons.inj heq
    exact List.suffix_refl back
  · exact (List.suffix_cons line back).trans hlater

/-- Where the new lines lag behind the old ones by a closing line, they still do behind the next
region. -/
theorem lags_behind_region {line : String} {generated lines out : List String} (hc : c.Fits r)
    (hline : r.closes line)
    (hfill : r.closes c.opening → ∃ other ∈ c.fill r generated, r.closes other)
    (h : line :: (c.before ++ (c.fill r generated ++ c.closing :: out)) <:+
      c.before ++ (c.own ++ c.closing :: lines)) :
    c.closing :: out <:+ lines := by
  have hown : c.own ++ c.closing :: lines = c.opening :: (c.body ++ c.closing :: lines) := rfl
  rw [hown] at h
  have hout : c.closing :: out <:+ c.before ++ (c.fill r generated ++ c.closing :: out) :=
    ⟨c.before ++ c.fill r generated, List.append_assoc _ _ _⟩
  have hsame : line :: (c.before ++ (c.fill r generated ++ c.closing :: out)) =
      c.opening :: (c.body ++ c.closing :: lines) → c.closing :: out <:+ lines := by
    intro heq
    obtain ⟨hopening, htail⟩ := List.cons.inj heq
    -- The opening line closes as well, so there is a closing line in what the region gets.
    rw [hopening] at hline
    obtain ⟨other, hmem, hother⟩ := hfill hline
    obtain ⟨front, back, hsplit⟩ := List.append_of_mem hmem
    have hinner : other :: (back ++ c.closing :: out) <:+ c.body ++ c.closing :: lines := by
      refine ⟨c.before ++ front, ?_⟩
      rw [← htail, hsplit]
      simp
    exact (List.suffix_append back _).trans (suffix_of_closes hc hother hinner)
  have hopening : c.opening :: (c.body ++ c.closing :: lines) <:+
      c.before ++ c.opening :: (c.body ++ c.closing :: lines) := List.suffix_append _ _
  rcases List.suffix_or_suffix_of_suffix h hopening with hlate | hearly
  · rcases List.suffix_cons_iff.1 hlate with heq | hlater
    · exact hsame heq
    · exact hout.trans (suffix_of_closes hc hline hlater)
  · rcases List.suffix_cons_iff.1 hearly with heq | hearlier
    · exact hsame heq.symm
    · -- The line would come up so early that a line before the region opens one.
      exfalso
      have hfilled := suffix_of_suffix_append (p := (r.opens · = true)) hc.before hc.opening
        hearlier
      have hlength := h.length_le
      have hlength' := hfilled.length_le
      simp only [List.length_cons, List.length_append] at hlength hlength'
      omega

/-- What is asked of the lines that regions get: they take the place of something, and if a region
gets a line that closes it, so does every region whose opening line closes too. -/
structure Filling.Steady (r : Region) (cs : Filling) : Prop where
  fits : ∀ x ∈ cs, x.1.Fits r
  ne_nil : ∀ x ∈ cs, x.1.fill r x.2 ≠ []
  closes : ∀ x ∈ cs, (∃ line ∈ x.1.fill r x.2, r.closes line) →
    ∀ y ∈ cs, r.closes y.1.opening → ∃ line ∈ y.1.fill r y.2, r.closes line

theorem Filling.Steady.tail {x : Closed × List String} (h : Steady r (x :: cs)) :
    Steady r cs where
  fits y hy := h.fits y (List.mem_cons_of_mem x hy)
  ne_nil y hy := h.ne_nil y (List.mem_cons_of_mem x hy)
  closes y hy hclose z hz :=
    h.closes y (List.mem_cons_of_mem x hy) hclose z (List.mem_cons_of_mem x hz)

/-- Lines that lag behind never catch up. -/
theorem not_lags {line : String} (hline : r.closes line) (hfits : ∀ x ∈ cs, x.1.Fits r)
    (hfill : ∀ x ∈ cs, r.closes x.1.opening → ∃ other ∈ x.1.fill r x.2, r.closes other) :
    ¬ line :: (cs.filled r ++ rest) <:+ cs.lines ++ rest := by
  intro h
  induction cs generalizing line with
  | nil =>
      have hlength := h.length_le
      simp only [Filling.filled, Filling.lines, List.flatMap_nil, List.nil_append,
        List.length_cons] at hlength
      omega
  | cons x cs ih =>
      rw [Filling.lines_cons, Filling.filled_cons] at h
      have hx := hfits x List.mem_cons_self
      have hbehind := lags_behind_region hx hline (hfill x List.mem_cons_self) h
      exact ih hx.closing (fun y hy => hfits y (List.mem_cons_of_mem x hy))
        (fun y hy => hfill y (List.mem_cons_of_mem x hy)) hbehind

/-! ## Lines that come back -/

/-- Regions that are filled with other lines than they hold cannot make up for each other. -/
theorem own_eq_fill_of_filled (hcs : cs.Steady r) (h : cs.filled r ++ rest = cs.lines ++ rest) :
    ∀ x ∈ cs, x.1.own = x.1.fill r x.2 := by
  induction cs with
  | nil => simp
  | cons x cs ih =>
      have hx := hcs.fits x List.mem_cons_self
      rw [Filling.lines_cons, Filling.filled_cons, List.append_cancel_left_eq] at h
      have hequal : x.1.own = x.1.fill r x.2 ∧
          Filling.filled r cs ++ rest = Filling.lines cs ++ rest := by
        rcases List.append_eq_append_iff.1 h with ⟨more, hown, hback⟩ | ⟨more, hfill, hback⟩
        · cases more with
          | nil =>
              rw [List.append_nil] at hown
              exact ⟨hown, (List.cons.inj hback).2⟩
          | cons line more =>
              -- The region got less than it held: its closing line would stand in its body.
              exfalso
              obtain ⟨rfl, -⟩ := List.cons.inj hback
              obtain ⟨first, others, hfirst⟩ :=
                List.exists_cons_of_ne_nil (hcs.ne_nil x List.mem_cons_self)
              rw [hfirst, Closed.own, List.cons_append] at hown
              have hbody := (List.cons.inj hown).2
              exact hx.body x.1.closing (by simp [hbody]) hx.closing
        · cases more with
          | nil =>
              rw [List.append_nil] at hfill
              exact ⟨hfill.symm, (List.cons.inj hback).2.symm⟩
          | cons line more =>
              -- The region got more than it held: the lines behind it lag behind.
              exfalso
              obtain ⟨rfl, hlines⟩ := List.cons.inj hback
              have hclose : ∃ line ∈ x.1.fill r x.2, r.closes line :=
                ⟨x.1.closing, by simp [hfill], hx.closing⟩
              have hothers := hcs.closes x List.mem_cons_self hclose
              exact not_lags hx.closing hcs.tail.fits
                (fun y hy => hothers y (List.mem_cons_of_mem _ hy)) ⟨more, hlines.symm⟩
      intro y hy
      rcases List.mem_cons.1 hy with rfl | hy
      · exact hequal.1
      · exact ih hcs.tail hequal.2 y hy

theorem filled_eq_lines (h : ∀ x ∈ cs, x.1.own = x.1.fill r x.2) : cs.filled r = cs.lines := by
  rw [Filling.filled, Filling.lines]
  apply List.flatMap_congr
  intro x hx
  rw [Closed.filled_eq, Closed.lines_eq, h x hx]

/-- Lines come back exactly if every region holds what it gets. -/
theorem filled_eq_lines_iff (hcs : cs.Steady r) :
    cs.filled r ++ rest = cs.lines ++ rest ↔ ∀ x ∈ cs, x.1.own = x.1.fill r x.2 := by
  constructor
  · exact own_eq_fill_of_filled hcs
  · intro h
    rw [filled_eq_lines h]

/-- Where the opening lines are kept, they are what keeps the generated lines in place. -/
theorem steady_of_kept (hkeeps : r.replacesOpening = false) (hfits : ∀ x ∈ cs, x.1.Fits r) :
    cs.Steady r where
  fits := hfits
  ne_nil x _ := by simp [Closed.fill, kept, hkeeps]
  closes _ _ _ y _ hopening := ⟨y.1.opening, by simp [Closed.fill, kept, hkeeps], hopening⟩

theorem steady_of_same {generated : List String} (hreplaces : r.replacesOpening = true)
    (hne : generated ≠ []) (hfits : ∀ x ∈ cs, x.1.Fits r) (hsame : ∀ x ∈ cs, x.2 = generated) :
    cs.Steady r where
  fits := hfits
  ne_nil x hx := by simpa [Closed.fill, kept, hreplaces, hsame x hx] using hne
  closes x hx hclose y hy _ := by
    simp only [Closed.fill, kept, hreplaces, if_true, List.nil_append, hsame x hx, hsame y hy]
      at hclose ⊢
    exact hclose

end Region

/-! ## The flag -/

namespace Revision

open Region

theorem changed_of_save {revision : Revision} {d : Disk} {write : Bool} {saved : Saved}
    {out : List String} (h : revision.newLines = .ok out)
    (hsave : revision.save d write = .ok saved) :
    saved.changed = decide (out ≠ revision.lines) := by
  rw [save, h] at hsave
  simp only [bind, Except.bind] at hsave
  split at hsave
  · cases hwritten : d.writeText revision.path (String.join out) with
    | error fault => simp [hwritten, throw, throwThe, MonadExceptOf.throw] at hsave
    | ok d' =>
        simp only [hwritten, pure, Except.pure, Except.ok.injEq] at hsave
        rw [← hsave]
  · simp only [pure, Except.pure, Except.ok.injEq] at hsave
    rw [← hsave]

/-- Where the generated lines take the place of what stands between the delimiters, a revision is
without change exactly if every region holds the lines generated for it, whatever these are and
however they differ from region to region. Where they take the place of the opening line too and
are the same for all regions, it is so exactly if every region, with its opening line, is these
lines. -/
theorem changed_region_by_region {r : Region} {generate : Nat → List String}
    {lines out : List String} (h : (r.regenerate generate lines).result = .ok out) (path : Path)
    (d : Disk) :
    let revision : Revision := ⟨path, r, lines, r.regenerate generate lines⟩
    ∃ (f : Layout) (changed : Bool), f.Fits r lines ∧ f.unclosed = none ∧
      revision.save d false = .ok ⟨d, changed, []⟩ ∧
      (∀ write saved, revision.save d write = .ok saved → saved.changed = changed) ∧
      (r.replacesOpening = false →
        (changed = false ↔ ∀ k c, f.closed[k]? = some c → c.body = generate k)) ∧
      (r.replacesOpening = true → ∀ generated, generated ≠ [] → (∀ k, generate k = generated) →
        (changed = false ↔ ∀ c ∈ f.closed, c.opening :: c.body = generated)) := by
  intro revision
  obtain ⟨f, hf, hunclosed, hlines, hout⟩ := exists_filling h
  have hfits : ∀ x ∈ f.filling generate, x.1.Fits r := by
    intro x hx
    obtain ⟨k, hk, -⟩ := Layout.mem_filling.1 hx
    exact hf.closed x.1 (List.mem_of_getElem? hk)
  have hsame : decide (out ≠ lines) = false ↔
      (f.filling generate).filled r ++ f.rest = (f.filling generate).lines ++ f.rest := by
    rw [← hlines, ← hout]
    simp
  have hnew : revision.newLines = .ok out := by simp only [newLines, revision, h]
  refine ⟨f, decide (out ≠ lines), hf, hunclosed, ?_, ?_, ?_, ?_⟩
  · simp [save, hnew, revision, bind, Except.bind, pure, Except.pure]
  · intro write saved hsave
    exact changed_of_save hnew hsave
  · intro hkeeps
    rw [hsame, filled_eq_lines_iff (steady_of_kept hkeeps hfits)]
    constructor
    · intro hall k c hc
      have hown := hall (c, generate k) (Layout.mem_filling.2 ⟨k, hc, rfl⟩)
      simpa [Closed.own, Closed.fill, kept, hkeeps] using hown
    · intro hall x hx
      obtain ⟨k, hk, hgenerated⟩ := Layout.mem_filling.1 hx
      simp [Closed.own, Closed.fill, kept, hkeeps, hgenerated, hall k x.1 hk]
  · intro hreplaces generated hne hgenerate
    have hgenerated : ∀ x ∈ f.filling generate, x.2 = generated := by
      intro x hx
      obtain ⟨k, -, hx2⟩ := Layout.mem_filling.1 hx
      rw [hx2, hgenerate k]
    rw [hsame, filled_eq_lines_iff (steady_of_same hreplaces hne hfits hgenerated)]
    constructor
    · intro hall c hc
      obtain ⟨k, hk⟩ := List.getElem?_of_mem hc
      have hown := hall (c, generate k) (Layout.mem_filling.2 ⟨k, hk, rfl⟩)
      simpa [Closed.own, Closed.fill, kept, hreplaces, hgenerate k] using hown
    · intro hall x hx
      obtain ⟨k, hk, -⟩ := Layout.mem_filling.1 hx
      have hregion := hall x.1 (List.mem_of_getElem? hk)
      simpa [Closed.own, Closed.fill, kept, hreplaces, hgenerated x hx] using hregion

/-- Regions from one capital letter to another. -/
def lettered : Region :=
  ⟨⟨"B", .chain [.literal 'B']⟩, ⟨"E", .chain [.literal 'E']⟩, false⟩

/-- Here the first region gets a line more than it held, and the second one a line less. -/
theorem changed_region_by_region_lettered :
    let generate : Nat → List String := fun k => if k = 0 then ["x\n"] else []
    let lines := ["B\n", "E\n", "B\n", "x\n", "E\n"]
    ∃ f : Layout, f.Fits lettered lines ∧
      save ⟨⟨"/p"⟩, lettered, lines, lettered.regenerate generate lines⟩ .empty false =
        .ok ⟨.empty, true, []⟩ ∧
      ¬ ∀ k c, f.closed[k]? = some c → c.body = generate k := by
  intro generate lines
  have hresult : (lettered.regenerate generate lines).result =
      .ok ["B\n", "x\n", "E\n", "B\n", "E\n"] := by
    decide +kernel
  obtain ⟨f, changed, hf, -, hsave, -, hkept, -⟩ :=
    changed_region_by_region hresult ⟨"/p"⟩ Disk.empty
  have hflag : (save ⟨⟨"/p"⟩, lettered, lines, lettered.regenerate generate lines⟩ .empty
      false).map Saved.changed = .ok true := by
    decide +kernel
  obtain rfl : changed = true := by
    rw [hsave] at hflag
    exact Except.ok.inj hflag
  refine ⟨f, hf, hsave, fun hall => ?_⟩
  exact absurd ((hkept rfl).2 hall) (by decide)

end Revision

end LintLedger
