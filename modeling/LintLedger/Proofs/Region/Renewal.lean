import Mathlib.Data.List.Forall2
import LintLedger.Proofs.Region.Reread

/-!
# Regions that all get the same lines

When every region is filled with the same lines, what becomes of a list of lines is a relation:
a line that opens nothing stays, and a closed region keeps its delimiters and gets the generated
lines. Lines are in step with the generated ones if this leaves them alone. The result of one
pass is in step as soon as the generated lines do not upset the delimiters themselves.
-/

namespace LintLedger.Region

variable {r : Region} {generated : List String} {lines out : List String}

/-- What becomes of lines whose regions are all filled with the same generated lines. -/
inductive Renewal (r : Region) (generated : List String) : List String → List String → Prop
  | nil : Renewal r generated [] []
  | skip {line : String} {lines out : List String} :
      ¬ r.opens line → Renewal r generated lines out →
      Renewal r generated (line :: lines) (line :: out)
  | region {opening closing : String} {body lines out : List String} :
      r.opens opening → (∀ line ∈ body, ¬ r.closes line) → r.closes closing →
      Renewal r generated lines out →
      Renewal r generated (opening :: body ++ closing :: lines)
        (r.kept opening ++ generated ++ closing :: out)

/-! ## The run of the regions -/

private theorem regenerateFrom_of_renewal (h : Renewal r generated lines out)
    (number closed : Nat) :
    (r.regenerateFrom (fun _ => generated) number closed none lines).result = .ok out := by
  induction h generalizing number closed with
  | nil => rfl
  | @skip line lines out hline _ ih =>
      have hfront : ∀ l ∈ [line], ¬ r.opens l := by simpa using hline
      have hrun := regenerateFrom_append_of_not_opens r (fun _ => generated) hfront number closed
        lines
      rw [List.singleton_append] at hrun
      rw [hrun, Outcome.after, ih]
      rfl
  | @region opening closing body lines out hopening hbody hclosing _ ih =>
      let c : Closed := ⟨[], opening, body, closing⟩
      have hc : c.Fits r := ⟨by simp [c], hopening, hbody, hclosing⟩
      have hlines : opening :: body ++ closing :: lines = c.lines ++ lines := by
        simp [Closed.lines, c]
      rw [hlines, regenerateFrom_append_closed r _ hc, Outcome.after, ih]
      simp [Except.map, Closed.filled, c]

private theorem renewal_of_not_opens {front : List String} (h : ∀ line ∈ front, ¬ r.opens line)
    (hrest : Renewal r generated lines out) :
    Renewal r generated (front ++ lines) (front ++ out) := by
  induction front with
  | nil => exact hrest
  | cons line front ih =>
      have hfront := ih fun other hmem => h other (List.mem_cons_of_mem line hmem)
      exact .skip (h line List.mem_cons_self) hfront

private theorem renewal_of_closed {cs : List Closed} (h : ∀ c ∈ cs, c.Fits r)
    (hrest : Renewal r generated lines out) :
    Renewal r generated (cs.flatMap Closed.lines ++ lines)
      (cs.flatMap (Closed.filled r generated) ++ out) := by
  induction cs with
  | nil => exact hrest
  | cons c cs ih =>
      have hc := h c List.mem_cons_self
      have hcs := ih fun d hmem => h d (List.mem_cons_of_mem c hmem)
      have hregion := Renewal.region hc.opening hc.body hc.closing hcs
      have hwhole := renewal_of_not_opens hc.before hregion
      simpa [Closed.lines, Closed.filled, List.append_assoc] using hwhole

theorem renewal_iff :
    Renewal r generated lines out ↔
      (r.regenerate (fun _ => generated) lines).result = .ok out := by
  constructor
  · intro h
    exact regenerateFrom_of_renewal h 1 0
  · intro h
    obtain ⟨f, hf, hunclosed, hout⟩ := exists_layout r _ h
    have hlines : lines = f.closed.flatMap Closed.lines ++ f.rest := by
      rw [← hf.lines_eq]
      simp [Layout.lines, Layout.complete, hunclosed]
    have hrest : Renewal r generated f.rest f.rest := by
      simpa using renewal_of_not_opens hf.rest Renewal.nil
    rw [hlines, ← hout, Layout.filled_same]
    exact renewal_of_closed hf.closed hrest

namespace Renewal

theorem unique {other : List String} (h : Renewal r generated lines out)
    (h' : Renewal r generated lines other) : out = other :=
  Except.ok.inj ((renewal_iff.1 h).symm.trans (renewal_iff.1 h'))

/-! ## What the result holds -/

theorem eq_of_not_opens (h : Renewal r generated lines out)
    (hnone : ∀ line ∈ lines, ¬ r.opens line) : out = lines := by
  induction h with
  | nil => rfl
  | skip _ _ ih => rw [ih fun line hmem => hnone line (List.mem_cons_of_mem _ hmem)]
  | region hopening _ _ _ _ => exact (hnone _ (by simp) hopening).elim

/-- Where some line opens a region, all generated lines stand in the result. -/
theorem mem_of_opens (h : Renewal r generated lines out) {line : String} (hline : line ∈ lines)
    (hopens : r.opens line) : ∀ g ∈ generated, g ∈ out := by
  induction h with
  | nil => simp at hline
  | skip hnot _ ih =>
      rcases List.mem_cons.1 hline with rfl | hline
      · exact (hnot hopens).elim
      · exact fun g hg => List.mem_cons_of_mem _ (ih hline g hg)
  | region _ _ _ _ _ =>
      intro g hg
      simp [hg]

/-- Every region adds the closing lines among the generated ones, and takes none away. -/
theorem countP_closes (h : Renewal r generated lines out) (hkeeps : r.replacesOpening = false) :
    ∃ n, out.countP r.closes = lines.countP r.closes + n * generated.countP r.closes ∧
      ((∃ line ∈ lines, r.opens line) → 0 < n) := by
  induction h with
  | nil => exact ⟨0, by simp⟩
  | @skip line lines out hnot _ ih =>
      obtain ⟨n, hcount, hpos⟩ := ih
      refine ⟨n, ?_, ?_⟩
      · rw [List.countP_cons, List.countP_cons, hcount]
        omega
      · rintro ⟨other, hmem, hopens⟩
        rcases List.mem_cons.1 hmem with rfl | hmem
        · exact (hnot hopens).elim
        · exact hpos ⟨other, hmem, hopens⟩
  | @region opening closing body lines out hopening hbody hclosing _ ih =>
      obtain ⟨n, hcount, -⟩ := ih
      have hnone : body.countP r.closes = 0 := List.countP_eq_zero.2 hbody
      refine ⟨n + 1, ?_, fun _ => Nat.succ_pos n⟩
      simp only [kept, hkeeps, Bool.false_eq_true, if_false, List.cons_append, List.countP_append,
        List.countP_cons, List.countP_nil, hnone, hcount, Nat.succ_mul]
      omega

theorem wellSplit (h : Renewal r generated lines out)
    (hgenerated : ∀ line ∈ generated, Text.Terminated line) (hlines : Text.WellSplit lines) :
    Text.WellSplit out := by
  have hresult := renewal_iff.1 h
  rw [← Text.splitLines_join hlines] at hresult
  exact (wellSplit_regenerate_iff hresult).2 fun _ _ => hgenerated

/-- Up to the generated lines of the first region, the result is as it was. -/
theorem exists_first (h : Renewal r generated lines out) (hopens : ∃ line ∈ lines, r.opens line) :
    ∃ before opening rest rest', lines = before ++ opening :: rest ∧ rest ≠ [] ∧
      r.opens opening ∧ out = before ++ (r.kept opening ++ generated ++ rest') := by
  induction h with
  | nil => simp at hopens
  | @skip line lines out hnot _ ih =>
      obtain ⟨other, hmem, hother⟩ := hopens
      rcases List.mem_cons.1 hmem with rfl | hmem
      · exact (hnot hother).elim
      · obtain ⟨before, opening, rest, rest', rfl, hrest, hopening, rfl⟩ := ih ⟨other, hmem, hother⟩
        exact ⟨line :: before, opening, rest, rest', rfl, hrest, hopening, rfl⟩
  | @region opening closing body lines out hopening _ _ _ _ =>
      exact ⟨[], opening, body ++ closing :: lines, closing :: out, rfl, by simp, hopening, rfl⟩

/-- A region stays open to the next reading if the first line that it gets opens it. -/
theorem exists_opens (h : Renewal r generated lines out) (hlines : Text.WellSplit lines)
    (hopens : ∃ line ∈ lines, r.opens line)
    (hfirst : ∀ line, r.opens line → Text.Terminated line → ∃ opening body,
      r.kept line ++ generated = opening :: body ∧ r.opens opening ∧ Text.Terminated opening) :
    ∃ line ∈ Text.splitLines (String.join out), r.opens line := by
  obtain ⟨before, line, rest, rest', rfl, hrest, hline, rfl⟩ := h.exists_first hopens
  rw [List.append_cons] at hlines
  obtain ⟨hfront, -⟩ := hlines.of_append hrest
  obtain ⟨opening, body, hkept, hopening, hterminated⟩ :=
    hfirst line hline (hfront line (by simp))
  have hterminated' : ∀ other ∈ before ++ [opening], Text.Terminated other := by
    intro other hmem
    rcases List.mem_append.1 hmem with hmem | hmem
    · exact hfront other (List.mem_append_left _ hmem)
    · rw [List.mem_singleton.1 hmem]
      exact hterminated
  have hout : before ++ (r.kept line ++ generated ++ rest') =
      (before ++ [opening]) ++ (body ++ rest') := by
    rw [hkept]
    simp
  rw [hout, String.join_append, Text.splitLines_join_append hterminated']
  exact ⟨opening, by simp, hopening⟩

end Renewal

/-! ## Lines in step -/

/-- Lines whose regions hold the generated lines already. -/
inductive InStep (r : Region) (generated : List String) : List String → Prop
  | nil : InStep r generated []
  | skip {line : String} {lines : List String} :
      ¬ r.opens line → InStep r generated lines → InStep r generated (line :: lines)
  | region {opening closing : String} {body lines : List String} :
      r.opens opening → r.kept opening ++ generated = opening :: body →
      (∀ line ∈ body, ¬ r.closes line) → r.closes closing → InStep r generated lines →
      InStep r generated (opening :: body ++ closing :: lines)

/-- Whether generated lines stay within a region: none of them closes it, and where they take
the place of the opening line, the first of them opens it again. -/
def Accepts (r : Region) (generated : List String) : Prop :=
  if r.replacesOpening then
    ∃ opening body, generated = opening :: body ∧ r.opens opening ∧ ∀ line ∈ body, ¬ r.closes line
  else ∀ line ∈ generated, ¬ r.closes line

/-- What follows what is in front of a region, now and when it is generated again. -/
theorem Accepts.exists_opening (h : r.Accepts generated) {line : String} (hline : r.opens line) :
    ∃ opening body, r.kept line ++ generated = opening :: body ∧
      r.kept opening ++ generated = opening :: body ∧ r.opens opening ∧
      ∀ other ∈ body, ¬ r.closes other := by
  unfold Accepts at h
  split at h
  · next hreplaces =>
      obtain ⟨opening, body, rfl, hopening, hbody⟩ := h
      exact ⟨opening, body, by simp [kept, hreplaces], by simp [kept, hreplaces], hopening, hbody⟩
  · next hkeeps =>
      exact ⟨line, generated, by simp [kept, hkeeps], by simp [kept, hkeeps], hline, h⟩

theorem InStep.renewal (h : InStep r generated lines) : Renewal r generated lines lines := by
  induction h with
  | nil => exact .nil
  | skip hline _ ih => exact .skip hline ih
  | region hopening hbody hcloses hclosing _ ih =>
      have hregion := Renewal.region hopening hcloses hclosing ih
      rwa [hbody] at hregion

theorem Renewal.inStep (h : Renewal r generated lines out) (haccepts : r.Accepts generated) :
    InStep r generated out := by
  induction h with
  | nil => exact .nil
  | skip hline _ ih => exact .skip hline ih
  | region hopening _ hclosing _ ih =>
      obtain ⟨opening, body, hfirst, hagain, hopens, hcloses⟩ := haccepts.exists_opening hopening
      rw [hfirst]
      exact .region hopens hagain hcloses hclosing ih

theorem inStep_of_not_opens (h : ∀ line ∈ lines, ¬ r.opens line) : InStep r generated lines := by
  induction lines with
  | nil => exact .nil
  | cons line lines ih =>
      have hlines := ih fun other hmem => h other (List.mem_cons_of_mem line hmem)
      exact .skip (h line List.mem_cons_self) hlines

/-! ## Changes elsewhere -/

/-- A change to a line that no region holds and that is no delimiter, before or after. -/
def Unnoticed (r : Region) (generated : List String) (line line' : String) : Prop :=
  line' = line ∨ (line ∉ generated ∧ ¬ r.opens line ∧ ¬ r.closes line ∧ ¬ r.opens line' ∧
    ¬ r.closes line')

private theorem forall₂_append_fixed {change : String → String → Prop} {front back : List String}
    (hfixed : ∀ line ∈ front, ∀ line', change line line' → line' = line)
    (h : List.Forall₂ change (front ++ back) out) :
    ∃ out', out = front ++ out' ∧ List.Forall₂ change back out' := by
  induction front generalizing out with
  | nil => exact ⟨out, rfl, h⟩
  | cons line front ih =>
      rw [List.cons_append, List.forall₂_cons_left_iff] at h
      obtain ⟨line', out', hline, hrest, rfl⟩ := h
      obtain ⟨back', rfl, hback⟩ := ih
        (fun other hmem => hfixed other (List.mem_cons_of_mem line hmem)) hrest
      rw [hfixed line List.mem_cons_self line' hline]
      exact ⟨back', rfl, hback⟩

theorem InStep.congr (h : InStep r generated lines)
    (hchange : List.Forall₂ (Unnoticed r generated) lines out) : InStep r generated out := by
  induction h generalizing out with
  | nil =>
      cases hchange
      exact .nil
  | skip hline _ ih =>
      obtain ⟨line', out', hfirst, hrest, rfl⟩ := List.forall₂_cons_left_iff.1 hchange
      refine .skip ?_ (ih hrest)
      rcases hfirst with rfl | ⟨-, -, -, hnot, -⟩
      · exact hline
      · exact hnot
  | @region opening closing body lines hopening hbody hcloses hclosing _ ih =>
      -- Neither the delimiters nor the generated lines between them can have changed.
      have hfixed : ∀ line ∈ opening :: body ++ [closing], ∀ line',
          Unnoticed r generated line line' → line' = line := by
        rintro line hline line' (heq | ⟨hnot, hopens, hclose, -, -⟩)
        · exact heq
        · rcases List.mem_append.1 hline with hmem | hmem
          · rcases List.mem_cons.1 hmem with rfl | hmem'
            · exact (hopens hopening).elim
            · have hall : line ∈ r.kept opening ++ generated := by
                rw [hbody]
                exact hmem
              rcases List.mem_append.1 hall with hkept | hgenerated
              · rw [eq_of_mem_kept hkept] at hopens
                exact (hopens hopening).elim
              · exact (hnot hgenerated).elim
          · rw [List.mem_singleton.1 hmem] at hclose
            exact (hclose hclosing).elim
      rw [List.append_cons] at hchange
      obtain ⟨out', rfl, hrest⟩ := forall₂_append_fixed hfixed hchange
      have hregion := InStep.region hopening hbody hcloses hclosing (ih hrest)
      rwa [List.append_cons] at hregion

end LintLedger.Region
