import LintLedger.Proofs.Region.Reread
import LintLedger.Proofs.Update.Order
import LintLedger.Proofs.Update.Twice

/-!
# What the flag of a pass says of the text

A pass compares lines, but what it would write is a text. The two comparisons agree exactly if the
new lines are what the text of them is cut into: a generated line that goes on behind a line feed
is another list of lines with the same text. So a listing can be reported as out of step although
its file would stay as it is, and this happens only where a description or a module with a line
feed stands in it already.
-/

namespace LintLedger

namespace Region

open Text

/-- Some region is generated anew exactly if some line opens one. -/
theorem closed_pos_iff {r : Region} {generate : Nat → List String} {lines out : List String}
    (h : (r.regenerate generate lines).result = .ok out) :
    0 < (r.regenerate generate lines).closed ↔ ∃ line ∈ lines, r.opens line := by
  obtain ⟨f, hf, hunclosed, -, -⟩ := exists_filling h
  have hlines : f.closed.flatMap Closed.lines ++ f.rest = lines := by
    rw [← hf.lines_eq, Layout.lines, hunclosed, List.append_nil, Layout.complete]
  rw [regenerate_layout r generate hf, Layout.outcome, ← hlines]
  constructor
  · intro hpos
    obtain ⟨c, hc⟩ := List.exists_mem_of_length_pos hpos
    refine ⟨c.opening, ?_, (hf.closed c hc).opening⟩
    exact List.mem_append_left _ (List.mem_flatMap.2 ⟨c, hc, by simp [Closed.lines]⟩)
  · rintro ⟨line, hline, hopens⟩
    by_contra hnone
    have hnil : f.closed = [] := List.length_eq_zero_iff.1 (by simpa using hnone)
    rw [hnil, List.flatMap_nil, List.nil_append] at hline
    exact hf.rest line hline hopens

end Region

/-! ## Files -/

namespace Revision

open Region Text

variable {d : Disk} {path : Path} {r : Region} {generate : Nat → List String} {write : Bool}
  {saved : Saved} {text : String} {out : List String}

theorem exists_of_replace (h : replace d path r generate write = .ok saved) :
    ∃ text out, d.readText path = .ok text ∧
      (r.regenerate generate (splitLines text)).result = .ok out ∧
      saved.changed = decide (out ≠ splitLines text) := by
  unfold replace plan at h
  cases htext : d.readText path with
  | error fault => simp [htext, bind, Except.bind] at h
  | ok text =>
      simp only [htext, bind, Except.bind] at h
      cases hresult : (r.regenerate generate (splitLines text)).result with
      | error line => simp [save, newLines, hresult, bind, Except.bind] at h
      | ok out =>
          refine ⟨text, out, rfl, hresult, ?_⟩
          exact changed_of_save (by simp only [newLines, hresult]) h

/-- Lines that differ from those of a text have another text, unless they are not the lines of
their own text. -/
theorem lines_tell_text_iff :
    (out ≠ splitLines text ↔ String.join out ≠ text) ↔ (String.join out = text → WellSplit out) := by
  by_cases hsame : String.join out = text
  · rw [← hsame, ← splitLines_join_iff, ne_comm]
    simp
  · have hlines : out ≠ splitLines text := by
      rintro rfl
      exact hsame (join_splitLines text)
    simp [hsame, hlines]

/-- The flag tells a text that changes from one that stays exactly if no generated line goes on
behind a line feed, or the text changes anyway. -/
theorem changed_of_replace_iff (h : replace d path r generate write = .ok saved) :
    ∃ text out, d.readText path = .ok text ∧
      (r.regenerate generate (splitLines text)).result = .ok out ∧
      ((saved.changed = true ↔ String.join out ≠ text) ↔
        (String.join out = text →
          ∀ k < (r.regenerate generate (splitLines text)).closed, ∀ line ∈ generate k,
            Terminated line)) := by
  obtain ⟨text, out, htext, hresult, hchanged⟩ := exists_of_replace h
  refine ⟨text, out, htext, hresult, ?_⟩
  rw [hchanged, decide_eq_true_iff, ← wellSplit_regenerate_iff hresult]
  exact lines_tell_text_iff

end Revision

/-! ## Passes -/

namespace Update

open Listing Region Text

namespace Pass

variable {p : Pass} {d : Disk} {changed : Bool}

def Alters (p : Pass) (d : Disk) : Prop :=
  ∃ text text', d.readText p.path = .ok text ∧ p.Rewrites text text' ∧ text' ≠ text

def Applies (p : Pass) (d : Disk) : Prop :=
  ∃ region text, p.region = .ok region ∧ d.readText p.path = .ok text ∧
    ∃ line ∈ splitLines text, region.opens line

/-- The flag of a pass is about the text of its file, unless that stays as it is around a
generated line that goes on behind a line feed. -/
theorem changed_iff_alters (h : p.verdict d = .ok changed) :
    (changed = true ↔ p.Alters d) ↔
      (¬ p.Alters d → p.Applies d → ∀ line ∈ p.lines, Terminated line) := by
  obtain ⟨saved, hrun, hsaved⟩ := exists_run_of_verdict h false
  obtain ⟨region, text, out, hregion, htext, hrenewal, hchanged, -⟩ := exists_of_run hrun
  have halters : p.Alters d ↔ String.join out ≠ text := by
    constructor
    · rintro ⟨_, text', htext', hrewrites, hne⟩
      cases (htext.symm.trans htext')
      rwa [hrewrites.unique ⟨region, out, hregion, hrenewal, rfl⟩] at hne
    · intro hne
      exact ⟨text, _, htext, ⟨region, out, hregion, hrenewal, rfl⟩, hne⟩
  have happlies : p.Applies d ↔ ∃ line ∈ splitLines text, region.opens line := by
    constructor
    · rintro ⟨_, _, hregion', htext', hopens⟩
      cases (hregion.symm.trans hregion')
      cases (htext.symm.trans htext')
      exact hopens
    · intro hopens
      exact ⟨region, text, hregion, htext, hopens⟩
  have hresult := renewal_iff.1 hrenewal
  have hsplit : WellSplit out ↔ (p.Applies d → ∀ line ∈ p.lines, Terminated line) := by
    rw [wellSplit_regenerate_iff hresult, happlies, ← closed_pos_iff hresult]
    constructor
    · intro hall hpos
      exact hall 0 hpos
    · intro hall k hk
      exact hall (Nat.zero_lt_of_lt hk)
  rw [← hsaved, hchanged, decide_eq_true_iff, halters, ← hsplit, not_not]
  exact Revision.lines_tell_text_iff

end Pass

/-! ## Updates and checks -/

/-- What an update or a check says of a text. The flag of a file whose regions are generated anew
tells whether its text changes, exactly if the text does change or every line that was generated
for a region is a single line. So a listing that is reported as out of step has another text,
unless its file stays as it is and a description in the table or a module in the group holds a
line feed. The flag of the sentence always speaks about the text. -/
theorem flags_tell_texts_iff (d : Disk) (write : Bool) :
    (∀ (path : Path) (r : Region) (generate : Nat → List String) (saved : Revision.Saved),
      Revision.replace d path r generate write = .ok saved →
      ∃ text out, d.readText path = .ok text ∧
        (r.regenerate generate (splitLines text)).result = .ok out ∧
        ((saved.changed = true ↔ String.join out ≠ text) ↔
          (String.join out = text →
            ∀ k < (r.regenerate generate (splitLines text)).closed, ∀ line ∈ generate k,
              Terminated line))) ∧
    ∀ (s : Settings) (lints : List Lint),
      (∀ lint ∈ lints, Lint.IsName lint.name) → (run d s lints write).failure = none →
      let behindTable := (tablePass s lints).after d write
      let behindCount := (countPass s lints).after behindTable write
      ∃ table count group, (run d s lints write).updates = reports s write table count group ∧
        ((table = true ↔ (tablePass s lints).Alters d) ↔
          (¬ (tablePass s lints).Alters d → (tablePass s lints).Applies d →
            ∀ lint ∈ lints, '\n' ∉ lint.description.toList)) ∧
        (count = true ↔ (countPass s lints).Alters behindTable) ∧
        ((group = true ↔ (groupPass s lints).Alters behindCount) ↔
          (¬ (groupPass s lints).Alters behindCount → (groupPass s lints).Applies behindCount →
            ∀ lint ∈ lints, '\n' ∉ lint.module.toList)) := by
  refine ⟨fun _ _ _ _ h => Revision.changed_of_replace_iff h, ?_⟩
  intro s lints hnames hfailure behindTable behindCount
  obtain ⟨table, count, group, hfinds⟩ := exists_finds hfailure
  refine ⟨table, count, group, hfinds.updates, ?_, ?_, ?_⟩
  · rw [← table_terminated_iff hnames]
    exact Pass.changed_iff_alters hfinds.table
  · rw [Pass.changed_iff_alters hfinds.count]
    intro _ _ line hline
    rw [List.mem_singleton.1 hline]
    exact countSentence_terminated lints.length
  · rw [← group_terminated_iff hnames]
    exact Pass.changed_iff_alters hfinds.group

theorem flags_tell_texts_iff_stale :
    let lints : List Lint := [⟨"lib", "a_b", .warn, "about"⟩]
    (run staleDisk staleSettings lints true).updates.map (·.wrote) = [true, true, true] ∧
      (tablePass staleSettings lints).Alters staleDisk ∧
      (countPass staleSettings lints).Alters
        ((tablePass staleSettings lints).after staleDisk true) := by
  intro lints
  have hlints : ∀ lint ∈ lints, Lint.IsName lint.name ∧ '\n' ∉ lint.description.toList := by
    simp only [lints, List.mem_singleton, forall_eq]
    exact ⟨by decide, by decide⟩
  have hrun : (run staleDisk staleSettings lints true).failure = none ∧
      (run staleDisk staleSettings lints true).updates.map (·.wrote) = [true, true, true] := by
    decide +kernel
  obtain ⟨table, count, group, hupdates, htable, hcount, -⟩ :=
    (flags_tell_texts_iff staleDisk true).2 staleSettings lints
      (fun lint hlint => (hlints lint hlint).1) hrun.1
  have hflags : table = true ∧ count = true ∧ group = true := by
    have hwrote := hrun.2
    rw [hupdates] at hwrote
    simpa [reports] using hwrote
  exact ⟨hrun.2, (htable.2 fun _ _ lint hlint => (hlints lint hlint).2).1 hflags.1,
    hcount.1 hflags.2.1⟩

/-- A checkout whose table holds a description that goes on in a second line. -/
def splitDisk : Disk :=
  ⟨[(["p"], .directory), (["p", "README.md"],
    .file "name | default | meaning\n--|---------|----\na | warn    | x\ny\n\n".toUTF8)]⟩

theorem flag_can_differ_from_text :
    ¬ ∀ (d : Disk) (path : Path) (r : Region) (generate : Nat → List String) (write : Bool)
      (saved : Revision.Saved) (text : String) (out : List String),
      (∀ k, ∀ line ∈ generate k, line.toList.getLast? = some '\n') →
      Revision.replace d path r generate write = .ok saved → d.readText path = .ok text →
      (r.regenerate generate (splitLines text)).result = .ok out →
      (saved.changed = true ↔ String.join out ≠ text) := by
  intro hall
  let text := "name | default | meaning\n--|---------|----\na | warn    | x\ny\n\n"
  let lines := table [⟨"lib", "a", .warn, "x\ny"⟩]
  have hends : ∀ line ∈ lines, line.toList.getLast? = some '\n' := by
    decide +kernel
  have htext : splitDisk.readText ⟨"/p/README.md"⟩ = .ok text := by
    decide +kernel
  have hresult : (tableBounds.regenerate (fun _ => lines) (splitLines text)).result =
      .ok (lines ++ ["\n"]) := by
    decide +kernel
  have hsame : String.join (lines ++ ["\n"]) = text := by
    decide +kernel
  have hrun : (Revision.replace splitDisk ⟨"/p/README.md"⟩ tableBounds (fun _ => lines)
      false).map Revision.Saved.changed = .ok true := by
    decide +kernel
  cases hsaved : Revision.replace splitDisk ⟨"/p/README.md"⟩ tableBounds (fun _ => lines) false with
  | error failure =>
      rw [hsaved] at hrun
      cases hrun
  | ok saved =>
      rw [hsaved] at hrun
      have hiff := hall splitDisk ⟨"/p/README.md"⟩ tableBounds (fun _ => lines) false saved text
        (lines ++ ["\n"]) (fun _ => hends) hsaved htext hresult
      exact hiff.1 (Except.ok.inj hrun) hsame

end Update

end LintLedger
