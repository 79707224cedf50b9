import LintLedger.Proofs.Update.Order

/-!
# Completed passes

A pass makes up all lines of its file before it writes any. So a pass is either carried out in
full, or it fails and leaves the disk alone, however many regions of its file are closed before
the one that is not. What passes leave when one of them fails is what those before it have made of
their files.
-/

namespace LintLedger.Update

open Region Text

variable {p : Pass} {d d' : Disk}

/-! ## One pass -/

/-- Whether a pass is carried out in full: its file holds what it makes of the text in there, and
everything else stays as it is. -/
def Pass.Completes (p : Pass) (d d' : Disk) : Prop :=
  ∃ place text text', d.placeOf p.path = .ok place ∧ d.readText p.path = .ok text ∧
    p.Rewrites text text' ∧ d.Overwritten place text'.toUTF8 d'

/-- Why a pass cannot be carried out: there is no region to look for, or the file cannot be read,
or its last region is never closed. -/
inductive Pass.Fails (p : Pass) (d : Disk) : Failure → Prop
  | invalid {invalid : Pattern.Invalid} : p.region = .error invalid → p.Fails d (.pattern invalid)
  | unread {region : Region} {fault : Fault} : p.region = .ok region →
      d.readText p.path = .error fault → p.Fails d (.read p.path fault)
  | unclosed {region : Region} {text : String} {f : Layout} : p.region = .ok region →
      d.readText p.path = .ok text → f.Fits region (splitLines text) → f.unclosed ≠ none →
      p.Fails d (.unclosed p.path (f.complete.length + 1) region.closing.text)

namespace Pass

theorem completes_of_run {saved : Revision.Saved} (h : p.run d true = .ok saved) :
    p.Completes d saved.disk := by
  obtain ⟨region, text, out, hregion, htext, hrenewal, hchanged, hdisk⟩ := exists_of_run h
  have hrewrites : p.Rewrites text (String.join out) := ⟨region, out, hregion, hrenewal, rfl⟩
  by_cases hsame : out = splitLines text
  · obtain ⟨place, hplace, hover⟩ := Disk.overwritten_of_readText htext
    have hkept : saved.disk = d := by simpa [hchanged, hsame] using hdisk
    have hjoin : String.join out = text := by rw [hsame, join_splitLines]
    rw [hjoin] at hrewrites
    rw [hkept]
    exact ⟨place, text, text, hplace, htext, hrewrites, hover⟩
  · obtain ⟨place, d', hplace, hwritten, hover⟩ :=
      Disk.exists_overwritten htext (String.join out)
    have hwrite : d.writeText p.path (String.join out) = .ok saved.disk := by
      simpa [hchanged, hsame] using hdisk
    rw [Except.ok.inj (hwrite.symm.trans hwritten)]
    exact ⟨place, text, _, hplace, htext, hrewrites, hover⟩

theorem fails_of_run {write : Bool} {failure : Failure} (h : p.run d write = .error failure) :
    p.Fails d failure := by
  have hverdict : p.verdict d = .error failure := by
    rw [← changed_run p d write, h]
    rfl
  unfold verdict at hverdict
  cases hregion : p.region with
  | error invalid =>
      rw [hregion] at hverdict
      obtain rfl := Except.error.inj hverdict
      exact .invalid hregion
  | ok region =>
      cases htext : d.readText p.path with
      | error fault =>
          simp only [hregion, htext] at hverdict
          obtain rfl := Except.error.inj hverdict
          exact .unread hregion htext
      | ok text =>
          obtain ⟨f, hf⟩ := exists_fits region (splitLines text)
          simp only [hregion, htext, regenerate_layout region _ hf, Layout.outcome] at hverdict
          cases hunclosed : f.unclosed with
          | none => simp [hunclosed] at hverdict
          | some pair =>
              simp only [hunclosed] at hverdict
              obtain rfl := Except.error.inj hverdict
              exact .unclosed hregion htext hf (by simp [hunclosed])

end Pass

/-! ## Several passes -/

/-- Passes that are carried out in full, one after the other. -/
inductive Completed : Disk → List Pass → Disk → Prop
  | nil (d : Disk) : Completed d [] d
  | cons {p : Pass} {ps : List Pass} {d d' d'' : Disk} :
      p.Completes d d' → Completed d' ps d'' → Completed d (p :: ps) d''

/-- Completed passes leave every place alone that none of them leads to. -/
theorem Completed.get?_eq {ps : List Pass} (h : Completed d ps d') {place : Place}
    (hplace : ∀ p ∈ ps, d.placeOf p.path ≠ .ok place) : d'.get? place = d.get? place := by
  induction h with
  | nil d => rfl
  | @cons p ps d d₁ d₂ hfirst _ ih =>
      obtain ⟨own, _, _, hown, -, -, hover⟩ := hfirst
      have hne : place ≠ own := by
        rintro rfl
        exact hplace p List.mem_cons_self hown
      have hrest : ∀ q ∈ ps, d₁.placeOf q.path ≠ .ok place := by
        intro q hq
        rw [hover.placeOf_eq]
        exact hplace q (List.mem_cons_of_mem p hq)
      rw [ih hrest, hover.other place hne]

/-- Passes are carried out in full up to the first that fails. -/
theorem exists_completed (root : Path) (d : Disk) (ps : List Pass) :
    ∃ completed, Completed d completed (runPasses root true d ps).disk ∧
      match (runPasses root true d ps).failure with
      | none => completed = ps
      | some failure => ∃ p rest, ps = completed ++ p :: rest ∧
          p.Fails (runPasses root true d ps).disk failure := by
  induction ps generalizing d with
  | nil => exact ⟨[], .nil d, rfl⟩
  | cons p ps ih =>
      cases hrun : p.run d true with
      | error failure =>
          simp only [runPasses, hrun]
          exact ⟨[], .nil d, p, ps, rfl, Pass.fails_of_run hrun⟩
      | ok saved =>
          obtain ⟨completed, hcompleted, hend⟩ := ih saved.disk
          rw [runPasses_cons_of_run hrun]
          refine ⟨p :: completed, .cons (Pass.completes_of_run hrun) hcompleted, ?_⟩
          dsimp only
          cases hfailure : (runPasses root true saved.disk ps).failure with
          | none =>
              rw [hfailure] at hend
              exact congrArg (p :: ·) hend
          | some failure =>
              rw [hfailure] at hend
              obtain ⟨q, rest, rfl, hfails⟩ := hend
              exact ⟨q, rest, rfl, hfails⟩

end LintLedger.Update
