import LintLedger.Proofs.Disk.Writing
import LintLedger.Proofs.Region.Renewal
import LintLedger.Update

/-!
# Passes over a disk

A pass that succeeds read its file, generated the regions of its lines anew and, if it was to
write and something changed, left the new lines joined in the file. It is settled on a disk where
that changes nothing. Passes that are all settled leave the disk alone and report no change.
-/

namespace LintLedger.Update

open Region Text

namespace Pass

variable {p : Pass} {d : Disk} {write : Bool} {saved : Revision.Saved}

/-- Whether the regions of the file hold the generated lines already. -/
def Settled (p : Pass) (d : Disk) : Prop :=
  ∃ region text, p.region = .ok region ∧ d.readText p.path = .ok text ∧
    Renewal region p.lines (splitLines text) (splitLines text)

private theorem run_eq {region : Region} {text : String} (hregion : p.region = .ok region)
    (htext : d.readText p.path = .ok text) (write : Bool) :
    p.run d write = Revision.save ⟨p.path, region, splitLines text,
      region.regenerate (fun _ => p.lines) (splitLines text)⟩ d write := by
  simp only [run, hregion, Revision.replace, Revision.plan, htext, bind, Except.bind]

/-- What a pass that succeeds read and generated. -/
theorem exists_of_run (h : p.run d write = .ok saved) :
    ∃ region text out, p.region = .ok region ∧ d.readText p.path = .ok text ∧
      Renewal region p.lines (splitLines text) out ∧
      saved.changed = decide (out ≠ splitLines text) ∧
      if write && saved.changed then d.writeText p.path (String.join out) = .ok saved.disk
      else saved.disk = d := by
  cases hregion : p.region with
  | error invalid => simp [run, hregion] at h
  | ok region =>
      cases htext : d.readText p.path with
      | error fault =>
          simp [run, hregion, Revision.replace, Revision.plan, htext, bind, Except.bind] at h
      | ok text =>
          rw [run_eq hregion htext, Revision.save, Revision.newLines] at h
          cases hresult : (region.regenerate (fun _ => p.lines) (splitLines text)).result with
          | error line => simp [hresult, bind, Except.bind] at h
          | ok out =>
              refine ⟨region, text, out, rfl, rfl, renewal_iff.2 hresult, ?_⟩
              simp only [hresult, bind, Except.bind] at h
              split at h
              · next hwrite =>
                  cases hwritten : d.writeText p.path (String.join out) with
                  | error fault =>
                      simp [hwritten, throw, throwThe, MonadExceptOf.throw] at h
                  | ok d' =>
                      simp only [hwritten, pure, Except.pure, Except.ok.injEq] at h
                      subst h
                      exact ⟨rfl, by rw [if_pos hwrite]⟩
              · next hwrite =>
                  simp only [pure, Except.pure, Except.ok.injEq] at h
                  subst h
                  exact ⟨rfl, by rw [if_neg hwrite]⟩

/-- What a pass that writes leaves in its file, whether or not it had to. -/
theorem written_of_run (h : p.run d true = .ok saved) :
    ∃ region text out, p.region = .ok region ∧ d.readText p.path = .ok text ∧
      Renewal region p.lines (splitLines text) out ∧ d.AgreesBut p.path saved.disk ∧
      saved.disk.readText p.path = .ok (String.join out) := by
  obtain ⟨region, text, out, hregion, htext, hrenewal, hchanged, hdisk⟩ := exists_of_run h
  refine ⟨region, text, out, hregion, htext, hrenewal, ?_⟩
  by_cases hsame : out = splitLines text
  · have hkept : saved.disk = d := by simpa [hchanged, hsame] using hdisk
    have hjoin : String.join out = text := by rw [hsame, join_splitLines]
    rw [hkept, hjoin]
    exact ⟨.refl d p.path, htext⟩
  · have hwrite : d.writeText p.path (String.join out) = .ok saved.disk := by
      simpa [hchanged, hsame] using hdisk
    obtain ⟨d', hd', hagrees, hread⟩ := Disk.writeText_of_readText htext (String.join out)
    obtain rfl : saved.disk = d' := Except.ok.inj (hwrite.symm.trans hd')
    exact ⟨hagrees, hread⟩

theorem disk_of_check (h : p.run d false = .ok saved) : saved.disk = d := by
  obtain ⟨_, _, _, _, _, _, _, hdisk⟩ := exists_of_run h
  simpa using hdisk

theorem run_of_settled (h : p.Settled d) (write : Bool) : p.run d write = .ok ⟨d, false, []⟩ := by
  obtain ⟨region, text, hregion, htext, hrenewal⟩ := h
  rw [run_eq hregion htext, Revision.save, Revision.newLines, renewal_iff.1 hrenewal]
  simp [bind, Except.bind, pure, Except.pure]

theorem settled_of_run (h : p.run d write = .ok saved) (hchanged : saved.changed = false) :
    p.Settled d := by
  obtain ⟨region, text, out, hregion, htext, hrenewal, hdecide, -⟩ := exists_of_run h
  have hsame : out = splitLines text := by simpa [hdecide] using hchanged
  rw [hsame] at hrenewal
  exact ⟨region, text, hregion, htext, hrenewal⟩

end Pass

/-! ## Several passes -/

variable {root : Path} {d : Disk} {p : Pass} {ps : List Pass}

/-- Passes that succeed go on from the disk that the first of them leaves. -/
theorem runPasses_cons_of_run {write : Bool} {saved : Revision.Saved}
    (h : p.run d write = .ok saved) :
    runPasses root write d (p :: ps) =
      let rest := runPasses root write saved.disk ps
      ⟨rest.disk, p.report root saved.changed write :: rest.updates,
        saved.messages ++ p.message saved.changed :: rest.messages, rest.failure⟩ := by
  simp only [runPasses, h]

theorem exists_of_runPasses {write : Bool}
    (h : (runPasses root write d (p :: ps)).failure = none) :
    ∃ saved, p.run d write = .ok saved ∧
      (runPasses root write saved.disk ps).failure = none := by
  cases hrun : p.run d write with
  | error failure => simp [runPasses, hrun] at h
  | ok saved =>
      rw [runPasses_cons_of_run hrun] at h
      exact ⟨saved, rfl, h⟩

def unchanged (root : Path) (ps : List Pass) : List RegionUpdate :=
  ps.map fun p => ⟨Path.shownFrom root p.path, p.name, false, false⟩

theorem runPasses_of_settled (root : Path) (h : ∀ p ∈ ps, p.Settled d) (write : Bool) :
    (runPasses root write d ps).failure = none ∧ (runPasses root write d ps).disk = d ∧
      (runPasses root write d ps).updates = unchanged root ps := by
  induction ps with
  | nil => exact ⟨rfl, rfl, rfl⟩
  | cons p ps ih =>
      have hrun := Pass.run_of_settled (h p List.mem_cons_self) write
      obtain ⟨hfailure, hdisk, hupdates⟩ := ih fun q hq => h q (List.mem_cons_of_mem p hq)
      rw [runPasses_cons_of_run hrun]
      refine ⟨hfailure, hdisk, ?_⟩
      simp only [hupdates, unchanged, List.map_cons, Pass.report, Bool.false_and]

/-- A check leaves the disk alone, even if one of its passes fails. -/
theorem disk_runPasses_check (root : Path) (d : Disk) (ps : List Pass) :
    (runPasses root false d ps).disk = d := by
  induction ps with
  | nil => rfl
  | cons p ps ih =>
      cases hrun : p.run d false with
      | error failure => simp only [runPasses, hrun]
      | ok saved =>
          have hdisk := Pass.disk_of_check hrun
          rw [runPasses_cons_of_run hrun, hdisk]
          exact ih

/-- A check in which no pass fails reports a change unless all passes are settled. -/
theorem runPasses_check (h : (runPasses root false d ps).failure = none) :
    (∀ u ∈ (runPasses root false d ps).updates, u.changed = false) ↔ ∀ p ∈ ps, p.Settled d := by
  induction ps with
  | nil => simp [runPasses]
  | cons p ps ih =>
      obtain ⟨saved, hrun, hrest⟩ := exists_of_runPasses h
      have hdisk := Pass.disk_of_check hrun
      rw [hdisk] at hrest
      have hfirst : saved.changed = false ↔ p.Settled d := by
        constructor
        · exact Pass.settled_of_run hrun
        · intro hsettled
          have hsame := (Pass.run_of_settled hsettled false).symm.trans hrun
          rw [← Except.ok.inj hsame]
      rw [runPasses_cons_of_run hrun, hdisk]
      simp only [List.forall_mem_cons, Pass.report, hfirst, ih hrest]

end LintLedger.Update
