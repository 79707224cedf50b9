import LintLedger.Proofs.Collection.Harvest
import LintLedger.Proofs.Program.Output
import LintLedger.Proofs.Update.Twice

/-!
# A check after an update

When a check that follows an update finds nothing to do. The check makes out the settings and
collects the lints from the disk that the update left, so it depends on what the update wrote:
a listing can only come back as it was written if its lines are read as the same lines again.
-/

namespace LintLedger.Program

/-- Whether the listings of all lints are in step, and nothing keeps a check from saying so. -/
def Start.UpToDate (st : Start) (s : Settings) : Prop :=
  s.hasMarker st.disk ∧ (st.working ∨ Report.isJson s.output = false) ∧
    ∃ lints, st.lints s = .ok lints ∧ ∀ p ∈ Update.passes s lints, p.Settled st.disk

variable {st : Start} {args : List String} {request : CommandLine.Request}

/-! ## Runs that succeed -/

/-- What a run that keeps the listings and exits with status 0 has done. -/
theorem exists_of_run (hread : CommandLine.read args = .ok request)
    (hprint : request.printOnly = false) (h : (run st args).code = 0) :
    (st.settings request).hasMarker st.disk ∧
      ∃ lints, st.lints (st.settings request) = .ok lints ∧
        (Update.run st.disk (st.settings request) lints (!request.check)).failure = none ∧
        (run st args).toOutcome = printUpdates st (st.settings request) request.check lints
          (Update.run st.disk (st.settings request) lints (!request.check)) := by
  have hending : Ending st request (run st args).toOutcome := (ending_iff hread).2 rfl
  generalize (run st args).toOutcome = outcome at hending h ⊢
  cases hending with
  | unmarked _ => exact (code_fail _ _ _ h).elim
  | uncollected _ _ => exact (code_fail _ _ _ h).elim
  | printed _ _ hprint' => simp [hprint] at hprint'
  | failed _ _ _ _ => exact (code_fail _ _ _ h).elim
  | reported hmarker hlints _ hfailure => exact ⟨hmarker, _, hlints, hfailure, rfl⟩

/-- A run that keeps the listings and meets no failure. -/
theorem run_of_lints (hread : CommandLine.read args = .ok request)
    (hprint : request.printOnly = false) (hmarker : (st.settings request).hasMarker st.disk)
    {lints : List Lint} (hlints : st.lints (st.settings request) = .ok lints)
    (hfailure :
      (Update.run st.disk (st.settings request) lints (!request.check)).failure = none) :
    (run st args).toOutcome = printUpdates st (st.settings request) request.check lints
      (Update.run st.disk (st.settings request) lints (!request.check)) :=
  (ending_iff hread).1 (.reported hmarker hlints hprint hfailure)

section

variable {s : Settings} {lints : List Lint} {result : Update.Result}

/-- An update that exits with status 0 could say what it had to. -/
theorem can_print_of_update (h : (printUpdates st s false lints result).code = 0) :
    st.working ∨ Report.isJson s.output = false := by
  cases hrefusal : st.refusal with
  | none => exact .inl (working_iff.2 hrefusal)
  | some fault =>
      right
      by_contra hjson
      rw [code_printUpdates_refused st s false lints result hrefusal,
        if_neg fun hclean => hjson hclean.1] at h
      cases h

/-- A check exits with status 0 if nothing is out of step. Only a document would have to be
printed then. -/
theorem code_printUpdates_check :
    (printUpdates st s true lints result).code = 0 ↔
      (∀ u ∈ result.updates, u.changed = false) ∧
        (st.working ∨ Report.isJson s.output = false) := by
  cases hrefusal : st.refusal with
  | none =>
      have hworking : st.working = true := working_iff.2 hrefusal
      rw [code_printUpdates hworking]
      simp [isStale, hworking]
  | some fault =>
      have hworking : st.working = false := not_working_iff.2 ⟨fault, hrefusal⟩
      rw [code_printUpdates_refused st s true lints result hrefusal, hworking]
      split
      · next hclean => exact iff_of_true rfl ⟨hclean.2, .inr hclean.1⟩
      · next hclean =>
          refine iff_of_false (by decide) fun h => hclean ⟨?_, h.1⟩
          simpa using h.2

end

/-- A check exits with status 0 exactly where the listings are in step. -/
theorem code_check_iff (hread : CommandLine.read args = .ok request)
    (hprint : request.printOnly = false) (hcheck : request.check = true) :
    (run st args).code = 0 ↔ st.UpToDate (st.settings request) := by
  constructor
  · intro h
    obtain ⟨hmarker, lints, hlints, hfailure, hrun⟩ := exists_of_run hread hprint h
    rw [hcheck] at hfailure hrun
    rw [hrun, code_printUpdates_check] at h
    obtain ⟨hclean, hprints⟩ := h
    exact ⟨hmarker, hprints, lints, hlints, (Update.runPasses_check hfailure).1 hclean⟩
  · rintro ⟨hmarker, hprints, lints, hlints, hsettled⟩
    have hall := Update.runPasses_of_settled (st.settings request).root hsettled false
    have hrun := run_of_lints hread hprint hmarker hlints (by rw [hcheck]; exact hall.1)
    rw [hcheck] at hrun
    rw [hrun, code_printUpdates_check]
    exact ⟨(Update.runPasses_check hall.1).2 hsettled, hprints⟩

/-- What an update of two files that exits with status 0 has rewritten. -/
theorem exists_rewritten (hread : CommandLine.read args = .ok request)
    (hprint : request.printOnly = false) (hupdate : request.check = false)
    (hrun : (run st args).code = 0)
    (hfiles : st.disk.placeOf (st.settings request).readmePath ≠
      st.disk.placeOf (st.settings request).entryPath) :
    (st.settings request).hasMarker st.disk ∧
      (st.working ∨ Report.isJson (st.settings request).output = false) ∧
      ∃ lints readme entry tableOut countOut groupOut,
        st.lints (st.settings request) = .ok lints ∧
        Update.Rewritten st.disk (st.settings request) lints (run st args).disk readme entry
          tableOut countOut groupOut := by
  obtain ⟨hmarker, lints, hlints, hfailure, heq⟩ := exists_of_run hread hprint hrun
  rw [hupdate, Bool.not_false] at hfailure heq
  rw [heq] at hrun
  refine ⟨hmarker, can_print_of_update hrun, lints, ?_⟩
  obtain ⟨readme, entry, tableOut, countOut, groupOut, hrewritten⟩ :=
    Update.rewritten_of_run hfiles hfailure
  rw [heq, disk_printUpdates]
  exact ⟨readme, entry, tableOut, countOut, groupOut, hlints, hrewritten⟩

/-- Where a check after an update makes out the same settings and collects the same lints, it
finds the listings in step exactly if the lints come back from them as they were written. -/
theorem upToDate_iff (hread : CommandLine.read args = .ok request)
    (hprint : request.printOnly = false) (hupdate : request.check = false)
    (hrun : (run st args).code = 0)
    (hfiles : st.disk.placeOf (st.settings request).readmePath ≠
      st.disk.placeOf (st.settings request).entryPath)
    (hlints : Start.lints { st with disk := (run st args).disk } (st.settings request) =
      st.lints (st.settings request)) :
    Start.UpToDate { st with disk := (run st args).disk } (st.settings request) ↔
      ∃ lints readme entry, st.lints (st.settings request) = .ok lints ∧
        st.disk.readText (st.settings request).readmePath = .ok readme ∧
        st.disk.readText (st.settings request).entryPath = .ok entry ∧
        Update.Returns lints (st.settings request).group readme entry := by
  obtain ⟨hmarker, hprints, lints, readme, entry, tableOut, countOut, groupOut, hcollected,
    hrewritten⟩ := exists_rewritten hread hprint hupdate hrun hfiles
  have hnames : ∀ lint ∈ lints, Lint.IsName lint.name := Collection.isName_of_harvest hcollected
  have hsettled := Update.settled_iff hnames hrewritten
  constructor
  · rintro ⟨-, -, lints', hlints', hall⟩
    obtain rfl : lints = lints' :=
      Except.ok.inj (hcollected.symm.trans (hlints.symm.trans hlints'))
    exact ⟨lints, readme, entry, hcollected, hrewritten.readmeBefore, hrewritten.entryBefore,
      hsettled.1 hall⟩
  · rintro ⟨lints', readme', entry', hlints', hreadme, hentry, hreturns⟩
    obtain rfl : lints = lints' := Except.ok.inj (hcollected.symm.trans hlints')
    obtain rfl : readme = readme' := Except.ok.inj (hrewritten.readmeBefore.symm.trans hreadme)
    obtain rfl : entry = entry' := Except.ok.inj (hrewritten.entryBefore.symm.trans hentry)
    refine ⟨?_, hprints, lints, hlints.trans hcollected, hsettled.2 hreturns⟩
    rw [Settings.hasMarker, hrewritten.isFile]
    exact hmarker

/-- A check right after an update exits with status 0 exactly if the listings are in step by the
settings and lints that it makes out itself. Where these are the ones of the update, that is so
exactly if no description with a line feed met a table, and no module with a line feed or with
the end of the call met a group. -/
theorem check_after_update_iff {args' : List String}
    (hread : CommandLine.read args = .ok request)
    (hread' : CommandLine.read args' = .ok { request with check := true })
    (hprint : request.printOnly = false) (hupdate : request.check = false)
    (hrun : (run st args).code = 0) :
    let after : Start := { st with disk := (run st args).disk }
    let s := st.settings request
    ((run after args').code = 0 ↔ after.UpToDate (after.settings request)) ∧
      (after.settings request = s → after.lints s = st.lints s →
        st.disk.placeOf s.readmePath ≠ st.disk.placeOf s.entryPath →
        ((run after args').code = 0 ↔
          ∃ lints readme entry, st.lints s = .ok lints ∧
            st.disk.readText s.readmePath = .ok readme ∧
            st.disk.readText s.entryPath = .ok entry ∧
            Update.Returns lints s.group readme entry)) := by
  intro after s
  have hcheck : (run after args').code = 0 ↔ after.UpToDate (after.settings request) :=
    @code_check_iff after args' { request with check := true } hread' hprint rfl
  refine ⟨hcheck, fun hsettings hlints hfiles => ?_⟩
  rw [hcheck, hsettings]
  exact upToDate_iff hread hprint hupdate hrun hfiles hlints

/-- A checkout with a description that goes on in a second line, and a table for it. -/
def splitRow : Start where
  disk := ⟨[(["p"], .directory), (["p", "src"], .directory),
    (["p", "README.md"], .file "name |\n\n".toUTF8),
    (["p", "src", "lib.rs"], .file "declare_lint!(pub A, Warn, \"x\ny\")".toUTF8)]⟩
  cwd := ⟨"/p"⟩
  colors := false

private theorem run_splitRow :
    let after : Start := { splitRow with disk := (run splitRow []).disk }
    let s := splitRow.settings .plain
    (run splitRow []).code = 0 ∧ (run after ["--check"]).code = 1 ∧
      after.settings .plain = s ∧ after.lints s = splitRow.lints s ∧
      splitRow.disk.placeOf s.readmePath ≠ splitRow.disk.placeOf s.entryPath := by
  decide +kernel

theorem check_after_update_iff_splitRow :
    let s := splitRow.settings .plain
    (run splitRow []).code = 0 ∧
      ¬ ∃ lints readme entry, splitRow.lints s = .ok lints ∧
        splitRow.disk.readText s.readmePath = .ok readme ∧
        splitRow.disk.readText s.entryPath = .ok entry ∧
        Update.Returns lints s.group readme entry := by
  obtain ⟨hupdate, hcheck, hsettings, hlints, hfiles⟩ := run_splitRow
  dsimp only at hcheck
  have hread : CommandLine.read ["--check"] = .ok { CommandLine.Request.plain with check := true } :=
    rfl
  have hiff := (@check_after_update_iff splitRow [] .plain ["--check"] rfl hread rfl rfl
    hupdate).2 hsettings hlints hfiles
  refine ⟨hupdate, fun hreturns => ?_⟩
  exact Nat.one_ne_zero (hcheck.symm.trans (hiff.2 hreturns))

theorem check_after_update_can_fail :
    ¬ ∀ (st : Start) (args args' : List String) (request : CommandLine.Request),
      CommandLine.read args = .ok request →
      CommandLine.read args' = .ok { request with check := true } →
      request.printOnly = false → request.check = false → (run st args).code = 0 →
      (run { st with disk := (run st args).disk } args').code = 0 := by
  intro hclean
  obtain ⟨hupdate, hcheck, -⟩ := run_splitRow
  dsimp only at hcheck
  have hzero := hclean splitRow [] ["--check"] .plain rfl rfl rfl rfl hupdate
  exact Nat.one_ne_zero (hcheck.symm.trans hzero)

end LintLedger.Program
