import LintLedger.Proofs.Program.Ending
import LintLedger.Proofs.Update.Pass

/-!
# Exit status and disk

What the exit status of a run says where everything can be printed, and when a run leaves the disk
alone. Status 2 stands for a missing marker and for everything that fails, status 1 for a check
that finds a listing out of step. A table that is only printed is neither checked nor written,
even where a check is asked for too.
-/

namespace LintLedger.Program

variable {st : Start} {args : List String} {request : CommandLine.Request}

/-- The failures of collecting the lints, of printing the table and of an update or a check. -/
inductive Start.Meets (st : Start) (request : CommandLine.Request) : Failure → Prop
  | collecting {failure : Failure} : st.lints (st.settings request) = .error failure →
      st.Meets request failure
  | printing {lints : List Lint} {fault : Fault} : st.lints (st.settings request) = .ok lints →
      request.printOnly = true → st.refusal = some fault → st.Meets request (.output fault)
  | updating {lints : List Lint} {failure : Failure} :
      st.lints (st.settings request) = .ok lints → request.printOnly = false →
      (st.update request lints).failure = some failure → st.Meets request failure

/-- Once the lints are collected, only printing and updating can fail. -/
theorem meets_iff {lints : List Lint} (hlints : st.lints (st.settings request) = .ok lints) :
    (∃ failure, st.Meets request failure) ↔
      if request.printOnly then st.working = false
      else (st.update request lints).failure ≠ none := by
  constructor
  · intro h
    obtain ⟨failure, hmeets⟩ := h
    cases hmeets with
    | collecting hlints' =>
        rw [hlints] at hlints'
        cases hlints'
    | printing _ hprint hrefusal => simpa [hprint] using not_working_iff.2 ⟨_, hrefusal⟩
    | updating hlints' hprint hfailure =>
        rw [hlints] at hlints'
        cases hlints'
        simp [hprint, hfailure]
  · intro h
    split at h
    · next hprint =>
        obtain ⟨fault, hrefusal⟩ := not_working_iff.1 h
        exact ⟨_, .printing hlints hprint hrefusal⟩
    · next hprint =>
        obtain ⟨failure, hfailure⟩ := Option.ne_none_iff_exists'.1 h
        exact ⟨failure, .updating hlints (by simpa using hprint) hfailure⟩

/-- Whether a run reports that a listing was out of step. -/
def Start.ReportsChange (st : Start) (request : CommandLine.Request) : Prop :=
  ∃ lints, st.lints (st.settings request) = .ok lints ∧
    ∃ u ∈ (st.update request lints).updates, u.changed

theorem reportsChange_iff {lints : List Lint}
    (hlints : st.lints (st.settings request) = .ok lints) :
    st.ReportsChange request ↔ (st.update request lints).updates.any (·.changed) = true := by
  rw [List.any_eq_true, Start.ReportsChange, hlints]
  simp

def Start.GoesWrong (st : Start) (request : CommandLine.Request) : Prop :=
  ¬ (st.settings request).hasMarker st.disk ∨ ∃ failure, st.Meets request failure

def Start.FindsStale (st : Start) (request : CommandLine.Request) : Prop :=
  request.check = true ∧ request.printOnly = false ∧ st.ReportsChange request

/-! ## One way to end at a time -/

variable {outcome : Outcome}

/-- Where everything can be printed, the status of a run is one of three. -/
theorem code_ending (hworking : st.working = true) (h : Ending st request outcome) :
    (outcome.code = 2 ∧ st.GoesWrong request) ∨
      (outcome.code = 1 ∧ ¬ st.GoesWrong request ∧ st.FindsStale request) ∨
      (outcome.code = 0 ∧ ¬ st.GoesWrong request ∧ ¬ st.FindsStale request) := by
  cases h with
  | unmarked hmarker => exact .inl ⟨rfl, .inl hmarker⟩
  | uncollected _ hlints => exact .inl ⟨rfl, .inr ⟨_, .collecting hlints⟩⟩
  | printed hmarker hlints hprint =>
      have hright : ¬ st.GoesWrong request := by
        simp [Start.GoesWrong, hmarker, meets_iff hlints, hprint, hworking]
      have hclean : ¬ st.FindsStale request := by simp [Start.FindsStale, hprint]
      exact .inr (.inr ⟨code_printTable hworking _ _, hright, hclean⟩)
  | failed _ hlints hprint hfailure => exact .inl ⟨rfl, .inr ⟨_, .updating hlints hprint hfailure⟩⟩
  | reported hmarker hlints hprint hfailure =>
      have hright : ¬ st.GoesWrong request := by
        simp [Start.GoesWrong, hmarker, meets_iff hlints, hprint, hfailure]
      have hstale := reportsChange_iff hlints
      rw [code_printUpdates hworking]
      split
      · next hfound =>
          rw [isStale, Bool.and_eq_true] at hfound
          exact .inr (.inl ⟨rfl, hright, hfound.1, hprint, hstale.2 hfound.2⟩)
      · next hfound =>
          rw [isStale, Bool.and_eq_true] at hfound
          exact .inr (.inr ⟨rfl, hright, fun h => hfound ⟨h.1, hstale.1 h.2.2⟩⟩)

theorem disk_update_check (hcheck : request.check = true) (lints : List Lint) :
    (st.update request lints).disk = st.disk := by
  unfold Start.update
  rw [hcheck]
  exact Update.disk_runPasses_check _ _ _

/-- Only an update that was asked for and that got its lints changes anything. -/
theorem disk_ending (h : Ending st request outcome)
    (hkept : request.check = true ∨ request.printOnly = true ∨
      ¬ (st.settings request).hasMarker st.disk ∨
      ∃ failure, st.lints (st.settings request) = .error failure) :
    outcome.disk = st.disk := by
  cases h with
  | unmarked _ => rfl
  | uncollected _ _ => rfl
  | printed _ _ _ => exact disk_printTable st _ _
  | failed hmarker hlints hprint _ =>
      have hcheck : request.check = true := by simpa [hmarker, hlints, hprint] using hkept
      rw [disk_fail, disk_update_check hcheck]
  | reported hmarker hlints hprint _ =>
      have hcheck : request.check = true := by simpa [hmarker, hlints, hprint] using hkept
      rw [disk_printUpdates, disk_update_check hcheck]

/-- Where everything can be printed, the exit status is 2 exactly if the marker is missing or
something fails, 1 exactly if nothing does and a check that is not only to print finds something
out of step, and 0 otherwise. Whatever can be printed, the disk stays as it is in a check, where
the table is only printed, where the marker is missing and where the lints cannot be collected. -/
theorem status_and_disk (hread : CommandLine.read args = .ok request) :
    let s := st.settings request
    let wrong := ¬ s.hasMarker st.disk ∨ ∃ failure, st.Meets request failure
    (st.working = true →
      ((run st args).code = 2 ↔ wrong) ∧
      ((run st args).code = 1 ↔
        ¬ wrong ∧ request.check = true ∧ request.printOnly = false ∧ st.ReportsChange request) ∧
      ((run st args).code ≠ 2 → (run st args).code ≠ 1 → (run st args).code = 0)) ∧
    (request.check = true ∨ request.printOnly = true ∨ ¬ s.hasMarker st.disk ∨
        (∃ failure, st.lints s = .error failure) →
      (run st args).disk = st.disk) := by
  intro s wrong
  have hending : Ending st request (run st args).toOutcome := (ending_iff hread).2 rfl
  refine ⟨fun hworking => ?_, disk_ending hending⟩
  change (_ ↔ st.GoesWrong request) ∧
    (_ ↔ ¬ st.GoesWrong request ∧ st.FindsStale request) ∧ _
  rcases code_ending hworking hending with ⟨hcode, hwrong⟩ | ⟨hcode, hright, hstale⟩ |
    ⟨hcode, hright, hclean⟩
  · simp [hcode, hwrong]
  · simp [hcode, hright, hstale]
  · simp [hcode, hright, hclean]

/-- A checkout without lints whose table lacks its heading. -/
def unheaded : Start where
  disk := ⟨[(["p"], .directory), (["p", "src"], .directory),
    (["p", "README.md"], .file "name |\n\n".toUTF8), (["p", "src", "lib.rs"], .file "".toUTF8)]⟩
  cwd := ⟨"/p"⟩
  colors := false

theorem status_and_disk_unheaded :
    let request : CommandLine.Request := { CommandLine.Request.plain with check := true }
    (run unheaded ["--check"]).code = 1 ∧ ¬ unheaded.GoesWrong request ∧
      unheaded.ReportsChange request ∧ (run unheaded ["--check"]).disk = unheaded.disk := by
  intro request
  have hcode : (run unheaded ["--check"]).code = 1 := by decide +kernel
  have hread : CommandLine.read ["--check"] = .ok request := rfl
  obtain ⟨hstatus, hdisk⟩ := @status_and_disk unheaded ["--check"] request hread
  obtain ⟨-, hone, -⟩ := hstatus rfl
  obtain ⟨hright, -, -, hstale⟩ := hone.1 hcode
  exact ⟨hcode, hright, hstale, hdisk (.inl rfl)⟩

end LintLedger.Program
