import LintLedger.Program

/-!
# How a run can end

A run for which a request was made out ends in one of five ways: without the marker, without the
lints, with the table printed, with an update that failed, or with an update that is reported. The
relation says under what conditions it ends in which way, and what it leaves behind then. Whatever
is said of runs is a case for each way.
-/

namespace LintLedger.Program

def Start.settings (st : Start) (request : CommandLine.Request) : Settings :=
  (Settings.resolve st.disk st.cwd request.repoRoot request.output).settings

def Start.lints (st : Start) (s : Settings) : Except Failure (List Lint) :=
  (Collection.harvest st.disk s.root s.scope).result

/-- What comes of the listings when a run updates or checks them. -/
def Start.update (st : Start) (request : CommandLine.Request) (lints : List Lint) : Update.Result :=
  Update.run st.disk (st.settings request) lints (!request.check)

variable {st : Start} {args : List String} {request : CommandLine.Request} {outcome : Outcome}

theorem run_eq (hread : CommandLine.read args = .ok request) :
    (run st args).toOutcome =
      if (st.settings request).hasMarker st.disk then
        (runWith st request (st.settings request)).toOutcome
      else fail st.colors st.disk (markerMessage (st.settings request)) := by
  simp only [run, hread, runRequest]
  unfold Start.settings
  split
  · dsimp only
  · dsimp only

theorem working_iff : st.working = true ↔ st.refusal = none := by
  rw [Start.working, Option.isNone_iff_eq_none]

theorem not_working_iff : st.working = false ↔ ∃ fault, st.refusal = some fault := by
  rw [Start.working, Option.isNone_eq_false_iff, Option.isSome_iff_exists]

/-! ## What is left behind -/

theorem code_fail (colors : Bool) (d : Disk) (message : String) :
    (fail colors d message).code ≠ 0 := by
  simp [fail]

theorem disk_fail (colors : Bool) (d : Disk) (message : String) :
    (fail colors d message).disk = d := rfl

theorem disk_printTable (st : Start) (s : Settings) (lints : List Lint) :
    (printTable st s lints).disk = st.disk := by
  unfold printTable
  split <;> rfl

theorem code_printTable (hworking : st.working = true) (s : Settings) (lints : List Lint) :
    (printTable st s lints).code = 0 := by
  rw [printTable, working_iff.1 hworking]

section

variable {s : Settings} {check : Bool} {lints : List Lint} {result : Update.Result}

theorem disk_printUpdates (check : Bool) :
    (printUpdates st s check lints result).disk = result.disk := by
  simp only [printUpdates]
  split <;> rfl

/-- Where everything can be printed, a report only tells whether a check found something. -/
theorem code_printUpdates (hworking : st.working = true) :
    (printUpdates st s check lints result).code = if isStale check result then 1 else 0 := by
  simp only [printUpdates, working_iff.1 hworking]

end

/-! ## Ways to end -/

inductive Ending (st : Start) (request : CommandLine.Request) : Outcome → Prop
  | unmarked : ¬ (st.settings request).hasMarker st.disk →
      Ending st request (fail st.colors st.disk (markerMessage (st.settings request)))
  | uncollected {failure : Failure} : (st.settings request).hasMarker st.disk →
      st.lints (st.settings request) = .error failure →
      Ending st request (fail st.colors st.disk failure.message)
  | printed {lints : List Lint} : (st.settings request).hasMarker st.disk →
      st.lints (st.settings request) = .ok lints → request.printOnly = true →
      Ending st request (printTable st (st.settings request) lints)
  | failed {lints : List Lint} {failure : Failure} : (st.settings request).hasMarker st.disk →
      st.lints (st.settings request) = .ok lints → request.printOnly = false →
      (st.update request lints).failure = some failure →
      Ending st request (fail st.colors (st.update request lints).disk failure.message)
  | reported {lints : List Lint} : (st.settings request).hasMarker st.disk →
      st.lints (st.settings request) = .ok lints → request.printOnly = false →
      (st.update request lints).failure = none →
      Ending st request
        (printUpdates st (st.settings request) request.check lints (st.update request lints))

theorem toOutcome_of_ending (hread : CommandLine.read args = .ok request)
    (h : Ending st request outcome) : (run st args).toOutcome = outcome := by
  have hrun := @run_eq st args request hread
  cases h with
  | unmarked hmarker => rw [hrun, if_neg hmarker]
  | uncollected hmarker hlints =>
      unfold Start.lints at hlints
      rw [hrun, if_pos hmarker]
      simp only [runWith, hlints]
  | printed hmarker hlints hprint =>
      unfold Start.lints at hlints
      rw [hrun, if_pos hmarker]
      simp only [runWith, hlints, hprint, if_true]
  | failed hmarker hlints hprint hfailure =>
      unfold Start.lints at hlints
      unfold Start.update at hfailure
      rw [hrun, if_pos hmarker]
      simp only [runWith, hlints, hprint, hfailure, Bool.false_eq_true, if_false, Start.update]
  | reported hmarker hlints hprint hfailure =>
      unfold Start.lints at hlints
      unfold Start.update at hfailure
      rw [hrun, if_pos hmarker]
      simp only [runWith, hlints, hprint, hfailure, Bool.false_eq_true, if_false, Start.update]

theorem exists_ending (st : Start) (request : CommandLine.Request) :
    ∃ outcome, Ending st request outcome := by
  by_cases hmarker : (st.settings request).hasMarker st.disk
  · cases hlints : st.lints (st.settings request) with
    | error failure => exact ⟨_, .uncollected hmarker hlints⟩
    | ok lints =>
        cases hprint : request.printOnly with
        | true => exact ⟨_, .printed hmarker hlints hprint⟩
        | false =>
            cases hfailure : (st.update request lints).failure with
            | some failure => exact ⟨_, .failed hmarker hlints hprint hfailure⟩
            | none => exact ⟨_, .reported hmarker hlints hprint hfailure⟩
  · exact ⟨_, .unmarked hmarker⟩

/-- A run ends in the one way whose conditions hold. -/
theorem ending_iff (hread : CommandLine.read args = .ok request) :
    Ending st request outcome ↔ (run st args).toOutcome = outcome := by
  refine ⟨toOutcome_of_ending hread, ?_⟩
  rintro rfl
  obtain ⟨outcome, hending⟩ := exists_ending st request
  rw [toOutcome_of_ending hread hending]
  exact hending

end LintLedger.Program
