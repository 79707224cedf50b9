import LintLedger.Proofs.Json.Reading
import LintLedger.Proofs.Program.Output
import LintLedger.Proofs.Settings.Resolved
import LintLedger.Proofs.Update.Forecast

/-!
# What a run prints

The two streams of a run that ends with status 0 or 1, where everything can be printed and no
colors are wanted. Apart from the log, they hold the report and nothing else: a document alone on
the standard output where a document is asked for, and otherwise the table, or a line for every
listing that changes. Only the reminder of a check moves between the streams.

The log holds a warning at most, unless more is asked for: that a configuration is passed over.
-/

namespace LintLedger

/-! ## Lines of a report -/

namespace Report

def plainLine (write : Bool) (u : RegionUpdate) : String :=
  (if write then "updated:" else "would update:") ++ " " ++ u.file ++ " (" ++ u.region ++ ")\n"

theorem updateLine_plain (write : Bool) : updateLine false write = plainLine write := rfl

/-- A line about a listing is one line, unless the path of its file is none. -/
theorem plainLine_terminated (write : Bool) {u : RegionUpdate} (hfile : '\n' ∉ u.file.toList)
    (hregion : '\n' ∉ u.region.toList) : Text.Terminated (plainLine write u) := by
  refine ⟨(if write then "updated:" else "would update:").toList ++
    (' ' :: u.file.toList ++ (' ' :: '(' :: u.region.toList ++ [')'])), ?_, ?_⟩
  · cases write <;> simp [hfile, hregion]
  · simp [plainLine]

end Report

namespace Program

variable {st : Start} {args : List String} {request : CommandLine.Request}

/-- The mode that a run reports in: what the command line says before what the configuration at
the root says. -/
def Start.mode (st : Start) (request : CommandLine.Request) : String :=
  let root := Settings.detectRoot st.disk st.cwd (Settings.startOf request.repoRoot)
    Settings.defaultMarker
  match request.output, (Settings.loadConfig st.disk root).config.bind (·.output) with
  | some mode, _ => mode
  | none, some mode => mode
  | none, none => "human"

theorem output_settings : (st.settings request).output = st.mode request := by
  simp only [Start.settings, Settings.resolve, Settings.ofConfig, Start.mode]
  cases request.output with
  | some mode => rfl
  | none =>
      cases (Settings.loadConfig st.disk (Settings.detectRoot st.disk st.cwd
          (Settings.startOf request.repoRoot) Settings.defaultMarker)).config with
      | none => rfl
      | some config => cases h : config.output <;> simp [h]

/-! ## Streams of a run -/

/-- The streams of a run that only prints the table of some lints. -/
structure Outcome.TellsTable (outcome : Outcome) (mode : String) (lints : List Lint) : Prop where
  code : outcome.code = 0
  stderr : outcome.stderr = ""
  document : mode = "json" → Json.IsText (Report.tableDocument lints) outcome.stdout
  table : mode ≠ "json" → outcome.stdout = String.join (Listing.table lints)

/-- The lines of a report for readers: one for every listing that changes, and the reminder if the
status is 1. -/
def Outcome.lines (outcome : Outcome) (check : Bool) (updates : List RegionUpdate) : List String :=
  (updates.filter (·.changed)).map (Report.plainLine (!check)) ++
    if outcome.code = 1 then [Report.reminder] else []

/-- The streams of a run that reports updates of a number of lints. -/
structure Outcome.TellsUpdates (outcome : Outcome) (mode : String) (check : Bool) (lints : Nat)
    (updates : List RegionUpdate) : Prop where
  code : outcome.code = 1 ↔ check = true ∧ ∃ u ∈ updates, u.changed
  document : mode = "json" → Json.IsText (Report.updatesDocument updates lints) outcome.stdout
  reminder : mode = "json" → outcome.stderr = if outcome.code = 1 then Report.reminder else ""
  stderr : mode ≠ "json" → outcome.stderr = ""
  stdout : mode ≠ "json" → outcome.stdout = String.join (outcome.lines check updates)
  /-- Only the path of a file can break a line. -/
  lines : mode ≠ "json" → (∀ u ∈ updates, '\n' ∉ u.file.toList) →
    Text.splitLines outcome.stdout = outcome.lines check updates

theorem tellsTable_printTable (hworking : st.working = true) (lints : List Lint) :
    (printTable st (st.settings request) lints).TellsTable (st.mode request) lints := by
  have hprint : printTable st (st.settings request) lints =
      ⟨st.disk, 0, String.join (Report.tableTexts lints (st.mode request)), ""⟩ := by
    rw [printTable, working_iff.1 hworking, output_settings]
  rw [hprint]
  refine ⟨rfl, rfl, fun hjson => ?_, fun hhuman => ?_⟩
  · have hdocument := Json.isText_pretty (Report.tableDocument lints)
    simpa [Report.tableTexts, Report.isJson, hjson] using hdocument
  · simp [Report.tableTexts, Report.isJson, hhuman]

section

variable {check : Bool} {lints : List Lint} {result : Update.Result}

theorem printUpdates_json (hworking : st.working = true) (hjson : st.mode request = "json") :
    printUpdates st (st.settings request) check lints result =
      ⟨result.disk, if isStale check result then 1 else 0,
        (Report.updatesDocument result.updates lints.length).pretty ++ "\n",
        if isStale check result then Report.reminder else ""⟩ := by
  simp [printUpdates_heard _ _ _ _ _ hworking, reportTexts, output_settings, Report.updatesTexts,
    Report.isJson, hjson]

theorem printUpdates_human (hworking : st.working = true) (hcolors : st.colors = false)
    (hhuman : st.mode request ≠ "json") :
    printUpdates st (st.settings request) check lints result =
      ⟨result.disk, if isStale check result then 1 else 0,
        String.join ((result.updates.filter (·.changed)).map (Report.plainLine (!check)) ++
          if isStale check result then [Report.reminder] else []), ""⟩ := by
  have hmode : Report.isJson (st.settings request).output = false := by
    simpa [output_settings, Report.isJson] using hhuman
  have htexts : reportTexts st (st.settings request) check lints result =
      (result.updates.filter (·.changed)).map (Report.plainLine (!check)) ++
        if isStale check result then [Report.reminder] else [] := by
    simp only [reportTexts, Report.updatesTexts, hmode, hcolors, Bool.and_false, Bool.not_false,
      Bool.and_true, Bool.false_eq_true, if_false, Report.updateLine_plain]
    split <;> simp
  rw [printUpdates_heard _ _ _ _ _ hworking, htexts, hmode]
  simp only [Bool.and_false, Bool.false_eq_true, if_false]

theorem splitLines_lines {outcome : Outcome} {updates : List RegionUpdate}
    (hfiles : ∀ u ∈ updates, '\n' ∉ u.file.toList)
    (hregions : ∀ u ∈ updates, '\n' ∉ u.region.toList) :
    Text.splitLines (String.join (outcome.lines check updates)) = outcome.lines check updates := by
  have hreminder : Text.Terminated Report.reminder :=
    ⟨"Please run lintsync to regenerate lint lists.".toList, by decide, rfl⟩
  refine Text.splitLines_join (.append ?_ ?_)
  · intro line hline
    obtain ⟨u, hu, rfl⟩ := List.mem_map.1 hline
    have hmem := List.mem_of_mem_filter hu
    exact Report.plainLine_terminated _ (hfiles u hmem) (hregions u hmem)
  · split
    · exact .cons hreminder .nil
    · exact .nil

theorem tellsUpdates_printUpdates (hworking : st.working = true) (hcolors : st.colors = false)
    (hregions : ∀ u ∈ result.updates, '\n' ∉ u.region.toList) :
    (printUpdates st (st.settings request) check lints result).TellsUpdates (st.mode request) check
      lints.length result.updates := by
  have hcode : (printUpdates st (st.settings request) check lints result).code = 1 ↔
      isStale check result = true := by
    rw [code_printUpdates hworking]
    split <;> simp_all
  have hstale : isStale check result = true ↔
      check = true ∧ ∃ u ∈ result.updates, u.changed := by
    rw [isStale, Bool.and_eq_true, List.any_eq_true]
  have hstdout : st.mode request ≠ "json" →
      (printUpdates st (st.settings request) check lints result).stdout = String.join
        ((printUpdates st (st.settings request) check lints result).lines check result.updates) := by
    intro hhuman
    simp only [Outcome.lines, hcode]
    rw [printUpdates_human hworking hcolors hhuman]
  refine ⟨hcode.trans hstale, fun hjson => ?_, fun hjson => ?_, fun hhuman => ?_, hstdout,
    fun hhuman hfiles => ?_⟩
  · rw [printUpdates_json hworking hjson]
    exact Json.isText_pretty _
  · simp only [hcode]
    rw [printUpdates_json hworking hjson]
  · rw [printUpdates_human hworking hcolors hhuman]
  · rw [hstdout hhuman]
    exact splitLines_lines hfiles hregions

end

theorem newline_not_mem_region {s : Settings} {write table count group : Bool} :
    ∀ u ∈ Update.reports s write table count group, '\n' ∉ u.region.toList := by
  simp [Update.reports]

/-- The standard output of a run with status 0 or 1 is the report that was asked for. Where the
mode is `json`, it is one document alone, and the reminder of a check goes to the standard error.
Otherwise it is the table, or a line for every listing that changes, in the order of the passes,
and behind them the reminder exactly if the status is 1. -/
theorem stdout_is_report (hread : CommandLine.read args = .ok request)
    (hworking : st.working = true) (hcolors : st.colors = false)
    (hcode : (run st args).code = 0 ∨ (run st args).code = 1) :
    let s := st.settings request
    let mode := st.mode request
    s.output = mode ∧ ∃ lints, st.lints s = .ok lints ∧
      (request.printOnly = true → (run st args).TellsTable mode lints) ∧
      (request.printOnly = false → ∃ table count group,
        Update.Finds st.disk s lints (!request.check) table count group ∧
        (run st args).TellsUpdates mode request.check lints.length
          (Update.reports s (!request.check) table count group)) := by
  intro s mode
  refine ⟨output_settings, ?_⟩
  have hending : Ending st request (run st args).toOutcome := (ending_iff hread).2 rfl
  generalize (run st args).toOutcome = outcome at hending hcode ⊢
  cases hending with
  | unmarked _ => simp [fail] at hcode
  | uncollected _ _ => simp [fail] at hcode
  | failed _ _ _ _ => simp [fail] at hcode
  | @printed lints _ hlints hprint =>
      refine ⟨lints, hlints, fun _ => tellsTable_printTable hworking lints, fun hupdates => ?_⟩
      rw [hprint] at hupdates
      cases hupdates
  | @reported lints _ hlints hprint hfailure =>
      refine ⟨lints, hlints, fun honly => ?_, fun _ => ?_⟩
      · rw [hprint] at honly
        cases honly
      · obtain ⟨table, count, group, hfinds⟩ := Update.exists_finds hfailure
        have hupdates : (st.update request lints).updates =
            Update.reports s (!request.check) table count group := hfinds.updates
        refine ⟨table, count, group, hfinds, ?_⟩
        rw [← hupdates]
        apply tellsUpdates_printUpdates hworking hcolors
        rw [hupdates]
        exact newline_not_mem_region

theorem stdout_is_report_unheaded :
    let finish := run unheaded ["--check", "--output", "json"]
    finish.code = 1 ∧ finish.stderr = Report.reminder ∧
      ∃ lints updates, Json.IsText (Report.updatesDocument updates lints) finish.stdout ∧
        ∃ u ∈ updates, u.changed := by
  intro finish
  let request : CommandLine.Request :=
    { CommandLine.Request.plain with check := true, output := some "json" }
  have hread : CommandLine.read ["--check", "--output", "json"] = .ok request := rfl
  have hcode : finish.code = 1 := by decide +kernel
  obtain ⟨-, lints, -, -, hupdates⟩ := stdout_is_report hread rfl rfl (.inr hcode)
  obtain ⟨table, count, group, -, htells⟩ := hupdates rfl
  have hreminder := htells.reminder rfl
  rw [if_pos hcode] at hreminder
  exact ⟨hcode, hreminder, lints.length, _, htells.document rfl, (htells.code.1 hcode).2⟩

/-! ## The log -/

section

variable {m : Message}

theorem severity_of_collecting {scope : Collection.Scope} {h : Collection.Harvest}
    (hm : m ∈ Collection.messages scope h) : m.severity ≠ .warn := by
  have hfile : m ∈ h.messages → m.severity ≠ .warn := by
    intro hmem
    obtain ⟨file, -, rfl⟩ := List.mem_map.1 hmem
    exact Severity.noConfusion
  unfold Collection.messages at hm
  split at hm
  · exact hfile hm
  · cases List.mem_append.1 hm with
    | inl hmem => exact hfile hmem
    | inr htotal =>
        rw [List.mem_singleton.1 htotal]
        exact Severity.noConfusion

theorem severity_of_save {revision : Revision} {d : Disk} {write : Bool} {saved : Revision.Saved}
    (h : revision.save d write = .ok saved) (hm : m ∈ saved.messages) : m.severity ≠ .warn := by
  unfold Revision.save at h
  cases hlines : revision.newLines with
  | error failure => simp [hlines, bind, Except.bind] at h
  | ok lines =>
      simp only [hlines, bind, Except.bind] at h
      split at h
      · split at h
        · obtain rfl := Except.ok.inj h
          rw [List.mem_singleton.1 hm]
          exact Severity.noConfusion
        · cases h
      · obtain rfl := Except.ok.inj h
        cases hm

theorem severity_of_pass {p : Update.Pass} {d : Disk} {write : Bool} {saved : Revision.Saved}
    (h : p.run d write = .ok saved) (hm : m ∈ saved.messages) : m.severity ≠ .warn := by
  unfold Update.Pass.run at h
  split at h
  · cases h
  · next region _ =>
      unfold Revision.replace at h
      cases hplan : Revision.plan d p.path region fun _ => p.lines with
      | error failure => simp [hplan, bind, Except.bind] at h
      | ok revision =>
          simp only [hplan, bind, Except.bind] at h
          exact severity_of_save h hm

theorem severity_of_runPasses {root : Path} {write : Bool} {ps : List Update.Pass} {d : Disk}
    (hm : m ∈ (Update.runPasses root write d ps).messages) : m.severity ≠ .warn := by
  induction ps generalizing d with
  | nil => cases hm
  | cons p ps ih =>
      unfold Update.runPasses at hm
      split at hm
      · cases hm
      · next saved hsaved =>
          rcases List.mem_append.1 hm with hmem | hmem
          · exact severity_of_pass hsaved hmem
          · rcases List.mem_cons.1 hmem with rfl | hmem
            · exact Severity.noConfusion
            · exact ih hmem

/-- Nothing that is said after the settings are made out is a warning. -/
theorem severity_of_runWith {s : Settings} (hm : m ∈ (runWith st request s).log) :
    m.severity ≠ .warn := by
  unfold runWith at hm
  dsimp only at hm
  split at hm
  · dsimp only at hm
    exact severity_of_collecting hm
  · split at hm
    · dsimp only at hm
      exact severity_of_collecting hm
    · dsimp only at hm
      cases List.mem_append.1 hm with
      | inl hcollecting => exact severity_of_collecting hcollecting
      | inr hupdating => exact severity_of_runPasses hupdating

end

theorem filter_isLogged_eq_nil {log : List Message} (h : ∀ m ∈ log, m.severity ≠ .warn) :
    log.filter (·.isLogged false) = [] := by
  rw [List.filter_eq_nil_iff]
  intro m hm
  simpa [Message.isLogged] using h m hm

theorem log_of_quiet (hread : CommandLine.read args = .ok request)
    (hquiet : request.verbose = false) :
    (run st args).log =
      (Settings.resolve st.disk st.cwd request.repoRoot request.output).messages.filter
        (·.isLogged false) := by
  have hlater : ∀ m ∈ defaultsMessages (st.settings request) ++
      (runWith st request (st.settings request)).log, m.severity ≠ .warn := by
    intro m hm
    cases List.mem_append.1 hm with
    | inl hdefaults =>
        unfold defaultsMessages at hdefaults
        split at hdefaults
        · cases hdefaults
        · rw [List.mem_singleton.1 hdefaults]
          exact Severity.noConfusion
    | inr hlog => exact severity_of_runWith hlog
  have hlog : (run st args).log = (runRequest st request).log.filter (·.isLogged false) := by
    simp only [run, hread, hquiet]
  rw [hlog, runRequest]
  unfold Start.settings at hlater
  dsimp only
  split
  · dsimp only
    rw [List.append_assoc, List.filter_append, filter_isLogged_eq_nil hlater, List.append_nil]
  · dsimp only

/-- Unless more is asked for, the log of a run stays empty, but where a configuration stands at the
root and is passed over. -/
theorem log_eq_nil_iff (hread : CommandLine.read args = .ok request)
    (hquiet : request.verbose = false) :
    (run st args).log = [] ↔ (st.settings request).configured = true ∨
      ∀ file ∈ Settings.configFiles,
        ¬ st.disk.exists? ((st.settings request).root.join ⟨file.1⟩) := by
  rw [log_of_quiet hread hquiet]
  exact Settings.warnings_resolve_eq_nil_iff st.disk st.cwd request.repoRoot request.output

end Program

end LintLedger
