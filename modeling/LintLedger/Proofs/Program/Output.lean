import LintLedger.Proofs.Program.Status

/-!
# Output that cannot be written

What becomes of a run whose standard output takes nothing, told by the run that starts alike and
can print. A table that is only printed ends such a run as any failure does. A report of what was
updated or checked breaks it off: it ends with a status of its own, after the files may have been
rewritten.
-/

namespace LintLedger

/-! ## Texts of a report -/

theorem join_eq_empty {texts : List String} (h : ∀ text ∈ texts, text ≠ "") :
    String.join texts = "" ↔ texts = [] := by
  cases texts with
  | nil => simp
  | cons text texts =>
      have htext := h text List.mem_cons_self
      simp [htext]

theorem ne_empty_of_updatesTexts {updates : List RegionUpdate} {count : Nat} {mode : String}
    {colors write : Bool} {text : String}
    (h : text ∈ Report.updatesTexts updates count mode colors write) : text ≠ "" := by
  unfold Report.updatesTexts at h
  split at h
  · rw [List.mem_singleton] at h
    simp [h]
  · obtain ⟨u, -, hline⟩ := List.mem_map.1 h
    simp [← hline, Report.updateLine]

theorem tableTexts_ne_empty (lints : List Lint) (mode : String) :
    String.join (Report.tableTexts lints mode) ≠ "" := by
  unfold Report.tableTexts
  split
  · simp
  · simp [Listing.table, Listing.header]

namespace Program

variable {st : Start} {args : List String} {request : CommandLine.Request}

/-- The same start with a standard output that takes everything. -/
def Start.heard (st : Start) : Start :=
  { st with refusal := none }

/-! ## Reports -/

section

variable (st : Start) (s : Settings) (check : Bool) (lints : List Lint) (result : Update.Result)

/-- What is printed where the output takes everything. -/
theorem printUpdates_heard (hworking : st.working = true) :
    printUpdates st s check lints result =
      ⟨result.disk, if isStale check result then 1 else 0,
        String.join (reportTexts st s check lints result),
        if isStale check result && Report.isJson s.output then Report.reminder else ""⟩ := by
  rw [printUpdates, working_iff.1 hworking]

theorem ne_empty_of_reportTexts {text : String} (h : text ∈ reportTexts st s check lints result) :
    text ≠ "" := by
  unfold reportTexts at h
  dsimp only at h
  split at h
  · cases List.mem_append.1 h with
    | inl htext => exact ne_empty_of_updatesTexts htext
    | inr hreminder => simp [List.mem_singleton.1 hreminder, Report.reminder]
  · exact ne_empty_of_updatesTexts h

theorem isStale_of_unchanged (h : ∀ u ∈ result.updates, u.changed = false) :
    isStale check result = false := by
  have hnone : result.updates.any (·.changed) = false := by simpa using h
  rw [isStale, hnone, Bool.and_false]

/-- There is nothing to print only for readers, where nothing changes. -/
theorem reportTexts_eq_nil_iff :
    reportTexts st s check lints result = [] ↔
      Report.isJson s.output = false ∧ ∀ u ∈ result.updates, u.changed = false := by
  by_cases hjson : Report.isJson s.output = true
  · simp [reportTexts, Report.updatesTexts, hjson]
  · rw [Bool.not_eq_true] at hjson
    have htexts : Report.updatesTexts result.updates lints.length s.output st.colors (!check) =
        [] ↔ ∀ u ∈ result.updates, u.changed = false := by
      simp [Report.updatesTexts, hjson, List.filter_eq_nil_iff]
    rw [and_iff_right hjson]
    simp only [reportTexts, hjson, Bool.not_false, Bool.true_and, Bool.and_true]
    split
    · next hfound =>
        refine iff_of_false (by simp) fun hclean => ?_
        rw [isStale_of_unchanged _ _ hclean] at hfound
        cases hfound
    · exact htexts

theorem stdout_printUpdates_heard_eq_empty :
    (printUpdates st.heard s check lints result).stdout = "" ↔
      reportTexts st s check lints result = [] := by
  rw [printUpdates_heard st.heard s check lints result rfl]
  exact join_eq_empty fun text => ne_empty_of_reportTexts st s check lints result

/-- A report with nothing to print is made as ever, any other breaks off. -/
theorem printUpdates_refused {fault : Fault} (hrefusal : st.refusal = some fault) :
    printUpdates st s check lints result =
      if (printUpdates st.heard s check lints result).stdout = "" then
        printUpdates st.heard s check lints result
      else breakOff st.frame result.disk fault := by
  have hempty := stdout_printUpdates_heard_eq_empty st s check lints result
  cases htexts : reportTexts st s check lints result with
  | nil =>
      have hheard : reportTexts st.heard s check lints result = [] := htexts
      rw [if_pos (hempty.2 htexts), printUpdates, hrefusal, htexts,
        printUpdates_heard st.heard s check lints result rfl, hheard]
  | cons text texts =>
      have hsome : (printUpdates st.heard s check lints result).stdout ≠ "" := by
        rw [ne_eq, hempty, htexts]
        exact List.cons_ne_nil text texts
      rw [if_neg hsome, printUpdates, hrefusal, htexts]

theorem code_printUpdates_refused {fault : Fault} (hrefusal : st.refusal = some fault) :
    (printUpdates st s check lints result).code =
      if Report.isJson s.output = false ∧ ∀ u ∈ result.updates, u.changed = false then 0
      else 101 := by
  have hempty := (stdout_printUpdates_heard_eq_empty st s check lints result).trans
    (reportTexts_eq_nil_iff st s check lints result)
  rw [printUpdates_refused st s check lints result hrefusal]
  split
  · next hnone =>
      have hclean := hempty.1 hnone
      rw [if_pos hclean, code_printUpdates rfl, isStale_of_unchanged _ _ hclean.2,
        if_neg Bool.false_ne_true]
  · next hsome => rw [if_neg fun hclean => hsome (hempty.2 hclean), breakOff]

end

/-! ## Runs -/

/-- What becomes of a run that cannot print, by the run that can. -/
theorem run_refused {fault : Fault} (hread : CommandLine.read args = .ok request)
    (hrefusal : st.refusal = some fault) :
    (run st args).toOutcome =
      if (run st.heard args).stdout = "" then (run st.heard args).toOutcome
      else if request.printOnly then fail st.colors st.disk (Failure.output fault).message
      else breakOff st.frame (run st.heard args).disk fault := by
  have hending : Ending st.heard request (run st.heard args).toOutcome := (ending_iff hread).2 rfl
  generalize (run st.heard args).toOutcome = usual at hending
  refine (ending_iff hread).1 ?_
  cases hending with
  | unmarked hmarker => exact .unmarked hmarker
  | uncollected hmarker hlints => exact .uncollected hmarker hlints
  | @printed lints hmarker hlints hprint =>
      have hheard : (printTable st.heard (st.heard.settings request) lints).stdout ≠ "" :=
        tableTexts_ne_empty lints _
      have hfail : printTable st (st.settings request) lints =
          fail st.colors st.disk (Failure.output fault).message := by
        rw [printTable, hrefusal]
      rw [if_neg hheard, if_pos hprint, ← hfail]
      exact .printed hmarker hlints hprint
  | failed hmarker hlints hprint hfailure => exact .failed hmarker hlints hprint hfailure
  | @reported lints hmarker hlints hprint hfailure =>
      rw [hprint, if_neg Bool.false_ne_true, disk_printUpdates,
        ← printUpdates_refused st _ request.check lints _ hrefusal]
      exact .reported hmarker hlints hprint hfailure

/-! ## Statuses -/

/-- Whether a run keeps to its statuses and says what keeps it from printing. -/
structure Start.ReportsOutput (st : Start) (args : List String) : Prop where
  status : (run st args).code = 0 ∨ (run st args).code = 1 ∨ (run st args).code = 2
  error : ∀ fault, st.refusal = some fault → (run st.heard args).stdout ≠ "" →
    (run st args).code = 2 ∧ (run st args).stderr =
      Terminal.errorPrefix st.colors ++ " "
        ++ ("failed to write to stdout: " ++ fault.message) ++ "\n"

/-- Whether a run breaks off: it prints nothing, it ends with a status of its own, and in the frame
on its standard error stands why the output takes nothing. What it has updated stays so. -/
structure Start.BreaksOff (st : Start) (args : List String) (fault : Fault) : Prop where
  status : (run st args).code = 101
  stdout : (run st args).stdout = ""
  stderr : (run st args).stderr =
    st.frame.head ++ "failed printing to stdout: " ++ fault.message ++ "\n" ++ st.frame.tail
  disk : (run st args).disk = (run st.heard args).disk

/-- A run that can print ends with one of the three statuses. -/
theorem code_heard (hread : CommandLine.read args = .ok request) :
    (run st.heard args).code = 0 ∨ (run st.heard args).code = 1 ∨
      (run st.heard args).code = 2 := by
  have hending : Ending st.heard request (run st.heard args).toOutcome := (ending_iff hread).2 rfl
  rcases code_ending rfl hending with ⟨hcode, -⟩ | ⟨hcode, -⟩ | ⟨hcode, -⟩
  · exact .inr (.inr hcode)
  · exact .inr (.inl hcode)
  · exact .inl hcode

theorem reportsOutput_of_working (hread : CommandLine.read args = .ok request)
    (hworking : st.working = true) : st.ReportsOutput args := by
  have hnone := working_iff.1 hworking
  have hsame : st.heard = st := by
    unfold Start.heard
    rw [← hnone]
  have hcode := @code_heard st args request hread
  rw [hsame] at hcode
  refine ⟨hcode, fun fault hrefusal => ?_⟩
  rw [hnone] at hrefusal
  cases hrefusal

section

variable {fault : Fault} (hread : CommandLine.read args = .ok request)
  (hrefusal : st.refusal = some fault)

include hread hrefusal

theorem reportsOutput_of_stdout_empty (hnone : (run st.heard args).stdout = "") :
    st.ReportsOutput args := by
  have hrun := run_refused hread hrefusal
  rw [if_pos hnone] at hrun
  constructor
  · rw [hrun]
    exact code_heard hread
  · intro _ _ hsome
    exact (hsome hnone).elim

theorem reportsOutput_of_printOnly (hprint : request.printOnly = true)
    (hsome : (run st.heard args).stdout ≠ "") : st.ReportsOutput args := by
  have hrun := run_refused hread hrefusal
  rw [if_neg hsome, if_pos hprint] at hrun
  constructor
  · rw [hrun]
    exact .inr (.inr rfl)
  · intro given hgiven _
    obtain rfl : fault = given := Option.some.inj (hrefusal.symm.trans hgiven)
    rw [hrun]
    exact ⟨rfl, rfl⟩

theorem breaksOff (hprint : request.printOnly ≠ true) (hsome : (run st.heard args).stdout ≠ "") :
    st.BreaksOff args fault := by
  have hrun := run_refused hread hrefusal
  rw [if_neg hsome, if_neg hprint] at hrun
  constructor <;> rw [hrun] <;> rfl

end

theorem not_reportsOutput_of_breaksOff {fault : Fault} (h : st.BreaksOff args fault) :
    ¬ st.ReportsOutput args := by
  intro hreports
  have hstatus := hreports.status
  simp [h.status] at hstatus

/-- A run keeps to its statuses, and says what keeps it from printing, exactly where it can print,
where it only prints the table, or where it has nothing to print. A report of what was updated or
checked breaks it off instead, with a status of its own and with the disk already rewritten. -/
theorem reportsOutput_iff (hread : CommandLine.read args = .ok request) :
    (st.ReportsOutput args ↔
      st.working = true ∨ request.printOnly = true ∨ (run st.heard args).stdout = "") ∧
    (¬ st.ReportsOutput args → ∃ fault, st.refusal = some fault ∧ st.BreaksOff args fault) := by
  by_cases hworking : st.working = true
  · have hreports := reportsOutput_of_working hread hworking
    simp only [hreports, hworking, true_or, not_true_eq_false, false_implies, and_self]
  · rw [Bool.not_eq_true] at hworking
    obtain ⟨fault, hrefusal⟩ := not_working_iff.1 hworking
    by_cases hnone : (run st.heard args).stdout = ""
    · have hreports := reportsOutput_of_stdout_empty hread hrefusal hnone
      simp only [hreports, hnone, or_true, not_true_eq_false, false_implies, and_self]
    · by_cases hprint : request.printOnly = true
      · have hreports := reportsOutput_of_printOnly hread hrefusal hprint hnone
        simp only [hreports, hprint, true_or, or_true, not_true_eq_false, false_implies, and_self]
      · have hbreaks := breaksOff hread hrefusal hprint hnone
        have hreports := not_reportsOutput_of_breaksOff hbreaks
        refine ⟨?_, fun _ => ⟨fault, hrefusal, hbreaks⟩⟩
        simp only [hreports, hworking, hprint, hnone, Bool.false_eq_true, or_self]

/-- A checkout whose table lacks its heading, with an output that has no space left. -/
def unheadedFull : Start :=
  { unheaded with
    refusal := some .noSpace
    frame := ⟨"\nthread 'main' panicked:\n", "note: run again\n"⟩ }

private theorem stdout_heard_unheadedFull : (run unheadedFull.heard []).stdout ≠ "" := by
  decide +kernel

theorem reportsOutput_iff_unheadedFull :
    unheadedFull.ReportsOutput ["--print-only"] ∧
      ¬ unheadedFull.ReportsOutput [] ∧
      (run unheadedFull []).code = 101 ∧
      (run unheadedFull []).stderr = "\nthread 'main' panicked:\n" ++
        "failed printing to stdout: No space left on device (os error 28)\n" ++
        "note: run again\n" ∧
      (run unheadedFull []).disk.readText ⟨"/p/README.md"⟩ =
        .ok "name | default | meaning\n-|---------|-\n\n" := by
  let printOnly : CommandLine.Request := { CommandLine.Request.plain with printOnly := true }
  have hread : CommandLine.read ["--print-only"] = .ok printOnly := rfl
  have hprinted := @reportsOutput_iff unheadedFull ["--print-only"] printOnly hread
  obtain ⟨hiff, hbreaks⟩ := @reportsOutput_iff unheadedFull [] .plain rfl
  have hworking : unheadedFull.working ≠ true := by decide
  have hprint : CommandLine.Request.plain.printOnly ≠ true := by decide
  have hreports : ¬ unheadedFull.ReportsOutput [] := by
    rw [hiff]
    exact not_or.2 ⟨hworking, not_or.2 ⟨hprint, stdout_heard_unheadedFull⟩⟩
  obtain ⟨fault, hrefusal, hbroken⟩ := hbreaks hreports
  obtain rfl : Fault.noSpace = fault := Option.some.inj hrefusal
  refine ⟨hprinted.1.2 (.inr (.inl rfl)), hreports, hbroken.status, hbroken.stderr, ?_⟩
  rw [hbroken.disk]
  decide +kernel

theorem reportsOutput_can_fail :
    ¬ ∀ (st : Start) (args : List String) (request : CommandLine.Request),
      CommandLine.read args = .ok request → st.ReportsOutput args := by
  intro hall
  have hprint : CommandLine.Request.plain.printOnly ≠ true := by decide
  have hbroken := @breaksOff unheadedFull [] .plain _ rfl rfl hprint stdout_heard_unheadedFull
  exact not_reportsOutput_of_breaksOff hbroken (hall unheadedFull [] .plain rfl)

end Program

end LintLedger
