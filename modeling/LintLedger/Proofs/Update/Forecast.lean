import LintLedger.Proofs.Listing.Texts
import LintLedger.Proofs.Update.Pass

/-!
# What a check says of an update

A check reads every file as it stands, while an update reads the readme again once the table is in
it. A pass says the same of a file whether or not it is to write, so a check and an update can only
differ in what they say of the sentence. There they fail together: the empty line behind a table
leads out of the region of the sentence, whatever the table holds.
-/

namespace LintLedger

inductive Failure.Kind where
  | read
  | write
  | output
  | pattern
  | glob
  | unclosed
  deriving DecidableEq, Repr

def Failure.kind : Failure → Kind
  | .read _ _ => .read
  | .write _ _ => .write
  | .output _ => .output
  | .pattern _ => .pattern
  | .glob _ _ => .glob
  | .unclosed _ _ _ => .unclosed

def Failure.path? : Failure → Option Path
  | .read path _ => some path
  | .write path _ => some path
  | .unclosed path _ _ => some path
  | _ => none

namespace Update

open Listing Region Text

/-! ## Verdicts of passes -/

namespace Pass

variable {p : Pass} {d d' : Disk} {write changed : Bool}

/-- What a pass says of its file: whether the lines change, or why that cannot be told. -/
def verdict (p : Pass) (d : Disk) : Except Failure Bool :=
  match p.region with
  | .error invalid => .error (.pattern invalid)
  | .ok region =>
    match d.readText p.path with
    | .error fault => .error (.read p.path fault)
    | .ok text =>
      match (region.regenerate (fun _ => p.lines) (splitLines text)).result with
      | .error line => .error (.unclosed p.path line region.closing.text)
      | .ok out => .ok (decide (out ≠ splitLines text))

theorem verdict_congr (h : d'.readText p.path = d.readText p.path) :
    p.verdict d' = p.verdict d := by
  simp only [verdict, h]

/-- A pass that is to write fails only where it would not know what to write. -/
theorem changed_run (p : Pass) (d : Disk) (write : Bool) :
    (p.run d write).map Revision.Saved.changed = p.verdict d := by
  unfold verdict
  cases hregion : p.region with
  | error invalid => simp [run, hregion, Except.map]
  | ok region =>
      cases htext : d.readText p.path with
      | error fault =>
          simp [run, hregion, Revision.replace, Revision.plan, htext, bind, Except.bind, Except.map]
      | ok text =>
          have hrun : p.run d write = Revision.save ⟨p.path, region, splitLines text,
              region.regenerate (fun _ => p.lines) (splitLines text)⟩ d write := by
            simp only [run, hregion, Revision.replace, Revision.plan, htext, bind, Except.bind]
          rw [hrun]
          unfold Revision.save Revision.newLines
          cases hresult : (region.regenerate (fun _ => p.lines) (splitLines text)).result with
          | error line => simp [hresult, bind, Except.bind, Except.map]
          | ok out =>
              obtain ⟨d', hwritten, -⟩ := Disk.writeText_of_readText htext (String.join out)
              simp only [hresult, hwritten, bind, Except.bind]
              split <;> rfl

theorem run_of_verdict_error {failure : Failure} (h : p.verdict d = .error failure)
    (write : Bool) : p.run d write = .error failure := by
  have hmap := changed_run p d write
  rw [h] at hmap
  cases hrun : p.run d write with
  | error other => simpa [hrun, Except.map] using hmap
  | ok saved => simp [hrun, Except.map] at hmap

theorem exists_run_of_verdict (h : p.verdict d = .ok changed) (write : Bool) :
    ∃ saved, p.run d write = .ok saved ∧ saved.changed = changed := by
  have hmap := changed_run p d write
  rw [h] at hmap
  cases hrun : p.run d write with
  | error other => simp [hrun, Except.map] at hmap
  | ok saved => exact ⟨saved, rfl, by simpa [hrun, Except.map] using hmap⟩

/-- The disk behind a pass; one that fails leaves it as it is. -/
def after (p : Pass) (d : Disk) (write : Bool) : Disk :=
  match p.run d write with
  | .error _ => d
  | .ok saved => saved.disk

/-- The file of a pass that can tell something stands somewhere. -/
theorem placeOf_of_verdict (h : p.verdict d = .ok changed) :
    ∃ place, d.placeOf p.path = .ok place := by
  obtain ⟨saved, hrun, -⟩ := exists_run_of_verdict h false
  obtain ⟨_, _, _, -, hread, -⟩ := exists_of_run hrun
  obtain ⟨place, _, hplace, -⟩ := Disk.readText_eq_ok hread
  exact ⟨place, hplace⟩

theorem after_check (p : Pass) (d : Disk) : p.after d false = d := by
  unfold after
  split
  · rfl
  · next hrun => exact disk_of_check hrun

theorem agrees_after (p : Pass) (d : Disk) : d.AgreesBut p.path (p.after d true) := by
  unfold after
  split
  · exact .refl d p.path
  · next hrun =>
      obtain ⟨_, _, _, -, -, -, hagrees, -⟩ := written_of_run hrun
      exact hagrees

theorem after_of_unchanged (h : p.verdict d = .ok false) : p.after d write = d := by
  obtain ⟨saved, hrun, hchanged⟩ := exists_run_of_verdict h write
  obtain ⟨_, _, _, -, -, -, -, hdisk⟩ := exists_of_run hrun
  simp only [after, hrun]
  simpa [hchanged] using hdisk

end Pass

section

variable (root : Path) (write : Bool) (d : Disk) (p : Pass) (ps : List Pass)

theorem runPasses_nil : runPasses root write d [] = ⟨d, [], [], none⟩ := rfl

theorem failure_runPasses_cons :
    (runPasses root write d (p :: ps)).failure =
      match p.verdict d with
      | .error failure => some failure
      | .ok _ => (runPasses root write (p.after d write) ps).failure := by
  cases hverdict : p.verdict d with
  | error failure =>
      have hrun := Pass.run_of_verdict_error hverdict write
      simp [runPasses, hrun]
  | ok changed =>
      obtain ⟨saved, hrun, -⟩ := Pass.exists_run_of_verdict hverdict write
      simp [runPasses, Pass.after, hrun]

theorem updates_runPasses_cons :
    (runPasses root write d (p :: ps)).updates =
      match p.verdict d with
      | .error _ => []
      | .ok changed =>
        p.report root changed write :: (runPasses root write (p.after d write) ps).updates := by
  cases hverdict : p.verdict d with
  | error failure =>
      have hrun := Pass.run_of_verdict_error hverdict write
      simp [runPasses, hrun]
  | ok changed =>
      obtain ⟨saved, hrun, hchanged⟩ := Pass.exists_run_of_verdict hverdict write
      simp [runPasses, Pass.after, hrun, hchanged]

end

/-! ## The three passes -/

variable {d : Disk} {s : Settings} {lints : List Lint}

def tablePass (s : Settings) (lints : List Lint) : Pass :=
  ⟨"table", s.readmePath, tableRegion, table lints⟩

def countPass (s : Settings) (lints : List Lint) : Pass :=
  ⟨"count", s.readmePath, countRegion, [countSentence lints.length]⟩

def groupPass (s : Settings) (lints : List Lint) : Pass :=
  ⟨"group", s.entryPath, groupRegion s.group, group lints⟩

theorem passes_eq (s : Settings) (lints : List Lint) :
    passes s lints = [tablePass s lints, countPass s lints, groupPass s lints] := rfl

theorem verdict_countPass {text : String} (h : d.readText s.readmePath = .ok text) :
    (countPass s lints).verdict d =
      match (countBounds.regenerate (fun _ => [countSentence lints.length])
        (splitLines text)).result with
      | .error line => .error (.unclosed s.readmePath line "")
      | .ok out => .ok (decide (out ≠ splitLines text)) := by
  simp only [Pass.verdict, countPass, countRegion_eq, h]
  rfl

/-- The pass of the sentence fails behind the pass of the table exactly if it fails before it. -/
theorem verdicts_countPass {changed : Bool} (h : (tablePass s lints).verdict d = .ok changed) :
    (∃ line line',
      (countPass s lints).verdict d = .error (.unclosed s.readmePath line "") ∧
      (countPass s lints).verdict ((tablePass s lints).after d true) =
        .error (.unclosed s.readmePath line' "")) ∨
    ∃ count count',
      (countPass s lints).verdict d = .ok count ∧
      (countPass s lints).verdict ((tablePass s lints).after d true) = .ok count' := by
  obtain ⟨saved, hrun, -⟩ := Pass.exists_run_of_verdict h true
  obtain ⟨region, readme, tableOut, hregion, hread, htable, -, hread'⟩ := Pass.written_of_run hrun
  cases (tableRegion_eq.symm.trans hregion)
  have hafter : (tablePass s lints).after d true = saved.disk := by
    simp only [Pass.after, hrun]
  have hcount := @verdict_countPass d s lints readme hread
  have hcount' := @verdict_countPass saved.disk s lints (String.join tableOut) hread'
  have hboth := count_isOk_of_table htable fun _ => [countSentence lints.length]
  rw [hafter, hcount, hcount']
  cases hresult : (countBounds.regenerate (fun _ => [countSentence lints.length])
      (splitLines readme)).result with
  | error line =>
      cases hresult' : (countBounds.regenerate (fun _ => [countSentence lints.length])
          (splitLines (String.join tableOut))).result with
      | error line' => exact .inl ⟨line, line', rfl, rfl⟩
      | ok out' => simp [hresult, hresult', Except.isOk, Except.toBool] at hboth
  | ok out =>
      cases hresult' : (countBounds.regenerate (fun _ => [countSentence lints.length])
          (splitLines (String.join tableOut))).result with
      | error line' => simp [hresult, hresult', Except.isOk, Except.toBool] at hboth
      | ok out' => exact .inr ⟨_, _, rfl, rfl⟩

/-- The pass of the group says the same behind the two passes over another file. -/
theorem verdict_groupPass {place : Place} (hreadme : d.placeOf s.readmePath = .ok place)
    (hentry : d.placeOf s.entryPath ≠ .ok place) :
    (groupPass s lints).verdict
        ((countPass s lints).after ((tablePass s lints).after d true) true) =
      (groupPass s lints).verdict d := by
  have htable : d.AgreesBut s.readmePath ((tablePass s lints).after d true) :=
    (tablePass s lints).agrees_after d
  have hcount : ((tablePass s lints).after d true).AgreesBut s.readmePath
      ((countPass s lints).after ((tablePass s lints).after d true) true) :=
    (countPass s lints).agrees_after _
  have hfiles : d.placeOf s.entryPath ≠ d.placeOf s.readmePath := by
    rw [hreadme]
    exact hentry
  exact Pass.verdict_congr ((htable.trans hcount).readText s.entryPath hfiles)

/-- What an update or a check in which nothing fails reports. -/
def reports (s : Settings) (write table count group : Bool) : List RegionUpdate :=
  [⟨Path.shownFrom s.root s.readmePath, "table", table, table && write⟩,
    ⟨Path.shownFrom s.root s.readmePath, "count", count, count && write⟩,
    ⟨Path.shownFrom s.root s.entryPath, "group", group, group && write⟩]

theorem exists_changed_reports {write table count group : Bool} :
    (∃ u ∈ reports s write table count group, u.changed) ↔ table ∨ count ∨ group := by
  simp [reports]

theorem run_of_verdicts {table count group : Bool} (write : Bool)
    (htable : (tablePass s lints).verdict d = .ok table)
    (hcount : (countPass s lints).verdict ((tablePass s lints).after d write) = .ok count)
    (hgroup : (groupPass s lints).verdict
      ((countPass s lints).after ((tablePass s lints).after d write) write) = .ok group) :
    (run d s lints write).failure = none ∧
      (run d s lints write).updates = reports s write table count group := by
  rw [run, passes_eq]
  constructor
  · simp only [failure_runPasses_cons, htable, hcount, hgroup, runPasses_nil]
  · simp only [updates_runPasses_cons, htable, hcount, hgroup, runPasses_nil]
    rfl

/-- What the passes find when none fails: whether the table, the sentence and the group change,
each looked for behind the passes before. -/
structure Finds (d : Disk) (s : Settings) (lints : List Lint) (write table count group : Bool) :
    Prop where
  table : (tablePass s lints).verdict d = .ok table
  count : (countPass s lints).verdict ((tablePass s lints).after d write) = .ok count
  group : (groupPass s lints).verdict
    ((countPass s lints).after ((tablePass s lints).after d write) write) = .ok group

theorem exists_finds {write : Bool} (h : (run d s lints write).failure = none) :
    ∃ table count group, Finds d s lints write table count group := by
  rw [run, passes_eq] at h
  simp only [failure_runPasses_cons, runPasses_nil] at h
  split at h
  · cases h
  · next table htable =>
      split at h
      · cases h
      · next count hcount =>
          split at h
          · cases h
          · next group hgroup => exact ⟨table, count, group, htable, hcount, hgroup⟩

theorem Finds.updates {write table count group : Bool}
    (h : Finds d s lints write table count group) :
    (run d s lints write).updates = reports s write table count group :=
  (run_of_verdicts write h.table h.count h.group).2

/-- A check foretells an update of two files: one fails exactly if the other does, in the same way
and at the same path. If they succeed, they say the same of the table and of the group, and
something is out of step for the one exactly if something is for the other. -/
theorem check_foretells_update
    (hfiles : ∀ place, d.placeOf s.readmePath = .ok place → d.placeOf s.entryPath ≠ .ok place) :
    let check := run d s lints false
    let update := run d s lints true
    check.failure.map (fun failure => (failure.kind, failure.path?)) =
        update.failure.map (fun failure => (failure.kind, failure.path?)) ∧
      (check.failure = none → update.failure = none →
        ∃ table count count' group,
          check.updates = reports s false table count group ∧
          update.updates = reports s true table count' group ∧
          ((∃ u ∈ check.updates, u.changed) ↔ ∃ u ∈ update.updates, u.changed)) := by
  intro check update
  cases htable : (tablePass s lints).verdict d with
  | error failure => simp [check, update, run, passes_eq, failure_runPasses_cons, htable]
  | ok table =>
      have hcheck := (tablePass s lints).after_check d
      rcases verdicts_countPass htable with ⟨line, line', hcount, hcount'⟩ |
        ⟨count, count', hcount, hcount'⟩
      · simp [check, update, run, passes_eq, failure_runPasses_cons, htable, hcheck, hcount,
          hcount', Failure.kind, Failure.path?]
      have hcheck' := (countPass s lints).after_check d
      obtain ⟨place, hplace⟩ := Pass.placeOf_of_verdict htable
      have hgroup := @verdict_groupPass d s lints place hplace (hfiles place hplace)
      cases hverdict : (groupPass s lints).verdict d with
      | error failure =>
          rw [hverdict] at hgroup
          simp [check, update, run, passes_eq, failure_runPasses_cons, htable, hcheck, hcount,
            hcheck', hcount', hverdict, hgroup]
      | ok group =>
          rw [hverdict] at hgroup
          obtain ⟨hfailure, hupdates⟩ := run_of_verdicts false htable
            (by rw [hcheck]; exact hcount) (by rw [hcheck, hcheck']; exact hverdict)
          obtain ⟨hfailure', hupdates'⟩ := run_of_verdicts true htable hcount' hgroup
          refine ⟨by simp only [check, update, hfailure, hfailure'], fun _ _ =>
            ⟨table, count, count', group, hupdates, hupdates', ?_⟩⟩
          -- Without a new table, the sentence is looked for in the same text.
          have hsame : table = false → count' = count := by
            rintro rfl
            rw [Pass.after_of_unchanged htable, hcount] at hcount'
            exact (Except.ok.inj hcount').symm
          simp only [check, update, hupdates, hupdates', exists_changed_reports]
          cases table with
          | false => rw [hsame rfl]
          | true => simp

/-- A checkout with a sentence in the old table, where an update does not find it any more. -/
def swallowingDisk : Disk :=
  ⟨[(["p"], .directory), (["p", "src"], .directory),
    (["p", "README.md"],
      .file "name |\nThere are 2 lints included in this crate:\n\n".toUTF8),
    (["p", "src", "lib.rs"], .file "".toUTF8)]⟩

theorem check_foretells_update_swallowing :
    let s := Settings.ofConfig ⟨"/p"⟩ none none
    let check := run swallowingDisk s [] false
    let update := run swallowingDisk s [] true
    check.updates.map (·.changed) = [true, true, false] ∧
      update.updates.map (·.changed) = [true, false, false] ∧
      ((∃ u ∈ check.updates, u.changed) ↔ ∃ u ∈ update.updates, u.changed) := by
  intro s check update
  have hfiles : ∀ place, swallowingDisk.placeOf s.readmePath = .ok place →
      swallowingDisk.placeOf s.entryPath ≠ .ok place := by
    have hreadme : swallowingDisk.placeOf s.readmePath = .ok ["p", "README.md"] := by
      decide +kernel
    have hentry : swallowingDisk.placeOf s.entryPath = .ok ["p", "src", "lib.rs"] := by
      decide +kernel
    intro place hplace
    rw [← hplace, hreadme, hentry]
    simp
  have hruns : (check.failure = none ∧ check.updates.map (·.changed) = [true, true, false]) ∧
      update.failure = none ∧ update.updates.map (·.changed) = [true, false, false] := by
    decide +kernel
  obtain ⟨⟨hfailure, hcheck⟩, hfailure', hupdate⟩ := hruns
  obtain ⟨-, hboth⟩ := @check_foretells_update swallowingDisk s [] hfiles
  obtain ⟨_, _, _, _, -, -, hchanged⟩ := hboth hfailure hfailure'
  exact ⟨hcheck, hupdate, hchanged⟩

end Update

end LintLedger
