import LintLedger.Proofs.Listing.Texts
import LintLedger.Proofs.Update.Pass

/-!
# Updates made twice

An update that succeeds leaves two texts. Whether a second update finds anything to do is a
question about the lints and about the texts that the first one found: a description with a line
feed comes back from a table as other lines, and so does a module with a line feed from a group,
while a module that holds the end of the call closes the group too early.
-/

namespace LintLedger

/-- Whether a lint comes back from the listings as it was written: its name is one, each listing
of it is one line, and its module does not hold the end of the call that registers it. -/
structure Lint.Listable (lint : Lint) : Prop where
  name : IsName lint.name
  description : '\n' ∉ lint.description.toList
  module : '\n' ∉ lint.module.toList
  call : ¬ "]);".toList <:+: lint.module.toList

namespace Update

open Listing Region Text

variable {d : Disk} {s : Settings} {lints : List Lint}

/-- Whether lints come back from the listings in two texts as they were written. -/
structure Returns (lints : List Lint) (group readme entry : String) : Prop where
  table : (∃ line ∈ splitLines readme, tableBounds.opens line) →
    ∀ lint ∈ lints, '\n' ∉ lint.description.toList
  group : (∃ line ∈ splitLines entry, (groupBounds group).opens line) →
    ∀ lint ∈ lints, '\n' ∉ lint.module.toList ∧ ¬ "]);".toList <:+: lint.module.toList

theorem returns_of_listable (h : ∀ lint ∈ lints, lint.Listable) (group readme entry : String) :
    Returns lints group readme entry where
  table _ lint hlint := (h lint hlint).description
  group _ lint hlint := ⟨(h lint hlint).module, (h lint hlint).call⟩

/-- What an update of two files reads from them and leaves in them. -/
structure Rewritten (d : Disk) (s : Settings) (lints : List Lint) (d' : Disk)
    (readme entry : String) (tableOut countOut groupOut : List String) : Prop where
  readmeBefore : d.readText s.readmePath = .ok readme
  entryBefore : d.readText s.entryPath = .ok entry
  table : Renewal tableBounds (table lints) (splitLines readme) tableOut
  count : Renewal countBounds [countSentence lints.length] (splitLines (String.join tableOut))
    countOut
  group : Renewal (groupBounds s.group) (group lints) (splitLines entry) groupOut
  readmeAfter : d'.readText s.readmePath = .ok (String.join countOut)
  entryAfter : d'.readText s.entryPath = .ok (String.join groupOut)
  isFile : ∀ q, d'.isFile q = d.isFile q

theorem rewritten_of_run (hfiles : d.placeOf s.readmePath ≠ d.placeOf s.entryPath)
    (h : (run d s lints true).failure = none) :
    ∃ readme entry tableOut countOut groupOut,
      Rewritten d s lints (run d s lints true).disk readme entry tableOut countOut groupOut := by
  obtain ⟨saved₁, hrun₁, h₁⟩ := exists_of_runPasses h
  obtain ⟨saved₂, hrun₂, h₂⟩ := exists_of_runPasses h₁
  obtain ⟨saved₃, hrun₃, -⟩ := exists_of_runPasses h₂
  have hdisk : (run d s lints true).disk = saved₃.disk := by
    rw [run, passes, runPasses_cons_of_run hrun₁, runPasses_cons_of_run hrun₂,
      runPasses_cons_of_run hrun₃]
    rfl
  obtain ⟨_, readme, tableOut, hregion₁, hread₁, htable, hagrees₁, hafter₁⟩ :=
    Pass.written_of_run hrun₁
  obtain ⟨_, _, countOut, hregion₂, hread₂, hcount, hagrees₂, hafter₂⟩ :=
    Pass.written_of_run hrun₂
  obtain ⟨_, entry, groupOut, hregion₃, hread₃, hgroup, hagrees₃, hafter₃⟩ :=
    Pass.written_of_run hrun₃
  cases (tableRegion_eq.symm.trans hregion₁)
  cases (countRegion_eq.symm.trans hregion₂)
  cases ((groupRegion_eq s.group).symm.trans hregion₃)
  cases (hafter₁.symm.trans hread₂)
  -- The first two passes leave the entry file alone, and the third leaves the readme alone.
  have hagrees := hagrees₁.trans hagrees₂
  have hentry := hagrees.readText s.entryPath (Ne.symm hfiles)
  have hfiles₂ : saved₂.disk.placeOf s.readmePath ≠ saved₂.disk.placeOf s.entryPath := by
    rwa [hagrees.placeOf, hagrees.placeOf]
  refine ⟨readme, entry, tableOut, countOut, groupOut, hread₁, ?_, htable, hcount, hgroup, ?_, ?_,
    ?_⟩
  · rw [← hentry]
    exact hread₃
  · rw [hdisk, hagrees₃.readText s.readmePath hfiles₂]
    exact hafter₂
  · rw [hdisk]
    exact hafter₃
  · intro q
    rw [hdisk, hagrees₃.isFile, hagrees.isFile]

section

variable {d' : Disk} {readme entry : String} {tableOut countOut groupOut : List String}

theorem settled_iff_inStep (h : Rewritten d s lints d' readme entry tableOut countOut groupOut) :
    (∀ p ∈ passes s lints, p.Settled d') ↔
      Renewal tableBounds (table lints) (splitLines (String.join countOut))
        (splitLines (String.join countOut)) ∧
      Renewal (groupBounds s.group) (group lints) (splitLines (String.join groupOut))
        (splitLines (String.join groupOut)) := by
  simp only [passes, List.forall_mem_cons, List.not_mem_nil, false_imp_iff, implies_true, and_true]
  constructor
  · rintro ⟨⟨_, _, hregion, hread, htable⟩, -, _, _, hregion', hread', hgroup⟩
    cases (tableRegion_eq.symm.trans hregion)
    cases ((groupRegion_eq s.group).symm.trans hregion')
    cases (h.readmeAfter.symm.trans hread)
    cases (h.entryAfter.symm.trans hread')
    exact ⟨htable, hgroup⟩
  · rintro ⟨htable, hgroup⟩
    refine ⟨⟨_, _, tableRegion_eq, h.readmeAfter, htable⟩, ⟨_, _, countRegion_eq, h.readmeAfter, ?_⟩,
      _, _, groupRegion_eq s.group, h.entryAfter, hgroup⟩
    exact (count_inStep h.count).renewal

/-- After an update nothing is left to do exactly if the lints come back as they were written. -/
theorem settled_iff (hnames : ∀ lint ∈ lints, Lint.IsName lint.name)
    (h : Rewritten d s lints d' readme entry tableOut countOut groupOut) :
    (∀ p ∈ passes s lints, p.Settled d') ↔ Returns lints s.group readme entry := by
  rw [settled_iff_inStep h]
  constructor
  · rintro ⟨htable, hgroup⟩
    exact ⟨not_newline_of_table h.table h.count htable, modules_of_group hnames h.group hgroup⟩
  · intro hreturns
    exact ⟨(table_inStep hnames h.table h.count hreturns.table).renewal,
      (group_inStep hnames h.group hreturns.group).renewal⟩

end

/-- An update that follows an update with the same lints changes nothing, whether or not it is
to write: it succeeds, reports every listing as unchanged and leaves the disk as it is. -/
theorem run_after_run (hfiles : d.placeOf s.readmePath ≠ d.placeOf s.entryPath)
    (hlints : ∀ lint ∈ lints, lint.Listable) (hrun : (run d s lints true).failure = none)
    (write : Bool) :
    let after := (run d s lints true).disk
    (run after s lints write).failure = none ∧
      (run after s lints write).updates =
        [⟨Path.shownFrom s.root s.readmePath, "table", false, false⟩,
          ⟨Path.shownFrom s.root s.readmePath, "count", false, false⟩,
          ⟨Path.shownFrom s.root s.entryPath, "group", false, false⟩] ∧
      (run after s lints write).disk = after := by
  intro after
  obtain ⟨readme, entry, tableOut, countOut, groupOut, hrewritten⟩ := rewritten_of_run hfiles hrun
  have hnames : ∀ lint ∈ lints, Lint.IsName lint.name := fun lint hlint => (hlints lint hlint).name
  have hsettled : ∀ p ∈ passes s lints, p.Settled after :=
    (settled_iff hnames hrewritten).2 (returns_of_listable hlints s.group readme entry)
  obtain ⟨hfailure, hdisk, hupdates⟩ := runPasses_of_settled s.root hsettled write
  exact ⟨hfailure, hupdates, hdisk⟩

def staleDisk : Disk :=
  ⟨[(["p"], .directory), (["p", "src"], .directory),
    (["p", "README.md"], .file "name |\n\nThere are 0 lints included in this crate:\nend".toUTF8),
    (["p", "src", "lib.rs"], .file "reg.register_lint_group(\"clippy\", [\n    ]);\n".toUTF8)]⟩

def staleSettings : Settings :=
  Settings.ofConfig ⟨"/p"⟩ none none

theorem run_after_run_stale :
    (run staleDisk staleSettings [⟨"lib", "a_b", .warn, "about"⟩] true).updates.map (·.wrote) =
        [true, true, true] ∧
      let after := (run staleDisk staleSettings [⟨"lib", "a_b", .warn, "about"⟩] true).disk
      (run after staleSettings [⟨"lib", "a_b", .warn, "about"⟩] true).disk = after := by
  have hfiles : staleDisk.placeOf staleSettings.readmePath ≠
      staleDisk.placeOf staleSettings.entryPath := by
    decide +kernel
  have hlints : ∀ lint ∈ [(⟨"lib", "a_b", .warn, "about"⟩ : Lint)], lint.Listable := by
    simp only [List.mem_singleton, forall_eq]
    exact ⟨by decide, by decide, by decide, by decide⟩
  have hfirst :
      (run staleDisk staleSettings [⟨"lib", "a_b", .warn, "about"⟩] true).failure = none ∧
        (run staleDisk staleSettings [⟨"lib", "a_b", .warn, "about"⟩] true).updates.map (·.wrote) =
          [true, true, true] := by
    decide +kernel
  exact ⟨hfirst.2, (run_after_run hfiles hlints hfirst.1 true).2.2⟩

end Update

end LintLedger
