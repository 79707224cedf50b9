import LintLedger.Proofs.Listing.Recount
import LintLedger.Proofs.Update.Forecast

/-!
# The order of the passes

Two listings stand in the readme, and each pass reads what the other one wrote. What the passes
make of the text does not depend on which of them comes first: both orders fail together, and where
they succeed they leave the same text, wherever in or around a table the sentences stand.
-/

namespace LintLedger.Update

open Listing Region Text

/-! ## Passes and texts -/

namespace Pass

variable {p : Pass} {d : Disk} {text text' : String}

def Rewrites (p : Pass) (text text' : String) : Prop :=
  ∃ region out, p.region = .ok region ∧ Renewal region p.lines (splitLines text) out ∧
    text' = String.join out

theorem Rewrites.unique {other : String} (h : p.Rewrites text text')
    (h' : p.Rewrites text other) : text' = other := by
  obtain ⟨region, out, hregion, hout, rfl⟩ := h
  obtain ⟨region', out', hregion', hout', rfl⟩ := h'
  cases (hregion.symm.trans hregion')
  rw [hout.unique hout']

theorem rewrites_of_run {saved : Revision.Saved} (h : p.run d true = .ok saved) :
    ∃ text text', d.readText p.path = .ok text ∧ p.Rewrites text text' ∧
      saved.disk.readText p.path = .ok text' := by
  obtain ⟨region, text, out, hregion, htext, hrenewal, -, hread⟩ := written_of_run h
  exact ⟨text, String.join out, htext, ⟨region, out, hregion, hrenewal, rfl⟩, hread⟩

theorem exists_run_of_rewrites (htext : d.readText p.path = .ok text)
    (h : p.Rewrites text text') :
    ∃ saved, p.run d true = .ok saved ∧ saved.disk.readText p.path = .ok text' := by
  obtain ⟨region, out, hregion, hrenewal, -⟩ := id h
  have hverdict : p.verdict d = .ok (decide (out ≠ splitLines text)) := by
    simp only [verdict, hregion, htext, renewal_iff.1 hrenewal]
  obtain ⟨saved, hrun, -⟩ := exists_run_of_verdict hverdict true
  obtain ⟨old, new, hold, hnew, hread⟩ := rewrites_of_run hrun
  cases (hold.symm.trans htext)
  rw [hnew.unique h] at hread
  exact ⟨saved, hrun, hread⟩

end Pass

/-- Two passes over one file succeed and leave a text in it exactly if the second one makes that
text of what the first one makes of the file. -/
theorem runPasses_pair_iff {root path : Path} {d : Disk} {p q : Pass} {text' : String}
    (hp : p.path = path) (hq : q.path = path) :
    (runPasses root true d [p, q]).failure = none ∧
        (runPasses root true d [p, q]).disk.readText path = .ok text' ↔
      ∃ text middle, d.readText path = .ok text ∧ p.Rewrites text middle ∧
        q.Rewrites middle text' := by
  constructor
  · rintro ⟨hfailure, hread⟩
    obtain ⟨saved₁, hrun₁, hrest⟩ := exists_of_runPasses hfailure
    obtain ⟨saved₂, hrun₂, -⟩ := exists_of_runPasses hrest
    obtain ⟨text, middle, htext, hfirst, hmiddle⟩ := Pass.rewrites_of_run hrun₁
    obtain ⟨middle', text'', hmiddle', hsecond, htext''⟩ := Pass.rewrites_of_run hrun₂
    rw [runPasses_cons_of_run hrun₁, runPasses_cons_of_run hrun₂] at hread
    rw [hp] at htext hmiddle
    rw [hq] at hmiddle' htext''
    cases (hmiddle.symm.trans hmiddle')
    cases (htext''.symm.trans hread)
    exact ⟨text, middle, htext, hfirst, hsecond⟩
  · rintro ⟨text, middle, htext, hfirst, hsecond⟩
    rw [← hp] at htext
    obtain ⟨saved₁, hrun₁, hread₁⟩ := Pass.exists_run_of_rewrites htext hfirst
    rw [hp, ← hq] at hread₁
    obtain ⟨saved₂, hrun₂, hread₂⟩ := Pass.exists_run_of_rewrites hread₁ hsecond
    rw [hq] at hread₂
    rw [runPasses_cons_of_run hrun₁, runPasses_cons_of_run hrun₂]
    exact ⟨rfl, hread₂⟩

/-- A file over which two passes succeed can be read. -/
theorem exists_readText_of_pair {root path : Path} {d : Disk} {p q : Pass}
    (h : (runPasses root true d [p, q]).failure = none) (hq : q.path = path) :
    ∃ text', (runPasses root true d [p, q]).disk.readText path = .ok text' := by
  obtain ⟨saved₁, hrun₁, hrest⟩ := exists_of_runPasses h
  obtain ⟨saved₂, hrun₂, -⟩ := exists_of_runPasses hrest
  obtain ⟨_, text', -, -, hread⟩ := Pass.rewrites_of_run hrun₂
  rw [runPasses_cons_of_run hrun₁, runPasses_cons_of_run hrun₂]
  rw [hq] at hread
  exact ⟨text', hread⟩

/-! ## The table and the sentence -/

variable {d : Disk} {s : Settings} {lints : List Lint} {text text' : String}

theorem rewrites_tablePass_iff :
    (tablePass s lints).Rewrites text text' ↔
      ∃ out, Renewal tableBounds (table lints) (splitLines text) out ∧ text' = String.join out := by
  simp [Pass.Rewrites, tablePass, tableRegion_eq]

theorem rewrites_countPass_iff :
    (countPass s lints).Rewrites text text' ↔
      countBounds.endsInside false (splitLines text) = false ∧
        text' = String.join (recount lints.length false (splitLines text)) := by
  simp [Pass.Rewrites, countPass, countRegion_eq, renewal_count_iff, and_assoc]

def Renewed (lints : List Lint) (text text' : String) : Prop :=
  ∃ out, Renewal tableBounds (table lints) (splitLines text) out ∧
    countBounds.endsInside false (splitLines text) = false ∧
    text' = String.join (recount lints.length false out)

section

variable (hnames : ∀ lint ∈ lints, Lint.IsName lint.name)

include hnames

theorem not_opens_count_of_table {line : String} (hline : line ∈ table lints) :
    ¬ countBounds.opens line := by
  obtain ⟨c, cs, htext, hc, hT⟩ := table_cons hnames hline
  exact not_opens_count htext hc hT

theorem rewrites_table_first (hdescriptions : ∀ lint ∈ lints, '\n' ∉ lint.description.toList) :
    (∃ middle, (tablePass s lints).Rewrites text middle ∧
        (countPass s lints).Rewrites middle text') ↔ Renewed lints text text' := by
  have hends : ∀ {out : List String}, Renewal tableBounds (table lints) (splitLines text) out →
      splitLines (String.join out) = out ∧
        countBounds.endsInside false out = countBounds.endsInside false (splitLines text) := by
    intro out hout
    have hterminated : ∀ line ∈ table lints, Terminated line :=
      fun line hline => table_terminated hnames hdescriptions hline
    have hsplit := splitLines_join (hout.wellSplit hterminated (wellSplit_splitLines text))
    have hleft : ∀ line, tableBounds.closes line →
        ∀ inside, countBounds.insideAfter inside line = false :=
      fun _ hcloses => count_left_of_table_closes hcloses
    have hsame := hout.endsInside_eq hleft (fun _ => table_complete) (wellSplit_splitLines text)
      false
    rw [hsplit] at hsame
    exact ⟨hsplit, hsame⟩
  simp only [rewrites_tablePass_iff, rewrites_countPass_iff]
  constructor
  · rintro ⟨middle, ⟨out, hout, rfl⟩, houtside, rfl⟩
    obtain ⟨hsplit, hsame⟩ := hends hout
    rw [hsplit] at houtside ⊢
    rw [hsame] at houtside
    exact ⟨out, hout, houtside, rfl⟩
  · rintro ⟨out, hout, houtside, rfl⟩
    obtain ⟨hsplit, hsame⟩ := hends hout
    refine ⟨String.join out, ⟨out, hout, rfl⟩, ?_⟩
    rw [hsplit, hsame]
    exact ⟨houtside, rfl⟩

theorem rewrites_count_first :
    (∃ middle, (countPass s lints).Rewrites text middle ∧
        (tablePass s lints).Rewrites middle text') ↔ Renewed lints text text' := by
  have hrecount : ∀ {out : List String},
      Renewal tableBounds (table lints) (splitLines text) out →
      Renewal tableBounds (table lints) (recount lints.length false (splitLines text))
        (recount lints.length false out) :=
    fun hout => renewal_recount (fun line => not_opens_count_of_table hnames) hout false
  simp only [rewrites_tablePass_iff, rewrites_countPass_iff]
  constructor
  · rintro ⟨middle, ⟨houtside, rfl⟩, out', hout', rfl⟩
    rw [splitLines_recount (wellSplit_splitLines text) houtside] at hout'
    have hclosed := exists_renewal_iff.1 ⟨out', hout'⟩
    rw [endsInside_table_recount] at hclosed
    obtain ⟨out, hout⟩ := exists_renewal_iff.2 hclosed
    exact ⟨out, hout, houtside, by rw [hout'.unique (hrecount hout)]⟩
  · rintro ⟨out, hout, houtside, rfl⟩
    refine ⟨_, ⟨houtside, rfl⟩, _, ?_, rfl⟩
    rw [splitLines_recount (wellSplit_splitLines text) houtside]
    exact hrecount hout

end

/-- The passes over the readme commute: in either order they fail or succeed together, and where
they succeed they leave the same text. -/
theorem passes_commute (hlints : ∀ lint ∈ lints, Lint.IsName lint.name ∧
      '\n' ∉ lint.description.toList) :
    let tableFirst := runPasses s.root true d [tablePass s lints, countPass s lints]
    let countFirst := runPasses s.root true d [countPass s lints, tablePass s lints]
    (tableFirst.failure = none ↔ countFirst.failure = none) ∧
      (tableFirst.failure = none → ∃ text, tableFirst.disk.readText s.readmePath = .ok text ∧
        countFirst.disk.readText s.readmePath = .ok text) := by
  intro tableFirst countFirst
  have hnames := fun lint hlint => (hlints lint hlint).1
  have hdescriptions := fun lint hlint => (hlints lint hlint).2
  have hboth : ∀ text', (tableFirst.failure = none ∧
      tableFirst.disk.readText s.readmePath = .ok text') ↔
        countFirst.failure = none ∧ countFirst.disk.readText s.readmePath = .ok text' := by
    intro text'
    have htable := @runPasses_pair_iff s.root s.readmePath d (tablePass s lints)
      (countPass s lints) text' rfl rfl
    have hcount := @runPasses_pair_iff s.root s.readmePath d (countPass s lints)
      (tablePass s lints) text' rfl rfl
    rw [htable, hcount]
    refine exists_congr fun text => ?_
    rw [exists_and_left, exists_and_left, rewrites_table_first hnames hdescriptions,
      rewrites_count_first hnames]
  refine ⟨⟨fun htable => ?_, fun hcount => ?_⟩, fun htable => ?_⟩
  · obtain ⟨text, hread⟩ := exists_readText_of_pair htable rfl
    exact ((hboth text).1 ⟨htable, hread⟩).1
  · obtain ⟨text, hread⟩ := exists_readText_of_pair hcount rfl
    exact ((hboth text).2 ⟨hcount, hread⟩).1
  · obtain ⟨text, hread⟩ := exists_readText_of_pair htable rfl
    exact ⟨text, hread, ((hboth text).1 ⟨htable, hread⟩).2⟩

/-- A checkout with a sentence right above the title line of a table and one in the table. -/
def crowdedDisk : Disk :=
  ⟨[(["p"], .directory),
    (["p", "README.md"], .file ("There are 1 lints included in this crate:\nname |\n" ++
      "There are 2 lints included in this crate:\n\n").toUTF8)]⟩

theorem passes_commute_crowded :
    let s := Settings.ofConfig ⟨"/p"⟩ none none
    let lints : List Lint := [⟨"lib", "name", .warn, "about"⟩]
    let tableFirst := runPasses s.root true crowdedDisk [tablePass s lints, countPass s lints]
    let countFirst := runPasses s.root true crowdedDisk [countPass s lints, tablePass s lints]
    tableFirst.failure = none ∧ countFirst.failure = none ∧
      ∃ text, tableFirst.disk.readText s.readmePath = .ok text ∧
        countFirst.disk.readText s.readmePath = .ok text := by
  intro s lints tableFirst countFirst
  have hlints : ∀ lint ∈ lints, Lint.IsName lint.name ∧ '\n' ∉ lint.description.toList := by
    simp only [lints, List.mem_singleton, forall_eq]
    exact ⟨by decide, by decide⟩
  have htable : tableFirst.failure = none := by decide +kernel
  obtain ⟨hboth, hsame⟩ := @passes_commute crowdedDisk s lints hlints
  exact ⟨htable, hboth.1 htable, hsame htable⟩

end LintLedger.Update
