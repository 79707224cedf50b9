import LintLedger.Proofs.Update.Order
import LintLedger.Proofs.Update.Twice

/-!
# Sentences that an update overlooks

Whatever line follows a sentence ends its region and is kept, even if it is a sentence too. So an
update brings every sentence in step but for those right behind one that it replaced. A sentence
in a table does not count: it goes with what stood in the table, and the new table has none.
-/

namespace LintLedger

namespace Text

/-! ## Places in a list of lines -/

/-- Whether a line stands somewhere behind lines that have a property. -/
def StandsBehind (p : List String → Prop) (lines : List String) (line : String) : Prop :=
  ∃ front back, lines = front ++ line :: back ∧ p front

variable {p : List String → Prop} {line : String}

theorem not_standsBehind_nil : ¬ StandsBehind p [] line := by
  rintro ⟨front, back, hnil, -⟩
  simp at hnil

theorem standsBehind_cons_iff {first : String} {lines : List String} :
    StandsBehind p (first :: lines) line ↔
      line = first ∧ p [] ∨ StandsBehind (fun front => p (first :: front)) lines line := by
  constructor
  · rintro ⟨front, back, heq, hp⟩
    cases front with
    | nil =>
        obtain ⟨rfl, -⟩ := List.cons.inj heq
        exact .inl ⟨rfl, hp⟩
    | cons head front =>
        obtain ⟨rfl, rfl⟩ := List.cons.inj heq
        exact .inr ⟨front, back, rfl, hp⟩
  · rintro (⟨rfl, hp⟩ | ⟨front, back, rfl, hp⟩)
    · exact ⟨[], lines, rfl, hp⟩
    · exact ⟨first :: front, back, rfl, hp⟩

theorem standsBehind_append_iff {front lines : List String} (h : line ∉ front) :
    StandsBehind p (front ++ lines) line ↔
      StandsBehind (fun more => p (front ++ more)) lines line := by
  induction front generalizing p with
  | nil => rfl
  | cons first front ih =>
      have hfirst : line ≠ first := List.ne_of_not_mem_cons h
      rw [List.cons_append, standsBehind_cons_iff, ih (List.not_mem_of_not_mem_cons h)]
      simp [hfirst]

end Text

namespace Listing

open Region Text

/-! ## The lines that are kept -/

/-- Whether a line stands right behind a sentence that is replaced. `inside` says that one was
replaced right before the first line. -/
def Behind (inside : Bool) : List String → String → Prop :=
  StandsBehind fun front => countBounds.endsInside inside front = true

/-- Whether a line stands outside of the tables and right behind a sentence that is replaced.
`inTable` and `inside` say where the first line stands. -/
def BehindOutside (inTable inside : Bool) : List String → String → Prop :=
  StandsBehind fun front => tableBounds.endsInside inTable front = false ∧
    countBounds.endsInside inside front = true

variable {line : String} {lines : List String}

theorem behind_cons_iff {inside : Bool} {first : String} :
    Behind inside (first :: lines) line ↔
      line = first ∧ inside = true ∨ Behind (countBounds.insideAfter inside first) lines line :=
  standsBehind_cons_iff

theorem behindOutside_cons_iff {inTable inside : Bool} {first : String} :
    BehindOutside inTable inside (first :: lines) line ↔
      line = first ∧ inTable = false ∧ inside = true ∨
        BehindOutside (tableBounds.insideAfter inTable first)
          (countBounds.insideAfter inside first) lines line :=
  standsBehind_cons_iff

/-- Of the old sentences those are left that stand right behind one that was replaced. -/
theorem mem_recount_iff {n : Nat} (hopens : countBounds.opens line) (hne : line ≠ countSentence n)
    (inside : Bool) : line ∈ recount n inside lines ↔ Behind inside lines line := by
  induction lines generalizing inside with
  | nil => simp [recount, Behind, not_standsBehind_nil]
  | cons first lines ih =>
      have hfirst : line = (if countBounds.insideAfter inside first then countSentence n else first)
          ↔ line = first ∧ inside = true := by
        cases inside with
        | true => simp [insideAfter_count_true]
        | false =>
            have hafter : countBounds.insideAfter false first = countBounds.opens first := rfl
            rw [hafter]
            constructor
            · intro heq
              split at heq
              · exact (hne heq).elim
              · next hnot =>
                  rw [heq] at hopens
                  exact (hnot hopens).elim
            · simp
      rw [recount, List.mem_cons, hfirst, ih, behind_cons_iff]

/-- What stands in a table is not kept, and the line behind it is the first outside. -/
theorem behindOutside_table_iff {body : List String} {closing : String}
    (hbody : ∀ line ∈ body, ¬ tableBounds.closes line) (hclosing : tableBounds.closes closing)
    (inside : Bool) :
    BehindOutside true inside (body ++ closing :: lines) line ↔
      BehindOutside false false lines line := by
  induction body generalizing inside with
  | nil =>
      have htable : tableBounds.insideAfter true closing = false := by
        simpa [insideAfter] using hclosing
      rw [List.nil_append, behindOutside_cons_iff, htable, count_left_of_table_closes hclosing]
      simp
  | cons first body ih =>
      have htable : tableBounds.insideAfter true first = true := by
        simpa [insideAfter] using hbody first List.mem_cons_self
      rw [List.cons_append, behindOutside_cons_iff, htable,
        ih fun other hmem => hbody other (List.mem_cons_of_mem first hmem)]
      simp

/-- The sentences right behind a replaced one are the same before and after a table is renewed, but
for those in a table. -/
theorem behind_renewal_iff {generated out : List String}
    (hgenerated : ∀ line ∈ generated, ¬ countBounds.opens line)
    (hopens : countBounds.opens line) (h : Renewal tableBounds generated lines out)
    (inside : Bool) : Behind inside out line ↔ BehindOutside false inside lines line := by
  induction h generalizing inside with
  | nil => simp [Behind, BehindOutside, not_standsBehind_nil]
  | @skip first lines out hnot _ ih =>
      have htable : tableBounds.insideAfter false first = false := by
        simpa [insideAfter] using hnot
      rw [behind_cons_iff, behindOutside_cons_iff, htable, ih]
      simp
  | @region opening closing body lines out hopening hbody hclosing _ ih =>
      have hleaves := count_left_of_table_closes hclosing
      have hkept : tableBounds.kept opening = [] := rfl
      have hmem : line ∉ generated := fun hline => hgenerated line hline hopens
      have hne_opening : line ≠ opening := by
        rintro rfl
        exact (table_ignores_count_opening hopens).1 hopening
      have hne_closing : line ≠ closing := by
        rintro rfl
        have hnot : countBounds.opens line = false := hleaves false
        rw [hopens] at hnot
        cases hnot
      have hout : Behind inside (generated ++ closing :: out) line ↔ Behind false out line := by
        rw [Behind, standsBehind_append_iff hmem, standsBehind_cons_iff]
        simp only [hne_closing, false_and, false_or, endsInside_append]
        simp only [endsInside, List.foldl_cons, hleaves]
        rfl
      have hlines : BehindOutside false inside (opening :: body ++ closing :: lines) line ↔
          BehindOutside false false lines line := by
        have htable : tableBounds.insideAfter false opening = true := hopening
        rw [List.cons_append, behindOutside_cons_iff, htable,
          behindOutside_table_iff hbody hclosing]
        simp [hne_opening]
      rw [hkept, List.nil_append, hout, hlines, ih]

end Listing

namespace Update

open Listing Region Text

variable {d : Disk} {s : Settings} {lints : List Lint}

/-! ## The update -/

theorem Pass.exists_verdict {p : Pass} {region : Region} {text : String}
    (hregion : p.region = .ok region) (htext : d.readText p.path = .ok text)
    (h : region.endsInside false (splitLines text) = false) :
    ∃ changed, p.verdict d = .ok changed := by
  obtain ⟨out, hout⟩ : ∃ out, Renewal region p.lines (splitLines text) out :=
    exists_renewal_iff.2 h
  refine ⟨decide (out ≠ splitLines text), ?_⟩
  simp only [Pass.verdict, hregion, htext, renewal_iff.1 hout]

/-- An update of two files that can be read succeeds if no region is left open in their texts. -/
theorem failure_run_of_closed {readme entry : String}
    (hfiles : d.placeOf s.readmePath ≠ d.placeOf s.entryPath)
    (hreadme : d.readText s.readmePath = .ok readme) (hentry : d.readText s.entryPath = .ok entry)
    (htable : tableBounds.endsInside false (splitLines readme) = false)
    (hcount : countBounds.endsInside false (splitLines readme) = false)
    (hgroup : (groupBounds s.group).endsInside false (splitLines entry) = false) :
    (run d s lints true).failure = none := by
  obtain ⟨place, _, hplace, -⟩ := Disk.readText_eq_ok hreadme
  obtain ⟨table, htable⟩ :=
    Pass.exists_verdict (p := tablePass s lints) tableRegion_eq hreadme htable
  obtain ⟨count, hcount⟩ :=
    Pass.exists_verdict (p := countPass s lints) countRegion_eq hreadme hcount
  obtain ⟨group, hgroup⟩ :=
    Pass.exists_verdict (p := groupPass s lints) (groupRegion_eq s.group) hentry hgroup
  have hplace' : d.placeOf s.entryPath ≠ .ok place := by
    rw [← hplace]
    exact Ne.symm hfiles
  rw [← verdict_groupPass hplace hplace'] at hgroup
  rcases verdicts_countPass htable with ⟨line, _, herror, -⟩ | ⟨_, count', -, hcount'⟩
  · rw [hcount] at herror
    cases herror
  · exact (run_of_verdicts true htable hcount' hgroup).1

/-- What an update of two files makes of the readme: the tables are renewed, and then the sentences
are. -/
theorem exists_recounted (hfiles : d.placeOf s.readmePath ≠ d.placeOf s.entryPath)
    (hlints : ∀ lint ∈ lints, Lint.IsName lint.name ∧ '\n' ∉ lint.description.toList)
    (hrun : (run d s lints true).failure = none) :
    ∃ before after out, d.readText s.readmePath = .ok before ∧
      (run d s lints true).disk.readText s.readmePath = .ok after ∧
      Renewal tableBounds (table lints) (splitLines before) out ∧
      splitLines after = recount lints.length false out := by
  obtain ⟨before, entry, tableOut, countOut, groupOut, hrewritten⟩ := rewritten_of_run hfiles hrun
  have hnames : ∀ lint ∈ lints, Lint.IsName lint.name := fun lint hlint => (hlints lint hlint).1
  have hterminated : ∀ line ∈ table lints, Terminated line :=
    fun line => table_terminated hnames fun lint hlint => (hlints lint hlint).2
  have hwhole : WellSplit tableOut :=
    hrewritten.table.wellSplit hterminated (wellSplit_splitLines before)
  have hcount := hrewritten.count
  rw [splitLines_join hwhole] at hcount
  refine ⟨before, String.join countOut, tableOut, hrewritten.readmeBefore, hrewritten.readmeAfter,
    hrewritten.table, ?_⟩
  rw [eq_recount_of_renewal hcount]
  exact splitLines_recount hwhole (exists_renewal_iff.1 ⟨countOut, hcount⟩)

/-- After an update of two files every sentence in the readme says how many lints there are,
exactly if this is so of the sentences that stood there outside of the tables and right behind a
sentence that was replaced. -/
theorem sentences_current_iff (hfiles : d.placeOf s.readmePath ≠ d.placeOf s.entryPath)
    (hlints : ∀ lint ∈ lints, Lint.IsName lint.name ∧ '\n' ∉ lint.description.toList)
    (hrun : (run d s lints true).failure = none) :
    ∃ before after, d.readText s.readmePath = .ok before ∧
      (run d s lints true).disk.readText s.readmePath = .ok after ∧
      ((∀ line ∈ splitLines after, countBounds.opens line →
          line = countSentence lints.length) ↔
        ∀ front line back, splitLines before = front ++ line :: back →
          tableBounds.endsInside false front = false →
          countBounds.endsInside false front = true → countBounds.opens line →
          line = countSentence lints.length) := by
  obtain ⟨before, after, out, hbefore, hafter, htable, hrecount⟩ :=
    exists_recounted hfiles hlints hrun
  have hnames : ∀ lint ∈ lints, Lint.IsName lint.name := fun lint hlint => (hlints lint hlint).1
  have hleft : ∀ line, countBounds.opens line → line ≠ countSentence lints.length →
      (line ∈ splitLines after ↔ BehindOutside false false (splitLines before) line) := by
    intro line hopens hne
    rw [hrecount, mem_recount_iff hopens hne]
    exact behind_renewal_iff (fun line => not_opens_count_of_table hnames) hopens htable false
  refine ⟨before, after, hbefore, hafter, ?_, ?_⟩
  · intro hall front line back hsplit houtside hbehind hopens
    by_contra hne
    have hmem := (hleft line hopens hne).2 ⟨front, back, hsplit, houtside, hbehind⟩
    exact hne (hall line hmem hopens)
  · intro hall line hline hopens
    by_contra hne
    obtain ⟨front, back, hsplit, houtside, hbehind⟩ := (hleft line hopens hne).1 hline
    exact hne (hall front line back hsplit houtside hbehind hopens)

/-- A checkout with a given readme and an empty entry file. -/
private def readmeDisk (readme : String) : Disk :=
  ⟨[(["p"], .directory), (["p", "src"], .directory), (["p", "src", "lib.rs"], .file "".toUTF8),
    (["p", "README.md"], .file readme.toUTF8)]⟩

private def plainSettings : Settings :=
  Settings.ofConfig ⟨"/p"⟩ none none

private theorem placeOf_readme (readme : String) :
    (readmeDisk readme).placeOf plainSettings.readmePath = .ok ["p", "README.md"] := rfl

private theorem placeOf_entry (readme : String) :
    (readmeDisk readme).placeOf plainSettings.entryPath = .ok ["p", "src", "lib.rs"] := rfl

private theorem placeOf_readmeDisk_ne (readme : String) :
    (readmeDisk readme).placeOf plainSettings.readmePath ≠
      (readmeDisk readme).placeOf plainSettings.entryPath := by
  rw [placeOf_readme, placeOf_entry]
  simp

private theorem readText_readmeDisk (readme : String) :
    (readmeDisk readme).readText plainSettings.readmePath = .ok readme :=
  Disk.readText_of_file (placeOf_readme readme) rfl (Disk.fromUTF8?_toUTF8 readme)

private theorem failure_run_readmeDisk {readme : String} (lints : List Lint)
    (htable : tableBounds.endsInside false (splitLines readme) = false)
    (hcount : countBounds.endsInside false (splitLines readme) = false) :
    (run (readmeDisk readme) plainSettings lints true).failure = none := by
  have hentry : (readmeDisk readme).readText plainSettings.entryPath = .ok "" :=
    Disk.readText_of_file (placeOf_entry readme) rfl (Disk.fromUTF8?_toUTF8 "")
  exact failure_run_of_closed (placeOf_readmeDisk_ne readme) (readText_readmeDisk readme) hentry
    htable hcount rfl

private def tabledBody : List String :=
  ["There are 8 lints included in this crate:\n", "There are 9 lints included in this crate:\n"]

/-- A sentence above a table, and two of them in the table. -/
private def tabled : List String :=
  "There are 7 lints included in this crate:\n" :: "name |\n" :: (tabledBody ++ ["\n"])

private theorem not_behindOutside_tabled {line : String} (hopens : countBounds.opens line) :
    ¬ BehindOutside false false tabled line := by
  have htitle : ¬ countBounds.opens "name |\n" := by decide +kernel
  have htable : tableBounds.insideAfter (tableBounds.insideAfter false
      "There are 7 lints included in this crate:\n") "name |\n" = true := by decide +kernel
  have hbody : ∀ line ∈ tabledBody, ¬ tableBounds.closes line := by decide +kernel
  have hclosing : tableBounds.closes "\n" := by decide +kernel
  intro h
  rcases behindOutside_cons_iff.1 h with ⟨-, -, hinside⟩ | h
  · cases hinside
  rcases behindOutside_cons_iff.1 h with ⟨rfl, -⟩ | h
  · exact htitle hopens
  rw [htable, behindOutside_table_iff hbody hclosing] at h
  exact not_standsBehind_nil h

theorem sentences_current_iff_tabled :
    let lints : List Lint := [⟨"lib", "a", .warn, "about"⟩]
    let d := readmeDisk (String.join tabled)
    (run d plainSettings lints true).failure = none ∧
      ∃ after, (run d plainSettings lints true).disk.readText plainSettings.readmePath = .ok after ∧
        ∀ line ∈ splitLines after, countBounds.opens line → line = countSentence 1 := by
  intro lints d
  have hlints : ∀ lint ∈ lints, Lint.IsName lint.name ∧ '\n' ∉ lint.description.toList := by
    simp only [lints, List.mem_singleton, forall_eq]
    exact ⟨by decide, by decide⟩
  have hlines : splitLines (String.join tabled) = tabled := by decide +kernel
  have hends : tableBounds.endsInside false tabled = false ∧
      countBounds.endsInside false tabled = false := by decide +kernel
  have hrun : (run d plainSettings lints true).failure = none :=
    failure_run_readmeDisk lints (by rw [hlines]; exact hends.1) (by rw [hlines]; exact hends.2)
  obtain ⟨before, after, hbefore, hafter, hiff⟩ :=
    sentences_current_iff (placeOf_readmeDisk_ne _) hlints hrun
  obtain rfl := Except.ok.inj (hbefore.symm.trans (readText_readmeDisk _))
  refine ⟨hrun, after, hafter, hiff.2 ?_⟩
  rw [hlines]
  intro front line back hsplit houtside hbehind hopens
  exact (not_behindOutside_tabled hopens ⟨front, back, hsplit, houtside, hbehind⟩).elim

/-- The second of two sentences, one right below the other, says after an update what it said
before. -/
theorem sentence_can_be_overlooked :
    ¬ ∀ (d : Disk) (s : Settings) (lints : List Lint) (after : String),
      d.placeOf s.readmePath ≠ d.placeOf s.entryPath →
      (∀ lint ∈ lints, Lint.IsName lint.name ∧ '\n' ∉ lint.description.toList) →
      (run d s lints true).failure = none →
      (run d s lints true).disk.readText s.readmePath = .ok after →
      ∀ line ∈ splitLines after, countBounds.opens line → line = countSentence lints.length := by
  intro hcurrent
  let lines := ["There are 1 lints included in this crate:\n",
    "There are 2 lints included in this crate:\n"]
  have hlines : splitLines (String.join lines) = lines := by decide +kernel
  have hnone : ∀ line ∈ lines, ¬ tableBounds.opens line := by decide +kernel
  have hends : tableBounds.endsInside false lines = false ∧
      countBounds.endsInside false lines = false := by decide +kernel
  have hrun : (run (readmeDisk (String.join lines)) plainSettings [] true).failure = none :=
    failure_run_readmeDisk [] (by rw [hlines]; exact hends.1) (by rw [hlines]; exact hends.2)
  have hlast : "There are 2 lints included in this crate:\n" ∈ recount 0 false lines := by
    decide +kernel
  obtain ⟨before, after, out, hbefore, hafter, htable, hrecount⟩ :=
    exists_recounted (placeOf_readmeDisk_ne _) (by simp) hrun
  obtain rfl := Except.ok.inj (hbefore.symm.trans (readText_readmeDisk _))
  rw [hlines] at htable
  rw [htable.eq_of_not_opens hnone] at hrecount
  have hall := hcurrent _ plainSettings [] after (placeOf_readmeDisk_ne _) (by simp) hrun hafter _
    (hrecount.symm ▸ hlast) (by decide +kernel)
  exact absurd hall (by decide)

end Update

end LintLedger
