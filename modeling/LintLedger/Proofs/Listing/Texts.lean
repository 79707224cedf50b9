import LintLedger.Proofs.Listing.Lines
import LintLedger.Proofs.Region.Inside

/-!
# Listings in texts

What is read again from the texts that the passes leave. The table and the sentence share a text:
it is cut into lines and joined again between the two passes, so a generated line that holds a
line feed comes back as several lines. Where none does, the listings are in step; where one does
and a region holds it, they are not.
-/

namespace LintLedger.Listing

open Region Text

variable {lints : List Lint}

/-! ## The table and the sentence -/

theorem insideAfter_count_true (line : String) : countBounds.insideAfter true line = false := by
  simp [insideAfter, countBounds_closes line]

/-- Every line closes the region of the sentence, so nothing stands in it. -/
theorem body_eq_nil_of_count {body : List String}
    (h : ∀ line ∈ body, ¬ countBounds.closes line) : body = [] := by
  cases body with
  | nil => rfl
  | cons line body => exact (h line List.mem_cons_self (countBounds_closes line)).elim

/-- The pass of the sentence only puts it in the place of lines that open its region. -/
def Recounted (n : Nat) (line line' : String) : Prop :=
  line' = line ∨ (countBounds.opens line ∧ line' = countSentence n)

theorem recounted_of_renewal {n : Nat} {lines out : List String}
    (h : Renewal countBounds [countSentence n] lines out) :
    List.Forall₂ (Recounted n) lines out := by
  induction h with
  | nil => exact .nil
  | skip _ _ ih => exact .cons (.inl rfl) ih
  | @region opening closing body lines out hopening hbody _ _ ih =>
      rw [body_eq_nil_of_count hbody]
      exact .cons (.inr ⟨hopening, rfl⟩) (.cons (.inl rfl) ih)

theorem unnoticed_of_recounted (h : ∀ lint ∈ lints, Lint.IsName lint.name) {n : Nat}
    {line line' : String} (hline : Recounted n line line') :
    Unnoticed tableBounds (table lints) line line' := by
  rcases hline with rfl | ⟨hopens, rfl⟩
  · exact .inl rfl
  · obtain ⟨hopens₁, hcloses₁⟩ := table_ignores_count_opening hopens
    obtain ⟨hopens₂, hcloses₂⟩ := table_ignores_countSentence n
    refine .inr ⟨fun hmem => ?_, hopens₁, hcloses₁, hopens₂, hcloses₂⟩
    obtain ⟨c, cs, htext, hc, hT⟩ := table_cons h hmem
    exact not_opens_count htext hc hT hopens

/-- A line that opens the table is not one that the pass of the sentence replaces. -/
theorem mem_of_recounted {n : Nat} {lines out : List String}
    (h : List.Forall₂ (Recounted n) lines out) {line : String} (hline : line ∈ lines)
    (hopens : tableBounds.opens line) : line ∈ out := by
  induction h with
  | nil => simp at hline
  | @cons first first' rest rest' hfirst _ ih =>
      rcases List.mem_cons.1 hline with rfl | hline
      · rcases hfirst with rfl | ⟨hcounts, -⟩
        · exact List.mem_cons_self
        · exact ((table_ignores_count_opening hcounts).1 hopens).elim
      · exact List.mem_cons_of_mem first' (ih hline)

section

variable {readme : String} {tableOut countOut : List String} {n : Nat}

theorem wellSplit_count
    (hcount : Renewal countBounds [countSentence n] (splitLines (String.join tableOut)) countOut) :
    WellSplit countOut := by
  refine hcount.wellSplit ?_ (wellSplit_splitLines _)
  intro line hline
  rw [List.mem_singleton.1 hline]
  exact countSentence_terminated n

theorem count_inStep
    (hcount : Renewal countBounds [countSentence n] (splitLines (String.join tableOut)) countOut) :
    InStep countBounds [countSentence n] (splitLines (String.join countOut)) := by
  rw [splitLines_join (wellSplit_count hcount)]
  exact hcount.inStep (countSentence_accepted n)

theorem table_inStep (hnames : ∀ lint ∈ lints, Lint.IsName lint.name)
    (htable : Renewal tableBounds (table lints) (splitLines readme) tableOut)
    (hcount : Renewal countBounds [countSentence n] (splitLines (String.join tableOut)) countOut)
    (h : (∃ line ∈ splitLines readme, tableBounds.opens line) →
      ∀ lint ∈ lints, '\n' ∉ lint.description.toList) :
    InStep tableBounds (table lints) (splitLines (String.join countOut)) := by
  have htableOut : WellSplit tableOut ∧ InStep tableBounds (table lints) tableOut := by
    by_cases hopens : ∃ line ∈ splitLines readme, tableBounds.opens line
    · have hterminated : ∀ line ∈ table lints, Terminated line :=
        fun line hline => table_terminated hnames (h hopens) hline
      exact ⟨htable.wellSplit hterminated (wellSplit_splitLines readme),
        htable.inStep (table_accepted hnames)⟩
    · have hnone : ∀ line ∈ splitLines readme, ¬ tableBounds.opens line :=
        fun line hline hline' => hopens ⟨line, hline, hline'⟩
      rw [htable.eq_of_not_opens hnone]
      exact ⟨wellSplit_splitLines readme, inStep_of_not_opens hnone⟩
  obtain ⟨hsplit, hstep⟩ := htableOut
  have hchanges := recounted_of_renewal hcount
  rw [splitLines_join hsplit] at hchanges
  rw [splitLines_join (wellSplit_count hcount)]
  exact hstep.congr (hchanges.imp fun _ _ => unnoticed_of_recounted hnames)

/-- A table that is in step again holds every row on a line of its own. -/
theorem not_newline_of_table
    (htable : Renewal tableBounds (table lints) (splitLines readme) tableOut)
    (hcount : Renewal countBounds [countSentence n] (splitLines (String.join tableOut)) countOut)
    (hagain : Renewal tableBounds (table lints) (splitLines (String.join countOut))
      (splitLines (String.join countOut)))
    (hopens : ∃ line ∈ splitLines readme, tableBounds.opens line) :
    ∀ lint ∈ lints, '\n' ∉ lint.description.toList := by
  intro lint hlint hnewline
  obtain ⟨line, hline, hopening⟩ := htable.exists_opens (wellSplit_splitLines readme) hopens
    fun _ _ _ => ⟨_, _, rfl, header_opens _, header_terminated _⟩
  have hline' := mem_of_recounted (recounted_of_renewal hcount) hline hopening
  have hcountOut := splitLines_join (wellSplit_count hcount)
  rw [hcountOut] at hagain
  obtain ⟨width, hrow⟩ := exists_row_mem_table hlint
  obtain ⟨cs, ds, hne, htext⟩ := row_newline hnewline width
  have hmem := hagain.mem_of_opens hline' hopening (row width lint) hrow
  exact hne ((wellSplit_count hcount).newline_not_mem hmem htext)

end

/-- An empty line leads out of the region of the sentence, and opens none. -/
theorem count_left_of_table_closes {line : String} (h : tableBounds.closes line) (inside : Bool) :
    countBounds.insideAfter inside line = false := by
  cases inside with
  | true => exact insideAfter_count_true line
  | false =>
      by_contra hopens
      have hopens' : countBounds.opens line := by simpa [insideAfter] using hopens
      obtain ⟨digits, rest, -, -, hcontent⟩ := (countBounds_opens_iff line).1 hopens'
      rw [(tableBounds_closes_iff line).1 h] at hcontent
      simp at hcontent

/-- Whether a sentence is left without a line behind it is the same before and after the tables
are generated anew, whatever stands in their rows. -/
theorem count_isOk_of_table {readme : String} {tableOut : List String}
    (htable : Renewal tableBounds (table lints) (splitLines readme) tableOut)
    (generate : Nat → List String) :
    (countBounds.regenerate generate (splitLines (String.join tableOut))).result.isOk =
      (countBounds.regenerate generate (splitLines readme)).result.isOk := by
  have hsame : countBounds.endsInside false (splitLines (String.join tableOut)) =
      countBounds.endsInside false (splitLines readme) :=
    htable.endsInside_eq (fun _ hcloses => count_left_of_table_closes hcloses)
      (fun _ => table_complete) (wellSplit_splitLines readme) false
  rw [isOk_regenerate, isOk_regenerate, hsame]

/-! ## The group -/

section

variable {entryText name : String} {groupOut : List String}

theorem group_inStep (hnames : ∀ lint ∈ lints, Lint.IsName lint.name)
    (hgroup : Renewal (groupBounds name) (group lints) (splitLines entryText) groupOut)
    (h : (∃ line ∈ splitLines entryText, (groupBounds name).opens line) →
      ∀ lint ∈ lints, '\n' ∉ lint.module.toList ∧ ¬ "]);".toList <:+: lint.module.toList) :
    InStep (groupBounds name) (group lints) (splitLines (String.join groupOut)) := by
  by_cases hopens : ∃ line ∈ splitLines entryText, (groupBounds name).opens line
  · have hmodules := h hopens
    have hterminated : ∀ line ∈ group lints, Terminated line := by
      intro line hline
      obtain ⟨lint, hlint, rfl⟩ := mem_group_iff.1 hline
      exact entry_terminated (hnames lint hlint) (hmodules lint hlint).1
    rw [splitLines_join (hgroup.wellSplit hterminated (wellSplit_splitLines entryText))]
    exact hgroup.inStep (group_accepted hnames (fun lint hlint => (hmodules lint hlint).2) name)
  · have hnone : ∀ line ∈ splitLines entryText, ¬ (groupBounds name).opens line :=
      fun line hline hline' => hopens ⟨line, hline, hline'⟩
    rw [hgroup.eq_of_not_opens hnone, join_splitLines]
    exact inStep_of_not_opens hnone

/-- A group that is in step again holds every entry on a line of its own, and none of them ends
the call. -/
theorem modules_of_group (hnames : ∀ lint ∈ lints, Lint.IsName lint.name)
    (hgroup : Renewal (groupBounds name) (group lints) (splitLines entryText) groupOut)
    (hagain : Renewal (groupBounds name) (group lints) (splitLines (String.join groupOut))
      (splitLines (String.join groupOut)))
    (hopens : ∃ line ∈ splitLines entryText, (groupBounds name).opens line) :
    ∀ lint ∈ lints, '\n' ∉ lint.module.toList ∧ ¬ "]);".toList <:+: lint.module.toList := by
  have hstill := hgroup.exists_opens (wellSplit_splitLines entryText) hopens
    fun line hline hterminated => ⟨line, _, rfl, hline, hterminated⟩
  intro lint hlint
  have hentry : entry lint ∈ group lints := mem_group_iff.2 ⟨lint, hlint, rfl⟩
  constructor
  · intro hnewline
    obtain ⟨line, hline, hopening⟩ := hstill
    obtain ⟨cs, ds, hne, htext⟩ := entry_newline hnewline
    have hmem := hagain.mem_of_opens hline hopening (entry lint) hentry
    exact hne ((wellSplit_splitLines _).newline_not_mem hmem htext)
  · -- Closing lines among the entries would be more each time.
    obtain ⟨k, hcount, hpos⟩ := hagain.countP_closes rfl
    have hk : 0 < k := hpos hstill
    have hnone : (group lints).countP (groupBounds name).closes = 0 := by
      have hzero : k * (group lints).countP (groupBounds name).closes = 0 := by omega
      exact (Nat.mul_eq_zero.1 hzero).resolve_left (by omega)
    rw [← entry_closes_iff (hnames lint hlint) name]
    exact List.countP_eq_zero.1 hnone (entry lint) hentry

end

end LintLedger.Listing
