import LintLedger.Proofs.Listing.Texts

/-!
# The sentence beside the table

Putting the sentence anew is a walk over the lines with one bit of memory: the line behind a
sentence that was replaced is kept as it is, even if it is a sentence too. Whatever a table is
filled with, the walk goes over it as it would go over any other lines: it reaches the empty line
behind the table, and from there on it is as if the table had not been. So it makes no difference
which of the two listings is renewed first.
-/

namespace LintLedger.Listing

open Region Text

/-! ## The walk -/

/-- The lines with every sentence replaced that can be. `inside` says that a sentence was replaced
right before. -/
def recount (n : Nat) (inside : Bool) : List String → List String
  | [] => []
  | line :: lines =>
    let opened := countBounds.insideAfter inside line
    (if opened then countSentence n else line) :: recount n opened lines

theorem insideAfter_count_of_not_opens {line : String} (h : ¬ countBounds.opens line)
    (inside : Bool) : countBounds.insideAfter inside line = false := by
  cases inside with
  | true => exact insideAfter_count_true line
  | false => simpa [insideAfter] using h

theorem opens_of_insideAfter {line : String} {inside : Bool}
    (h : countBounds.insideAfter inside line = true) : countBounds.opens line := by
  by_contra hnot
  rw [insideAfter_count_of_not_opens hnot] at h
  cases h

theorem recount_cons_of_not_opens {line : String} (h : ¬ countBounds.opens line) (n : Nat)
    (inside : Bool) (lines : List String) :
    recount n inside (line :: lines) = line :: recount n false lines := by
  simp [recount, insideAfter_count_of_not_opens h]

theorem recount_append (n : Nat) (inside : Bool) (front back : List String) :
    recount n inside (front ++ back) =
      recount n inside front ++ recount n (countBounds.endsInside inside front) back := by
  induction front generalizing inside with
  | nil => rfl
  | cons line front ih =>
      rw [List.cons_append, recount, recount, ih, List.cons_append]
      rfl

theorem recount_of_not_opens {lines : List String} (h : ∀ line ∈ lines, ¬ countBounds.opens line)
    (n : Nat) (inside : Bool) : recount n inside lines = lines := by
  induction lines generalizing inside with
  | nil => rfl
  | cons line lines ih =>
      have hrest := ih fun other hmem => h other (List.mem_cons_of_mem line hmem)
      rw [recount_cons_of_not_opens (h line List.mem_cons_self), hrest]

/-- A line of the walk is the sentence in the place of another one, or was there. -/
theorem mem_recount {n : Nat} {inside : Bool} {lines : List String} {line : String}
    (h : line ∈ recount n inside lines) : line = countSentence n ∨ line ∈ lines := by
  induction lines generalizing inside with
  | nil => simp [recount] at h
  | cons first lines ih =>
      rw [recount] at h
      rcases List.mem_cons.1 h with hfirst | hrest
      · split at hfirst
        · exact .inl hfirst
        · exact .inr (by simp [hfirst])
      · rcases ih hrest with hsentence | hmem
        · exact .inl hsentence
        · exact .inr (List.mem_cons_of_mem first hmem)

/-! ## The pass of the sentence -/

theorem eq_recount_of_renewal {n : Nat} {lines out : List String}
    (h : Renewal countBounds [countSentence n] lines out) : out = recount n false lines := by
  induction h with
  | nil => rfl
  | skip hnot _ ih => rw [recount_cons_of_not_opens hnot, ih]
  | @region opening closing body lines out hopening hbody _ _ ih =>
      have hopened : countBounds.insideAfter false opening = true := by
        simpa [insideAfter] using hopening
      have hkept : countBounds.kept opening = [] := rfl
      rw [body_eq_nil_of_count hbody, ih, hkept]
      simp [recount, hopened, insideAfter_count_true]

/-- Renewing the sentence is the walk, and it fails where the walk ends on a sentence. -/
theorem renewal_count_iff {n : Nat} {lines out : List String} :
    Renewal countBounds [countSentence n] lines out ↔
      countBounds.endsInside false lines = false ∧ out = recount n false lines := by
  constructor
  · intro h
    exact ⟨exists_renewal_iff.1 ⟨out, h⟩, eq_recount_of_renewal h⟩
  · rintro ⟨hends, rfl⟩
    obtain ⟨out, h⟩ := exists_renewal_iff.2 hends
    rw [← eq_recount_of_renewal h]
    exact h

theorem splitLines_recount {n : Nat} {lines : List String} (hlines : WellSplit lines)
    (hends : countBounds.endsInside false lines = false) :
    splitLines (String.join (recount n false lines)) = recount n false lines := by
  have hrenewal : Renewal countBounds [countSentence n] lines (recount n false lines) :=
    renewal_count_iff.2 ⟨hends, rfl⟩
  refine splitLines_join (hrenewal.wellSplit ?_ hlines)
  intro line hline
  rw [List.mem_singleton.1 hline]
  exact countSentence_terminated n

/-! ## Both listings -/

section

variable {generated lines out : List String} {n : Nat}

theorem not_opens_table_recount {inside : Bool} {line : String} (h : ¬ tableBounds.opens line) :
    ¬ tableBounds.opens (if countBounds.insideAfter inside line then countSentence n else line) := by
  split
  · exact (table_ignores_countSentence n).1
  · exact h

/-- The walk goes over a renewed table as it goes over the old one. -/
theorem renewal_recount (hgenerated : ∀ line ∈ generated, ¬ countBounds.opens line)
    (h : Renewal tableBounds generated lines out) (inside : Bool) :
    Renewal tableBounds generated (recount n inside lines) (recount n inside out) := by
  induction h generalizing inside with
  | nil => exact .nil
  | skip hnot _ ih => exact .skip (not_opens_table_recount hnot) (ih _)
  | @region opening closing body lines out hopening hbody hclosing _ ih =>
      have hheading : ¬ countBounds.opens opening :=
        fun hopens => (table_ignores_count_opening hopens).1 hopening
      have hleaves := count_left_of_table_closes hclosing
      have hclosed : ∀ state rest,
          recount n state (closing :: rest) = closing :: recount n false rest := by
        intro state rest
        simp [recount, hleaves state]
      have hbefore : recount n inside (opening :: body ++ closing :: lines) =
          opening :: recount n false body ++ closing :: recount n false lines := by
        rw [List.cons_append, recount_cons_of_not_opens hheading, recount_append, hclosed]
        rfl
      have hafter : recount n inside (tableBounds.kept opening ++ generated ++ closing :: out) =
          tableBounds.kept opening ++ generated ++ closing :: recount n false out := by
        have hkept : tableBounds.kept opening = [] := rfl
        rw [hkept, List.nil_append, recount_append, recount_of_not_opens hgenerated, hclosed]
      have hrows : ∀ line ∈ recount n false body, ¬ tableBounds.closes line := by
        intro line hline
        rcases mem_recount hline with rfl | hmem
        · exact (table_ignores_countSentence n).2
        · exact hbody line hmem
      rw [hbefore, hafter]
      exact .region hopening hrows hclosing (ih false)

theorem insideAfter_table_recount (state inside : Bool) (line : String) :
    tableBounds.insideAfter state
        (if countBounds.insideAfter inside line then countSentence n else line) =
      tableBounds.insideAfter state line := by
  cases hopened : countBounds.insideAfter inside line with
  | false => rfl
  | true =>
      have hold := table_ignores_count_opening (opens_of_insideAfter hopened)
      have hnew := table_ignores_countSentence n
      cases state <;> simp [insideAfter, hold, hnew]

/-- No sentence is a delimiter of the table. -/
theorem endsInside_table_recount (state inside : Bool) (lines : List String) :
    tableBounds.endsInside state (recount n inside lines) = tableBounds.endsInside state lines := by
  induction lines generalizing state inside with
  | nil => rfl
  | cons line lines ih =>
      have hrest := ih (tableBounds.insideAfter state line) (countBounds.insideAfter inside line)
      simp only [recount, endsInside, List.foldl_cons, insideAfter_table_recount]
      exact hrest

end

end LintLedger.Listing
