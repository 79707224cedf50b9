import LintLedger.Proofs.Region.Renewal

/-!
# Inside and outside of regions

Whether a line stands inside a region does not depend on the lines that are generated. The regions
of a list of lines cannot be generated anew exactly if the list ends inside one of them. When the
regions of one kind are generated anew, lists that ended inside a region of another kind still do,
and no others, as long as every line that closes a region of the first kind leads out of those of
the second.
-/

namespace LintLedger.Region

open Text

/-- Whether the line behind another one stands inside a region, given whether that one does. -/
def insideAfter (r : Region) (inside : Bool) (line : String) : Bool :=
  if inside then !r.closes line else r.opens line

/-- Whether some lines, the first of which stands inside a region or not, end inside one. -/
def endsInside (r : Region) (inside : Bool) (lines : List String) : Bool :=
  lines.foldl r.insideAfter inside

theorem endsInside_append (r : Region) (inside : Bool) (front back : List String) :
    r.endsInside inside (front ++ back) = r.endsInside (r.endsInside inside front) back :=
  List.foldl_append

/-! ## Generating anew -/

theorem Outcome.isOk_after (o : Outcome) (lines : List String) :
    (o.after lines).result.isOk = o.result.isOk := by
  rcases o with ⟨_, result⟩
  cases result <;> rfl

theorem isOk_regenerateFrom (r : Region) (generate : Nat → List String) (number closed : Nat)
    (opened : Option Nat) (lines : List String) :
    (r.regenerateFrom generate number closed opened lines).result.isOk =
      !r.endsInside opened.isSome lines := by
  induction lines generalizing number closed opened with
  | nil => cases opened <;> rfl
  | cons line lines ih =>
      cases opened with
      | none =>
          by_cases hopens : r.opens line
          · simp [regenerateFrom, hopens, Outcome.isOk_after, ih, endsInside, insideAfter]
          · simp [regenerateFrom, hopens, Outcome.isOk_after, ih, endsInside, insideAfter]
      | some opening =>
          by_cases hcloses : r.closes line
          · simp [regenerateFrom, hcloses, Outcome.isOk_after, ih, endsInside, insideAfter]
          · simp [regenerateFrom, hcloses, ih, endsInside, insideAfter]

theorem isOk_regenerate (r : Region) (generate : Nat → List String) (lines : List String) :
    (r.regenerate generate lines).result.isOk = !r.endsInside false lines :=
  isOk_regenerateFrom r generate 1 0 none lines

theorem exists_renewal_iff {r : Region} {generated lines : List String} :
    (∃ out, Renewal r generated lines out) ↔ r.endsInside false lines = false := by
  have hok := isOk_regenerate r (fun _ => generated) lines
  constructor
  · rintro ⟨out, h⟩
    rw [renewal_iff.1 h] at hok
    simpa [Except.isOk, Except.toBool] using hok
  · intro hends
    rw [hends] at hok
    cases hresult : (r.regenerate (fun _ => generated) lines).result with
    | error line => simp [hresult, Except.isOk, Except.toBool] at hok
    | ok out => exact ⟨out, renewal_iff.2 hresult⟩

/-! ## Regions of another kind -/

section

variable {r other : Region} {generated lines out : List String}

private theorem splitLines_join_cons {line : String} (hlines : WellSplit (line :: lines))
    (h : Renewal r generated lines out) :
    splitLines (String.join (line :: out)) = line :: splitLines (String.join out) := by
  rw [String.join_cons]
  cases hlines with
  | last hne hnot =>
      cases h
      simpa [splitLines_empty] using splitLines_of_not_mem hne hnot
  | cons hline _ => exact splitLines_append hline _

/-- Whether lines end inside a region of another kind is not changed by generating the regions of
one kind anew. -/
theorem Renewal.endsInside_eq (h : Renewal r generated lines out)
    (hleaves : ∀ line, r.closes line → ∀ inside, other.insideAfter inside line = false)
    (hgenerated : ∀ line ∈ generated, Complete line) (hlines : WellSplit lines) (inside : Bool) :
    other.endsInside inside (splitLines (String.join out)) = other.endsInside inside lines := by
  induction h generalizing inside with
  | nil => rfl
  | @skip line lines out _ hrest ih =>
      have htail := ih hlines.tail (other.insideAfter inside line)
      rw [splitLines_join_cons hlines hrest]
      exact htail
  | @region opening closing body lines out hopening _ hclosing hrest ih =>
      obtain ⟨hfront, hback⟩ := hlines.of_append (List.cons_ne_nil closing lines)
      -- Whatever stands before the closing line, that line leads out of it.
      have hout : ∀ state, other.endsInside state (closing :: splitLines (String.join out)) =
          other.endsInside false lines := by
        intro state
        have hstate := hleaves closing hclosing state
        simpa [endsInside, hstate] using ih hback.tail false
      have hin : ∀ state, other.endsInside state (closing :: lines) =
          other.endsInside false lines := by
        intro state
        have hstate := hleaves closing hclosing state
        simp [endsInside, hstate]
      have hcomplete : Complete (String.join (r.kept opening ++ generated)) := by
        apply complete_join
        intro line hmem
        rcases List.mem_append.1 hmem with hkept | hmem
        · rw [eq_of_mem_kept hkept]
          exact (hfront opening List.mem_cons_self).complete
        · exact hgenerated line hmem
      rw [String.join_append, splitLines_append_of_complete hcomplete,
        splitLines_join_cons hback hrest, endsInside_append, endsInside_append, hout, hin]

end

end LintLedger.Region
