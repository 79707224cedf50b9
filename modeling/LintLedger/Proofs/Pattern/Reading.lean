import LintLedger.Pattern.Search

/-!
# What expressions read

A relation says which stretch of a text an expression can stand for, and which marks are passed
where on the way. It prefers nothing: an expression may read several stretches from one place.
The search finds a reading wherever there is one, and what it finds is a reading.
-/

namespace LintLedger.Pattern

/-- A place in a text: the character before it, how many characters have been read, and the
characters that are left. -/
@[ext]
structure Cursor where
  before : Option Char
  position : Nat
  left : List Char

def marksAt (position : Nat) (marks : List Mark) : Trace :=
  marks.map fun m => (m, position)

theorem marksAt_append (position : Nat) (front back : List Mark) :
    marksAt position (front ++ back) = marksAt position front ++ marksAt position back := by
  simp [marksAt]

/-- An expression reads from one place of a text to another. -/
inductive Reads : Expr → Cursor → Cursor → Trace → Prop
  | empty {k : Cursor} : Reads .empty k k []
  | char {set : CharSet} {before : Option Char} {position : Nat} {c : Char} {cs : List Char} :
      set.mem c → Reads (.char set) ⟨before, position, c :: cs⟩ ⟨some c, position + 1, cs⟩ []
  | anchor {a : Anchor} {k : Cursor} :
      a.holds k.before k.left.head? → Reads (.anchor a) k k []
  | mark {m : Mark} {k : Cursor} : Reads (.mark m) k k [(m, k.position)]
  | seq {e f : Expr} {k k' k'' : Cursor} {t u : Trace} :
      Reads e k k' t → Reads f k' k'' u → Reads (.seq e f) k k'' (t ++ u)
  | altLeft {e f : Expr} {k k' : Cursor} {t : Trace} : Reads e k k' t → Reads (.alt e f) k k' t
  | altRight {e f : Expr} {k k' : Cursor} {t : Trace} : Reads f k k' t → Reads (.alt e f) k k' t
  | leave {greedy : Bool} {e : Expr} {k : Cursor} : Reads (.star greedy e) k k []
  | round {greedy : Bool} {e : Expr} {k k' k'' : Cursor} {t u : Trace} :
      Reads e k k' t → Reads (.star greedy e) k' k'' u → Reads (.star greedy e) k k'' (t ++ u)

/-! ## Branches -/

/-- A way to begin an expression reads from one place to another. -/
inductive Branch.Reads : Branch → Cursor → Cursor → Trace → Prop
  | stop {marks : List Mark} {k : Cursor} :
      Branch.Reads ⟨marks, none⟩ k k (marksAt k.position marks)
  | step {marks : List Mark} {set : CharSet} {e : Expr} {before : Option Char} {position : Nat}
      {c : Char} {cs : List Char} {k' : Cursor} {u : Trace} :
      set.mem c → Pattern.Reads e ⟨some c, position + 1, cs⟩ k' u →
      Branch.Reads ⟨marks, some (set, e)⟩ ⟨before, position, c :: cs⟩ k'
        (marksAt position marks ++ u)

theorem Branch.Reads.after {b : Branch} {k k' : Cursor} {t : Trace} (h : b.Reads k k' t)
    (marks : List Mark) : (b.after marks).Reads k k' (marksAt k.position marks ++ t) := by
  cases h with
  | stop =>
      rw [← marksAt_append]
      exact .stop
  | step hmem hread =>
      rw [← List.append_assoc, ← marksAt_append]
      exact .step hmem hread

theorem Branch.Reads.of_after {b : Branch} {k k' : Cursor} {t : Trace} {marks : List Mark}
    (h : (b.after marks).Reads k k' t) :
    ∃ u, b.Reads k k' u ∧ t = marksAt k.position marks ++ u := by
  rcases b with ⟨own, step⟩
  cases h with
  | stop => exact ⟨marksAt k.position own, .stop, marksAt_append _ _ _⟩
  | step hmem hread =>
      exact ⟨_, .step hmem hread, by rw [← List.append_assoc, ← marksAt_append]⟩

/-- What begins with one of its branches is read by the expression. -/
theorem reads_of_branch {e : Expr} {k k' : Cursor} {t : Trace} {b : Branch}
    (hmem : b ∈ e.branches k.before k.left.head?) (h : b.Reads k k' t) : Reads e k k' t := by
  induction e generalizing k k' t b with
  | empty =>
      simp only [Expr.branches, List.mem_singleton] at hmem
      subst hmem
      cases h
      exact .empty
  | char set =>
      simp only [Expr.branches, List.mem_singleton] at hmem
      subst hmem
      cases h with
      | step hc hread =>
          cases hread
          exact .char hc
  | anchor a =>
      simp only [Expr.branches] at hmem
      split at hmem
      · next hholds =>
          simp only [List.mem_singleton] at hmem
          subst hmem
          cases h
          exact .anchor hholds
      · simp at hmem
  | mark m =>
      simp only [Expr.branches, List.mem_singleton] at hmem
      subst hmem
      cases h
      exact .mark
  | seq e f ihe ihf =>
      simp only [Expr.branches, List.mem_flatMap] at hmem
      obtain ⟨⟨marks, step⟩, hbranch, hmem⟩ := hmem
      cases step with
      | none =>
          simp only [List.mem_map] at hmem
          obtain ⟨b', hb', rfl⟩ := hmem
          obtain ⟨u, hu, rfl⟩ := h.of_after
          exact .seq (ihe hbranch .stop) (ihf hb' hu)
      | some pair =>
          simp only [List.mem_singleton] at hmem
          subst hmem
          cases h with
          | step hc hread =>
              cases hread with
              | seq hfirst hsecond =>
                  rw [← List.append_assoc]
                  exact .seq (ihe hbranch (.step hc hfirst)) hsecond
  | alt e f ihe ihf =>
      rcases List.mem_append.1 hmem with hmem | hmem
      · exact .altLeft (ihe hmem h)
      · exact .altRight (ihf hmem h)
  | star greedy e ih =>
      -- A branch of a loop leaves it at once or begins a round that reads something.
      have hcases : b = ⟨[], none⟩ ∨
          b ∈ (e.branches k.before k.left.head?).filterMap fun b => b.round? (.star greedy e) := by
        simp only [Expr.branches] at hmem
        cases greedy <;> simpa [or_comm] using hmem
      rcases hcases with rfl | hround
      · cases h
        exact .leave
      · obtain ⟨⟨marks, step⟩, hbranch, hb⟩ := List.mem_filterMap.1 hround
        cases step with
        | none => simp [Branch.round?] at hb
        | some pair =>
            simp only [Branch.round?, Option.map_some, Option.some.injEq] at hb
            subst hb
            cases h with
            | step hc hread =>
                cases hread with
                | seq hfirst hrest =>
                    rw [← List.append_assoc]
                    exact .round (ih hbranch (.step hc hfirst)) hrest

/-- Whatever an expression reads begins with one of its branches. The marks may differ, since the
branches leave out the rounds of a loop that read nothing. -/
theorem exists_branch {e : Expr} {k k' : Cursor} {t : Trace} (h : Reads e k k' t) :
    ∃ b ∈ e.branches k.before k.left.head?, ∃ u, b.Reads k k' u := by
  induction h with
  | empty => exact ⟨_, List.mem_singleton_self _, _, .stop⟩
  | char hc => exact ⟨_, List.mem_singleton_self _, _, .step hc .empty⟩
  | anchor hholds =>
      refine ⟨⟨[], none⟩, ?_, _, .stop⟩
      simp [Expr.branches, hholds]
  | mark => exact ⟨_, List.mem_singleton_self _, _, .stop⟩
  | @seq e f k k' k'' t u _ hsecond ihe ihf =>
      obtain ⟨⟨marks, step⟩, hmem, v, hv⟩ := ihe
      cases hv with
      | stop =>
          obtain ⟨b, hb, w, hw⟩ := ihf
          refine ⟨b.after marks, ?_, _, hw.after marks⟩
          exact List.mem_flatMap.2 ⟨_, hmem, List.mem_map_of_mem hb⟩
      | @step _ set e' before position c cs _ _ hc hread =>
          refine ⟨⟨marks, some (set, .seq e' f)⟩, ?_, _, .step hc (.seq hread hsecond)⟩
          exact List.mem_flatMap.2 ⟨_, hmem, List.mem_singleton_self _⟩
  | altLeft _ ih =>
      obtain ⟨b, hb, u, hu⟩ := ih
      exact ⟨b, List.mem_append_left _ hb, u, hu⟩
  | altRight _ ih =>
      obtain ⟨b, hb, u, hu⟩ := ih
      exact ⟨b, List.mem_append_right _ hb, u, hu⟩
  | @leave greedy e k =>
      refine ⟨⟨[], none⟩, ?_, _, .stop⟩
      cases greedy <;> simp [Expr.branches]
  | @round greedy e k k' k'' t u _ hrest ihround ihrest =>
      obtain ⟨⟨marks, step⟩, hmem, v, hv⟩ := ihround
      cases hv with
      | stop => exact ihrest
      | @step _ set e' before position c cs _ _ hc hread =>
          refine ⟨⟨marks, some (set, .seq e' (.star greedy e))⟩, ?_, _,
            .step hc (.seq hread hrest)⟩
          have hround : (⟨marks, some (set, .seq e' (.star greedy e))⟩ : Branch) ∈
              (e.branches before (c :: cs).head?).filterMap
                fun b => b.round? (.star greedy e) :=
            List.mem_filterMap.2 ⟨_, hmem, rfl⟩
          cases greedy
          · exact List.mem_cons_of_mem _ hround
          · exact List.mem_append_left _ hround

end LintLedger.Pattern
