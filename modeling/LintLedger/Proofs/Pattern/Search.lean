import LintLedger.Proofs.Pattern.Reading

/-!
# Searches find readings

The search walks with threads that are cut down as it goes: threads with equal rests are merged,
and threads behind a complete one are given up. Neither loses the last reading there is, so the
search fails only where nothing can be read; what it returns is read by one of the threads that
it was started with.
-/

namespace LintLedger.Pattern

/-! ## One character -/

theorem distinct_subset {threads : List Thread} {t : Thread} (h : t ∈ distinct threads) :
    t ∈ threads := by
  induction threads with
  | nil => simp [distinct] at h
  | cons u us ih =>
      rcases List.mem_cons.1 h with rfl | h
      · exact List.mem_cons_self
      · exact List.mem_cons_of_mem u (ih (List.mem_filter.1 h).1)

/-- Of the threads with one rest, one is kept. -/
theorem exists_distinct {threads : List Thread} {t : Thread} (h : t ∈ threads) :
    ∃ u ∈ distinct threads, u.rest = t.rest := by
  induction threads with
  | nil => simp at h
  | cons v vs ih =>
      by_cases hrest : v.rest = t.rest
      · exact ⟨v, List.mem_cons_self, hrest⟩
      · rcases List.mem_cons.1 h with rfl | h
        · exact (hrest rfl).elim
        · obtain ⟨u, hu, heq⟩ := ih h
          refine ⟨u, List.mem_cons_of_mem v (List.mem_filter.2 ⟨hu, ?_⟩), heq⟩
          simpa [heq] using Ne.symm hrest

section

variable {position : Nat} {next : Option Char} {ways : List (Trace × Option (CharSet × Expr))}

theorem way_of_hit {hit : Hit} (h : (follow position next ways).2 = some hit) :
    ∃ trace, (trace, none) ∈ ways ∧ hit = ⟨position, trace⟩ := by
  induction ways with
  | nil => simp [follow] at h
  | cons way ways ih =>
      rcases way with ⟨trace, _ | ⟨set, e⟩⟩
      · simp only [follow, Option.some.injEq] at h
        exact ⟨trace, List.mem_cons_self, h.symm⟩
      · have hrest : (follow position next ways).2 = some hit := by
          simp only [follow] at h
          split at h <;> exact h
        obtain ⟨trace', hmem, heq⟩ := ih hrest
        exact ⟨trace', List.mem_cons_of_mem _ hmem, heq⟩

theorem way_of_thread {t : Thread} (h : t ∈ (follow position next ways).1) :
    ∃ set, next.any set.mem ∧ (t.trace, some (set, t.rest)) ∈ ways := by
  induction ways with
  | nil => simp [follow] at h
  | cons way ways ih =>
      rcases way with ⟨trace, _ | ⟨set, e⟩⟩
      · simp [follow] at h
      · simp only [follow] at h
        split at h
        · next hmem =>
            rcases List.mem_cons.1 h with rfl | h
            · exact ⟨set, hmem, List.mem_cons_self⟩
            · obtain ⟨set', hset, hway⟩ := ih h
              exact ⟨set', hset, List.mem_cons_of_mem _ hway⟩
        · obtain ⟨set', hset, hway⟩ := ih h
          exact ⟨set', hset, List.mem_cons_of_mem _ hway⟩

/-- Without a complete way, every way over the next character is followed. -/
theorem follow_of_no_hit (h : (follow position next ways).2 = none) :
    (∀ trace, (trace, none) ∉ ways) ∧
      ∀ trace set e, (trace, some (set, e)) ∈ ways → next.any set.mem →
        (⟨e, trace⟩ : Thread) ∈ (follow position next ways).1 := by
  induction ways with
  | nil => simp
  | cons way ways ih =>
      rcases way with ⟨trace, _ | ⟨set, e⟩⟩
      · simp [follow] at h
      · have hrest : (follow position next ways).2 = none := by
          simp only [follow] at h
          split at h <;> exact h
        obtain ⟨hnone, hsome⟩ := ih hrest
        refine ⟨fun trace' hmem => ?_, fun trace' set' e' hmem hset => ?_⟩
        · rcases List.mem_cons.1 hmem with heq | hmem
          · simp at heq
          · exact hnone trace' hmem
        · simp only [follow]
          rcases List.mem_cons.1 hmem with heq | hmem
          · obtain ⟨rfl, rfl, rfl⟩ : trace' = trace ∧ set' = set ∧ e' = e := by
              simpa using heq
            rw [if_pos hset]
            exact List.mem_cons_self
          · have hthread := hsome trace' set' e' hmem hset
            split
            · exact List.mem_cons_of_mem _ hthread
            · exact hthread

end

def waysFrom (threads : List Thread) (k : Cursor) : List (Trace × Option (CharSet × Expr)) :=
  threads.flatMap fun t => t.continuations k.position k.before k.left.head?

/-- The threads after the next character, and the match that ends before it. -/
def advance (threads : List Thread) (k : Cursor) : List Thread × Option Hit :=
  follow k.position k.left.head? (waysFrom threads k)

theorem mem_waysFrom {threads : List Thread} {k : Cursor} {way : Trace × Option (CharSet × Expr)} :
    way ∈ waysFrom threads k ↔ ∃ t ∈ threads, ∃ b ∈ t.rest.branches k.before k.left.head?,
      way = (t.trace ++ marksAt k.position b.marks, b.step) := by
  simp only [waysFrom, Thread.continuations, List.mem_flatMap, List.mem_map, marksAt]
  grind

/-- The match that is kept at a cursor is an older one, or is read from here. -/
theorem reads_of_hit {threads : List Thread} {k : Cursor} {best : Option Hit} {hit : Hit}
    (h : ((advance threads k).2 <|> best) = some hit) :
    best = some hit ∨
      ∃ t ∈ threads, ∃ k' u, Reads t.rest k k' u ∧ hit = ⟨k'.position, t.trace ++ u⟩ := by
  cases hadvance : (advance threads k).2 with
  | none =>
      left
      simpa [hadvance] using h
  | some found =>
      right
      obtain rfl : found = hit := by simpa [hadvance] using h
      obtain ⟨trace, hway, rfl⟩ := way_of_hit hadvance
      obtain ⟨t, ht, ⟨marks, step⟩, hb, heq⟩ := mem_waysFrom.1 hway
      obtain ⟨rfl, rfl⟩ := Prod.mk.inj heq
      exact ⟨t, ht, k, _, reads_of_branch hb .stop, rfl⟩

/-- What a thread reads after the next character, one of the threads before it reads. -/
theorem reads_of_advanced {threads : List Thread} {before : Option Char} {position : Nat}
    {c : Char} {cs : List Char} {t : Thread} {k' : Cursor} {u : Trace}
    (ht : t ∈ (advance threads ⟨before, position, c :: cs⟩).1)
    (hread : Reads t.rest ⟨some c, position + 1, cs⟩ k' u) :
    ∃ s ∈ threads, ∃ v, Reads s.rest ⟨before, position, c :: cs⟩ k' v ∧
      s.trace ++ v = t.trace ++ u := by
  obtain ⟨set, hset, hway⟩ := way_of_thread ht
  obtain ⟨s, hs, ⟨marks, step⟩, hb, heq⟩ := mem_waysFrom.1 hway
  obtain ⟨htrace, rfl⟩ := Prod.mk.inj heq
  have hc : set.mem c := by simpa using hset
  refine ⟨s, hs, _, reads_of_branch hb (.step hc hread), ?_⟩
  rw [htrace, List.append_assoc]

/-- Where no match ends, a thread that can read something goes on over the next character. -/
theorem advanced_of_reads {threads : List Thread} {k k' : Cursor} {t : Thread} {u : Trace}
    (hhit : (advance threads k).2 = none) (ht : t ∈ threads) (hread : Reads t.rest k k' u) :
    ∃ c cs, k.left = c :: cs ∧
      ∃ s ∈ (advance threads k).1, ∃ v, Reads s.rest ⟨some c, k.position + 1, cs⟩ k' v := by
  obtain ⟨b, hb, v, hv⟩ := exists_branch hread
  obtain ⟨hnone, hsome⟩ := follow_of_no_hit hhit
  have hway := mem_waysFrom.2 ⟨t, ht, b, hb, rfl⟩
  cases hv with
  | stop => exact (hnone _ hway).elim
  | @step marks set e before position c cs _ _ hc hrest =>
      refine ⟨c, cs, rfl, ⟨e, _⟩, hsome _ set e hway ?_, _, hrest⟩
      simpa using hc

/-! ## A whole run -/

section

variable {position : Nat} {before : Option Char} {threads : List Thread} {best : Option Hit}

theorem run_nil :
    run position before threads best [] = ((advance threads ⟨before, position, []⟩).2 <|> best) :=
  rfl

theorem run_cons {c : Char} {cs : List Char} :
    run position before threads best (c :: cs) =
      if threads.isEmpty then best
      else run (position + 1) (some c) (distinct (advance threads ⟨before, position, c :: cs⟩).1)
        ((advance threads ⟨before, position, c :: cs⟩).2 <|> best) cs :=
  rfl

/-- What a run returns is the match that it falls back to, or is read by one of its threads. -/
theorem reads_of_run {cs : List Char} {hit : Hit}
    (h : run position before threads best cs = some hit) :
    best = some hit ∨ ∃ t ∈ threads, ∃ k' u,
      Reads t.rest ⟨before, position, cs⟩ k' u ∧ hit = ⟨k'.position, t.trace ++ u⟩ := by
  induction cs generalizing position before threads best with
  | nil => exact reads_of_hit (run_nil ▸ h)
  | cons c cs ih =>
      rw [run_cons] at h
      split at h
      · exact .inl h
      · rcases ih h with hbest | ⟨t, ht, k', u, hread, rfl⟩
        · exact reads_of_hit hbest
        · obtain ⟨s, hs, v, hread', htrace⟩ := reads_of_advanced (distinct_subset ht) hread
          exact .inr ⟨s, hs, k', v, hread', by rw [htrace]⟩

private theorem no_hit_of_or {o : Option Hit} (h : (o <|> best) = none) :
    o = none ∧ best = none := by
  cases o with
  | none => exact ⟨rfl, h⟩
  | some hit => cases h

/-- A run that returns nothing has no match to fall back to, and its threads read nothing. -/
theorem not_reads_of_run {cs : List Char} (h : run position before threads best cs = none) :
    best = none ∧ ∀ t ∈ threads, ∀ k' u, ¬ Reads t.rest ⟨before, position, cs⟩ k' u := by
  induction cs generalizing position before threads best with
  | nil =>
      obtain ⟨hhit, hbest⟩ := no_hit_of_or (run_nil ▸ h)
      refine ⟨hbest, fun t ht k' u hread => ?_⟩
      obtain ⟨c, cs, hleft, -⟩ := advanced_of_reads hhit ht hread
      cases hleft
  | cons c cs ih =>
      rw [run_cons] at h
      split at h
      · next hempty =>
          refine ⟨h, fun t ht => ?_⟩
          rw [List.isEmpty_iff.1 hempty] at ht
          simp at ht
      · obtain ⟨hor, hthreads⟩ := ih h
        obtain ⟨hhit, hbest⟩ := no_hit_of_or hor
        refine ⟨hbest, fun t ht k' u hread => ?_⟩
        obtain ⟨_, _, ⟨⟩, s, hs, v, hread'⟩ := advanced_of_reads hhit ht hread
        -- The thread itself may be gone, but one with the same rest is left.
        obtain ⟨s', hs', hrest⟩ := exists_distinct hs
        exact hthreads s' hs' k' v (hrest ▸ hread')

end

/-! ## Matches -/

theorem reads_of_matchHere {e : Expr} {before : Option Char} {cs : List Char} {hit : Hit}
    (h : e.matchHere before cs = some hit) :
    ∃ k', Reads e ⟨before, 0, cs⟩ k' hit.trace ∧ k'.position = hit.length := by
  rcases reads_of_run h with hbest | ⟨t, ht, k', u, hread, rfl⟩
  · cases hbest
  · obtain rfl := List.mem_singleton.1 ht
    exact ⟨k', hread, rfl⟩

theorem matchHere_eq_none_iff {e : Expr} {before : Option Char} {cs : List Char} :
    e.matchHere before cs = none ↔ ∀ k' u, ¬ Reads e ⟨before, 0, cs⟩ k' u := by
  constructor
  · intro h
    exact (not_reads_of_run h).2 ⟨e, []⟩ (List.mem_singleton_self _)
  · intro h
    cases hmatch : e.matchHere before cs with
    | none => rfl
    | some hit =>
        obtain ⟨k', hread, -⟩ := reads_of_matchHere hmatch
        exact (h k' _ hread).elim

end LintLedger.Pattern
