import LintLedger.Proofs.Pattern.Search

/-!
# Occurrences in a text

A reading goes over a stretch of the text. The first match of an expression starts at the first
place from which anything is read; all matches are found by looking for the first one again
behind each of them.
-/

namespace LintLedger.Pattern

namespace Cursor

/-- One cursor is reached from another by going over a stretch of the text. -/
structure Over (k : Cursor) (stretch : List Char) (k' : Cursor) : Prop where
  left : k.left = stretch ++ k'.left
  before : k'.before = stretch.getLast?.or k.before
  position : k'.position = k.position + stretch.length

theorem Over.refl (k : Cursor) : k.Over [] k :=
  ⟨rfl, rfl, rfl⟩

theorem Over.char (before : Option Char) (position : Nat) (c : Char) (cs : List Char) :
    (⟨before, position, c :: cs⟩ : Cursor).Over [c] ⟨some c, position + 1, cs⟩ :=
  ⟨rfl, rfl, rfl⟩

theorem Over.trans {k k' k'' : Cursor} {s s' : List Char} (h : k.Over s k') (h' : k'.Over s' k'') :
    k.Over (s ++ s') k'' where
  left := by rw [h.left, h'.left, List.append_assoc]
  before := by rw [h'.before, h.before, List.getLast?_append, Option.or_assoc]
  position := by rw [h'.position, h.position, List.length_append, Nat.add_assoc]

theorem Over.unique {k k' k'' : Cursor} {s : List Char} (h : k.Over s k') (h' : k.Over s k'') :
    k' = k'' := by
  have hleft : s ++ k'.left = s ++ k''.left := h.left.symm.trans h'.left
  exact Cursor.ext (h.before.trans h'.before.symm) (h.position.trans h'.position.symm)
    (List.append_cancel_left hleft)

theorem over_nil_iff {k k' : Cursor} : k.Over [] k' ↔ k' = k := by
  constructor
  · intro h
    exact h.unique (.refl k)
  · rintro rfl
    exact .refl k'

/-- A stretch is gone over part by part. -/
theorem Over.split {k k'' : Cursor} {s s' : List Char} (h : k.Over (s ++ s') k'') :
    ∃ k', k.Over s k' ∧ k'.Over s' k'' := by
  refine ⟨⟨s.getLast?.or k.before, k.position + s.length, s' ++ k''.left⟩, ⟨?_, rfl, rfl⟩, rfl,
    ?_, ?_⟩
  · rw [h.left, List.append_assoc]
  · rw [h.before, List.getLast?_append, Option.or_assoc]
  · simp only [h.position, List.length_append, Nat.add_assoc]

/-- The place behind a stretch. -/
theorem exists_over (before : Option Char) (position : Nat) (stretch rest : List Char) :
    ∃ k', (⟨before, position, stretch ++ rest⟩ : Cursor).Over stretch k' ∧ k'.left = rest :=
  ⟨⟨stretch.getLast?.or before, position + stretch.length, rest⟩, ⟨rfl, rfl, rfl⟩, rfl⟩

end Cursor

theorem Reads.over {e : Expr} {k k' : Cursor} {t : Trace} (h : Reads e k k' t) :
    ∃ stretch, k.Over stretch k' := by
  induction h with
  | empty => exact ⟨[], .refl _⟩
  | char _ => exact ⟨[_], .char _ _ _ _⟩
  | anchor _ => exact ⟨[], .refl _⟩
  | mark => exact ⟨[], .refl _⟩
  | seq _ _ ihe ihf =>
      obtain ⟨s, hs⟩ := ihe
      obtain ⟨s', hs'⟩ := ihf
      exact ⟨s ++ s', hs.trans hs'⟩
  | altLeft _ ih => exact ih
  | altRight _ ih => exact ih
  | leave => exact ⟨[], .refl _⟩
  | round _ _ ihe ihf =>
      obtain ⟨s, hs⟩ := ihe
      obtain ⟨s', hs'⟩ := ihf
      exact ⟨s ++ s', hs.trans hs'⟩

/-! ## The first match -/

/-- The character before a place, seen from the first character of the stretch before it. -/
theorem getLast?_cons_or (c : Char) (cs : List Char) (before : Option Char) :
    (c :: cs).getLast?.or before = cs.getLast?.or (some c) := by
  rw [List.getLast?_cons]
  cases cs.getLast? <;> rfl

/-- Whether nothing is read from any place in a stretch of a text that is followed by `rest`. -/
def Silent (e : Expr) (before : Option Char) (stretch rest : List Char) : Prop :=
  ∀ s c s', stretch = s ++ c :: s' →
    ∀ k' u, ¬ Reads e ⟨s.getLast?.or before, 0, c :: s' ++ rest⟩ k' u

theorem silent_nil (e : Expr) (before : Option Char) (rest : List Char) :
    Silent e before [] rest := by
  intro s c s' h
  simp at h

theorem silent_cons {e : Expr} {before : Option Char} {c : Char} {cs rest : List Char}
    (hfirst : ∀ k' u, ¬ Reads e ⟨before, 0, c :: cs ++ rest⟩ k' u)
    (hcs : Silent e (some c) cs rest) : Silent e before (c :: cs) rest := by
  intro s d s' h
  cases s with
  | nil =>
      obtain ⟨rfl, rfl⟩ := List.cons.inj h
      exact hfirst
  | cons x s =>
      obtain ⟨rfl, rfl⟩ := List.cons.inj h
      have hrest := hcs s d s' rfl
      rwa [getLast?_cons_or]

/-- Where something found stands in a text: nothing is read before it, and it is read itself. -/
structure Found.Stands (f : Found) (e : Expr) (before : Option Char) (cs : List Char) : Prop where
  parts : cs = f.skipped ++ (f.text ++ f.rest)
  silent : Silent e before f.skipped (f.text ++ f.rest)
  reads : ∃ k', Reads e ⟨f.skipped.getLast?.or before, 0, f.text ++ f.rest⟩ k' f.trace ∧
    (⟨f.skipped.getLast?.or before, 0, f.text ++ f.rest⟩ : Cursor).Over f.text k'

theorem stands_of_matchHere {e : Expr} {before : Option Char} {cs : List Char} {hit : Hit}
    (h : e.matchHere before cs = some hit) :
    Found.Stands ⟨[], cs.take hit.length, cs.drop hit.length, hit.trace⟩ e before cs := by
  obtain ⟨k', hread, hlength⟩ := reads_of_matchHere h
  obtain ⟨s, hover⟩ := hread.over
  have hcs : cs = s ++ k'.left := hover.left
  have hs : hit.length = s.length := by
    rw [← hlength, hover.position]
    exact Nat.zero_add s.length
  have htake : cs.take hit.length = s := by rw [hcs, hs, List.take_left]
  have hdrop : cs.drop hit.length = k'.left := by rw [hcs, hs, List.drop_left]
  constructor
  · simp
  · exact silent_nil _ _ _
  · simp only [htake, hdrop]
    exact ⟨k', hcs ▸ hread, hcs ▸ hover⟩

theorem stands_of_find? {e : Expr} {before : Option Char} {cs : List Char} {f : Found}
    (h : e.find? before cs = some f) : f.Stands e before cs := by
  induction cs generalizing before f with
  | nil =>
      obtain ⟨hit, hhit, rfl⟩ := Option.map_eq_some_iff.1 h
      simpa using stands_of_matchHere hhit
  | cons c cs ih =>
      rw [Expr.find?] at h
      split at h
      · next hit hhit =>
          obtain rfl := Option.some.inj h
          exact stands_of_matchHere hhit
      · next hnone =>
          obtain ⟨g, hg, rfl⟩ := Option.map_eq_some_iff.1 h
          obtain ⟨hparts, hsilent, hreads⟩ := ih hg
          have hfirst := matchHere_eq_none_iff.1 hnone
          refine ⟨by simp [hparts], silent_cons ?_ hsilent, ?_⟩
          · rw [List.cons_append, ← hparts]
            exact hfirst
          · simpa only [getLast?_cons_or] using hreads

theorem find?_eq_none_iff {e : Expr} {before : Option Char} {cs : List Char} :
    e.find? before cs = none ↔ Silent e before cs [] ∧
      ∀ k' u, ¬ Reads e ⟨cs.getLast?.or before, 0, []⟩ k' u := by
  induction cs generalizing before with
  | nil =>
      rw [Expr.find?, Option.map_eq_none_iff, matchHere_eq_none_iff]
      exact ⟨fun h => ⟨silent_nil _ _ _, h⟩, fun h => h.2⟩
  | cons c cs ih =>
      rw [getLast?_cons_or, Expr.find?]
      split
      · next hit hhit =>
          obtain ⟨k', hread, -⟩ := reads_of_matchHere hhit
          simp only [reduceCtorEq, false_iff, not_and]
          intro hsilent
          exact (hsilent [] c cs rfl k' _ (by simpa using hread)).elim
      · next hnone =>
          have hfirst := matchHere_eq_none_iff.1 hnone
          rw [Option.map_eq_none_iff, ih]
          constructor
          · rintro ⟨hsilent, hend⟩
            exact ⟨silent_cons (by simpa using hfirst) hsilent, hend⟩
          · rintro ⟨hsilent, hend⟩
            refine ⟨fun s d s' h => ?_, hend⟩
            have hlater := hsilent (c :: s) d s' (by rw [h, List.cons_append])
            rwa [getLast?_cons_or] at hlater

/-! ## All matches -/

/-- Matches that follow one another, each of them the first behind the one before. -/
inductive Successive (e : Expr) : Option Char → List Char → List Found → Prop
  | done {before : Option Char} {cs : List Char} :
      e.find? before cs = none → Successive e before cs []
  | next {before : Option Char} {cs : List Char} {f : Found} {fs : List Found} :
      f.Stands e before cs →
      Successive e (f.text.getLast? <|> f.skipped.getLast? <|> before) f.rest fs →
      Successive e before cs (f :: fs)

/-- The search for all matches goes on to the end of the text if no match is empty. -/
theorem successive_findAll {e : Expr} (h : ∀ k t, ¬ Reads e k k t) (before : Option Char)
    (cs : List Char) : Successive e before cs (e.findAll before cs) := by
  induction hn : cs.length using Nat.strongRecOn generalizing before cs with
  | ind n ih =>
      rw [Expr.findAll]
      split
      · next hnone => exact .done hnone
      · next f hfound =>
          have hstands := stands_of_find? hfound
          have hshorter : f.rest.length < cs.length := by
            obtain ⟨k', hread, hover⟩ := hstands.reads
            have hne : f.text ≠ [] := by
              intro hnil
              rw [hnil] at hread hover
              obtain rfl := Cursor.over_nil_iff.1 hover
              exact h _ _ hread
            have hpos := List.length_pos_iff.2 hne
            have hparts := congrArg List.length hstands.parts
            simp only [List.length_append] at hparts
            omega
          rw [if_pos hshorter]
          exact .next hstands (ih f.rest.length (hn ▸ hshorter) _ f.rest rfl)

/-- An expression occurs in a text if it reads something from some place in it. -/
theorem occursIn_iff {e : Expr} {cs : List Char} :
    e.occursIn cs ↔ ∃ s r k' u, cs = s ++ r ∧ Reads e ⟨s.getLast?, 0, r⟩ k' u := by
  constructor
  · intro h
    obtain ⟨f, hf⟩ := Option.isSome_iff_exists.1 h
    obtain ⟨hparts, -, k', hread, -⟩ := stands_of_find? hf
    exact ⟨f.skipped, f.text ++ f.rest, k', _, hparts, by simpa using hread⟩
  · rintro ⟨s, r, k', u, rfl, hread⟩
    cases hfind : e.find? none (s ++ r) with
    | some f => simp [Expr.occursIn, hfind]
    | none =>
        obtain ⟨hsilent, hend⟩ := find?_eq_none_iff.1 hfind
        cases r with
        | nil => exact (hend k' u (by simpa using hread)).elim
        | cons c cs => exact (hsilent s c cs rfl k' u (by simpa using hread)).elim

end LintLedger.Pattern
