import Mathlib.Data.List.Infix

/-!
# Cutting lists

A list with an element that has a property can be cut before the first such element in one way
only. What stands in a list and shares no element with the ends of the list stands between them. A
part without the element that a list ends with does not reach from that list into the next one.
-/

namespace LintLedger.Text

variable {α : Type} {p : α → Prop}

theorem cut_unique {front front' : List α} {a a' : α} {back back' : List α}
    (hfront : ∀ x ∈ front, ¬ p x) (hfront' : ∀ x ∈ front', ¬ p x) (ha : p a) (ha' : p a')
    (heq : front ++ a :: back = front' ++ a' :: back') :
    front = front' ∧ a = a' ∧ back = back' := by
  induction front generalizing front' with
  | nil =>
      cases front' with
      | nil => simpa using heq
      | cons y ys =>
          obtain ⟨rfl, -⟩ := List.cons.inj heq
          exact (hfront' a List.mem_cons_self ha).elim
  | cons x xs ih =>
      cases front' with
      | nil =>
          obtain ⟨rfl, -⟩ := List.cons.inj heq
          exact (hfront x List.mem_cons_self ha').elim
      | cons y ys =>
          obtain ⟨rfl, htail⟩ := List.cons.inj heq
          have hxs : ∀ z ∈ xs, ¬ p z := fun z hz => hfront z (List.mem_cons_of_mem x hz)
          have hys : ∀ z ∈ ys, ¬ p z := fun z hz => hfront' z (List.mem_cons_of_mem x hz)
          obtain ⟨rfl, hrest⟩ := ih hxs hys htail
          exact ⟨rfl, hrest⟩

/-- Either the property holds nowhere in a list, or the list can be cut before its first element
that has it. -/
theorem exists_cut (p : α → Prop) [DecidablePred p] (xs : List α) :
    (∀ x ∈ xs, ¬ p x) ∨
      ∃ front a back, xs = front ++ a :: back ∧ (∀ x ∈ front, ¬ p x) ∧ p a := by
  induction xs with
  | nil =>
      left
      simp
  | cons x xs ih =>
      by_cases hx : p x
      · exact .inr ⟨[], x, xs, rfl, by simp, hx⟩
      · rcases ih with hnone | ⟨front, a, back, rfl, hfront, ha⟩
        · left
          simpa [hx] using hnone
        · right
          refine ⟨x :: front, a, back, rfl, ?_, ha⟩
          simpa [hx] using hfront

/-- What is taken from a list while a property holds. -/
theorem takeWhile_span {p : α → Bool} {front back : List α} (hfront : ∀ x ∈ front, p x)
    (hback : ∀ x ∈ back.head?, ¬ p x) : (front ++ back).takeWhile p = front := by
  rw [List.takeWhile_append_of_pos hfront]
  cases back with
  | nil => rw [List.takeWhile_nil, List.append_nil]
  | cons x xs => rw [List.takeWhile_cons_of_neg (hback x rfl), List.append_nil]

theorem dropWhile_span {p : α → Bool} {front back : List α} (hfront : ∀ x ∈ front, p x)
    (hback : ∀ x ∈ back.head?, ¬ p x) : (front ++ back).dropWhile p = back := by
  rw [List.dropWhile_append_of_pos hfront]
  cases back with
  | nil => rfl
  | cons x xs => exact List.dropWhile_cons_of_neg (hback x rfl)

/-- A list has one first stretch on which a property holds. -/
theorem span_unique (p : α → Bool) {front front' back back' : List α} (hfront : ∀ x ∈ front, p x)
    (hfront' : ∀ x ∈ front', p x) (hback : ∀ x ∈ back.head?, ¬ p x)
    (hback' : ∀ x ∈ back'.head?, ¬ p x) (heq : front ++ back = front' ++ back') :
    front = front' ∧ back = back' := by
  have htake := congrArg (List.takeWhile p) heq
  rw [takeWhile_span hfront hback, takeWhile_span hfront' hback'] at htake
  rw [htake] at heq
  exact ⟨htake, List.append_cancel_left heq⟩

/-! ## Parts between two ends -/

private theorem infix_of_infix_append {part front back : List α} (hne : part ≠ [])
    (hfront : ∀ x ∈ part, x ∉ front) (h : part <:+: front ++ back) : part <:+: back := by
  induction front with
  | nil => exact h
  | cons y ys ih =>
      have hys : ∀ x ∈ part, x ∉ ys := fun x hx hmem => hfront x hx (List.mem_cons_of_mem y hmem)
      rcases List.infix_cons_iff.1 h with hprefix | hinfix
      · obtain ⟨x, xs, rfl⟩ := List.exists_cons_of_ne_nil hne
        obtain ⟨rfl, -⟩ := List.cons_prefix_cons.1 hprefix
        exact (hfront x List.mem_cons_self List.mem_cons_self).elim
      · exact ih hys hinfix

theorem infix_between_iff {part front middle back : List α} (hne : part ≠ [])
    (hfront : ∀ x ∈ part, x ∉ front) (hback : ∀ x ∈ part, x ∉ back) :
    part <:+: front ++ middle ++ back ↔ part <:+: middle := by
  constructor
  · intro h
    rw [List.append_assoc] at h
    have hrest := infix_of_infix_append hne hfront h
    -- The end of the list is its beginning when it is read backwards.
    rw [← List.reverse_infix, List.reverse_append] at hrest
    have hne' : part.reverse ≠ [] := by simpa using hne
    have hmiddle := infix_of_infix_append hne' (by simpa using hback) hrest
    exact List.reverse_infix.1 hmiddle
  · rintro ⟨before, after, rfl⟩
    exact ⟨front ++ before, after ++ back, by simp [List.append_assoc]⟩

theorem infix_append_iff_of_last {part front back : List α} {a : α} (h : a ∉ back) :
    part ++ [a] <:+: front ++ back ↔ part ++ [a] <:+: front := by
  constructor
  · rintro ⟨before, after, heq⟩
    rcases List.append_eq_append_iff.1 heq with ⟨gap, rfl, -⟩ | ⟨gap, hgap, rfl⟩
    · exact ⟨before, gap, rfl⟩
    · cases List.eq_nil_or_concat' gap with
      | inl hnil =>
          rw [hnil, List.append_nil] at hgap
          exact hgap ▸ (List.suffix_append before (part ++ [a])).isInfix
      | inr hconcat =>
          obtain ⟨init, b, rfl⟩ := hconcat
          rw [← List.append_assoc, ← List.append_assoc] at hgap
          obtain ⟨-, hlast⟩ := List.append_inj' hgap rfl
          exact (h (by simp [List.singleton_inj.1 hlast])).elim
  · exact fun h => h.trans (List.prefix_append front back).isInfix

/-- A part stands on one side of the place where a list is cut, if the left side ends with an
element that the part does not have. -/
theorem append_eq_part {left right front part back : List α} {a : α} (ha : a ∉ part)
    (hleft : ∀ x ∈ left.getLast?, x = a) (heq : left ++ right = front ++ part ++ back) :
    (∃ gap, left = front ++ part ++ gap ∧ back = gap ++ right) ∨
      ∃ gap, right = gap ++ part ++ back ∧ front = left ++ gap := by
  rcases List.append_eq_append_iff.1 heq with ⟨rest, hpart, rfl⟩ | ⟨gap, rfl, rfl⟩
  · rcases List.append_eq_append_iff.1 hpart with ⟨common, rfl, rfl⟩ | ⟨gap, rfl, rfl⟩
    · cases List.eq_nil_or_concat' common with
      | inl hnil => exact .inr ⟨[], by simp [hnil], by simp [hnil]⟩
      | inr hconcat =>
          obtain ⟨init, b, rfl⟩ := hconcat
          obtain rfl : b = a := hleft b (by simp [← List.append_assoc])
          simp at ha
    · exact .inr ⟨gap, rfl, rfl⟩
  · exact .inl ⟨gap, rfl, rfl⟩

theorem infix_append_iff {left right part : List α} {a : α} (ha : a ∉ part)
    (hleft : ∀ x ∈ left.getLast?, x = a) :
    part <:+: left ++ right ↔ part <:+: left ∨ part <:+: right := by
  constructor
  · rintro ⟨front, back, heq⟩
    rcases append_eq_part ha hleft heq.symm with ⟨gap, rfl, -⟩ | ⟨gap, rfl, -⟩
    · exact .inl ⟨front, gap, rfl⟩
    · exact .inr ⟨gap, back, rfl⟩
  · rintro (h | h)
    · exact h.trans (List.prefix_append left right).isInfix
    · exact h.trans (List.suffix_append left right).isInfix

/-! ## First places -/

/-- Where a part stands in a list, it has a first place: it does not stand in the list that is cut
before the last element of the part there. -/
theorem exists_first_part {part text : List α} (hne : part ≠ []) (h : part <:+: text) :
    ∃ front back, text = front ++ part ++ back ∧ ¬ part <:+: front ++ part.dropLast := by
  induction text with
  | nil => exact (hne (List.infix_nil.1 h)).elim
  | cons c cs ih =>
      by_cases hfirst : part <+: c :: cs
      · obtain ⟨back, hback⟩ := hfirst
        refine ⟨[], back, hback.symm, fun hinfix => ?_⟩
        have hlength := hinfix.length_le
        have hpos := List.length_pos_iff.2 hne
        rw [List.nil_append, List.length_dropLast] at hlength
        omega
      · obtain ⟨front, back, rfl, hnot⟩ := ih ((List.infix_cons_iff.1 h).resolve_left hfirst)
        refine ⟨c :: front, back, by simp, fun hinfix => ?_⟩
        rcases List.infix_cons_iff.1 hinfix with hstart | hinfix
        · have hshorter : front ++ part.dropLast <+: front ++ part ++ back :=
            ((List.prefix_append_right_inj front).2 (List.dropLast_prefix part)).trans
              (List.prefix_append _ back)
          exact hfirst (hstart.trans (List.cons_prefix_cons.2 ⟨rfl, hshorter⟩))
        · exact hnot hinfix

end LintLedger.Text
