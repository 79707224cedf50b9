import LintLedger.Proofs.Pattern.Language

/-!
# Named groups

A group around a plain expression reads the words of that expression and marks where they begin
and end, so the part of a match that the group stands for is the word.
-/

namespace LintLedger.Pattern

theorem reads_chain_append_iff {es fs : List Expr} {k k'' : Cursor} {t : Trace} :
    Reads (.chain (es ++ fs)) k k'' t ↔ ∃ k' u v,
      Reads (.chain es) k k' u ∧ Reads (.chain fs) k' k'' v ∧ t = u ++ v := by
  induction es generalizing k t with
  | nil =>
      constructor
      · intro h
        exact ⟨k, [], t, .empty, h, rfl⟩
      · rintro ⟨k', u, v, hempty, hrest, rfl⟩
        cases hempty
        exact hrest
  | cons e es ih =>
      constructor
      · intro h
        cases h with
        | seq hfirst hrest =>
            obtain ⟨k', u, v, hes, hfs, rfl⟩ := ih.1 hrest
            exact ⟨k', _, v, .seq hfirst hes, hfs, (List.append_assoc _ _ _).symm⟩
      · rintro ⟨k', u, v, hes, hfs, rfl⟩
        cases hes with
        | seq hfirst hes =>
            rw [List.append_assoc]
            exact .seq hfirst (ih.2 ⟨k', _, v, hes, hfs, rfl⟩)

theorem reads_chain_cons_iff {e : Expr} {es : List Expr} {k k'' : Cursor} {t : Trace} :
    Reads (.chain (e :: es)) k k'' t ↔ ∃ k' u v,
      Reads e k k' u ∧ Reads (.chain es) k' k'' v ∧ t = u ++ v := by
  constructor
  · intro h
    cases h with
    | seq hfirst hrest => exact ⟨_, _, _, hfirst, hrest, rfl⟩
  · rintro ⟨k', u, v, hfirst, hrest, rfl⟩
    exact .seq hfirst hrest

theorem reads_named_iff {group : String} {e : Expr} (h : e.isPlain) {k k' : Cursor} {t : Trace} :
    Reads (.named group e) k k' t ↔
      t = [(.enter group, k.position), (.leave group, k'.position)] ∧
        ∃ s ∈ e.language, k.Over s k' := by
  constructor
  · intro hread
    cases hread with
    | seq henter hrest =>
        cases henter
        cases hrest with
        | seq hword hleave =>
            cases hleave
            obtain ⟨rfl, hs⟩ := (readsWords_language h _ _ _).1 hword
            exact ⟨rfl, hs⟩
  · rintro ⟨rfl, hs⟩
    have hword := (readsWords_language h k k' []).2 ⟨rfl, hs⟩
    have hread : Reads (.named group e) k k' ([(.enter group, k.position)] ++
        ([] ++ [(.leave group, k'.position)])) := .seq .mark (.seq hword .mark)
    exact hread

/-- The part of a text between two places. -/
theorem take_drop_part (front part back : List Char) :
    ((front ++ (part ++ back)).drop front.length).take (front.length + part.length - front.length)
      = part := by
  rw [List.drop_left, Nat.add_sub_cancel_left, List.take_left]

/-- A group stands for the part of the match between the places where it is entered and left
last. -/
theorem Found.group_eq {f : Found} {name : String} {front part back : List Char}
    (htext : f.text = front ++ (part ++ back))
    (henter : f.trace.reverse.find? (fun p => p.1 == .enter name) =
      some (.enter name, front.length))
    (hleave : f.trace.reverse.find? (fun p => p.1 == .leave name) =
      some (.leave name, front.length + part.length)) :
    f.group name = part := by
  simp only [Found.group, henter, hleave, Option.map_some, htext]
  exact take_drop_part front part back

end LintLedger.Pattern
