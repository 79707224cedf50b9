import LintLedger.Proofs.Listing.Delimiters
import LintLedger.Proofs.Text.Cut
import LintLedger.Proofs.Text.Lines

/-!
# Registrations

The registration of a group as it stands in a text. A call with the name of the group opens it, and
the first `]);` behind that ends it, on the same line or on a later one. Neither reaches over the
end of a line. So a text leaves a registration open if its last line does, or if its other lines
do and the last one has no end.
-/

namespace LintLedger.Listing

open Text

def registration (group : String) : List Char :=
  "reg.".toList ++ groupCall group

def registrationEnd : List Char :=
  "]);".toList

/-- Whether a part of a text lies in a registration, given what stands in front of it and behind
it: there is an opening in front, and the first end behind that opening is behind the part. -/
def Registered (group before part after : String) : Prop :=
  ∃ front gap stretch rest, before.toList = front ++ registration group ++ gap ∧
    after.toList = stretch ++ registrationEnd ++ rest ∧
    ¬ registrationEnd <:+: gap ++ part.toList ++ (stretch ++ registrationEnd.dropLast)

/-- Whether a text leaves a registration open: there is an opening and no end behind it. -/
def LeavesOpen (group text : String) : Prop :=
  ∃ front back, text.toList = front ++ registration group ++ back ∧ ¬ registrationEnd <:+: back

theorem leavesOpen_iff_tails {group text : String} :
    LeavesOpen group text ↔ ∃ tail ∈ text.toList.tails, registration group <+: tail ∧
      ¬ registrationEnd <:+: tail.drop (registration group).length := by
  constructor
  · rintro ⟨front, back, htext, hback⟩
    refine ⟨registration group ++ back, ?_, List.prefix_append _ _, ?_⟩
    · rw [List.mem_tails, htext, List.append_assoc]
      exact List.suffix_append front _
    · rwa [List.drop_left]
  · rintro ⟨tail, htail, ⟨back, rfl⟩, hback⟩
    obtain ⟨front, htext⟩ := (List.mem_tails _ _).1 htail
    rw [List.drop_left] at hback
    exact ⟨front, back, by rw [← htext, List.append_assoc], hback⟩

instance (group text : String) : Decidable (LeavesOpen group text) :=
  decidable_of_iff _ leavesOpen_iff_tails.symm

/-! ## Lines of a text -/

section

variable {group text line before after : String}

theorem newline_not_mem_registrationEnd : '\n' ∉ registrationEnd := by
  decide

theorem newline_not_mem_registration (h : '\n' ∉ group.toList) : '\n' ∉ registration group := by
  have hfront : '\n' ∉ "reg.".toList := by decide
  have hname : '\n' ∉ "register_lint_group(\"".toList := by decide +kernel
  have hquote : '\n' ∉ ['"'] := by decide
  intro hmem
  rcases List.mem_append.1 hmem with hmem | hmem
  · exact hfront hmem
  · rcases List.mem_append.1 hmem with hmem | hmem
    · exact (List.mem_append.1 hmem).elim hname h
    · exact hquote hmem

/-- What a complete text ends with is complete. -/
private theorem complete_part {front back : List Char} (htext : Complete text)
    (h : text.toList = front ++ back) : ∀ c ∈ back.getLast?, c = '\n' := by
  intro c hc
  refine htext c ?_
  rw [h, List.getLast?_append, Option.mem_def.1 hc]
  rfl

theorem LeavesOpen.append (h : LeavesOpen group text) (htext : Complete text)
    (hline : ¬ registrationEnd <:+: line.toList) : LeavesOpen group (text ++ line) := by
  obtain ⟨front, back, heq, hback⟩ := h
  refine ⟨front, back ++ line.toList, ?_, fun hend => ?_⟩
  · rw [String.toList_append, heq, List.append_assoc _ back]
  · rw [infix_append_iff newline_not_mem_registrationEnd (complete_part htext heq)] at hend
    exact hend.elim hback hline

theorem leavesOpen_append_iff (hgroup : '\n' ∉ group.toList) (htext : Complete text) :
    LeavesOpen group (text ++ line) ↔
      LeavesOpen group line ∨ LeavesOpen group text ∧ ¬ registrationEnd <:+: line.toList := by
  constructor
  · rintro ⟨front, back, heq, hback⟩
    rw [String.toList_append] at heq
    rcases append_eq_part (newline_not_mem_registration hgroup) htext heq with
      ⟨gap, htext', rfl⟩ | ⟨gap, hline, -⟩
    · have hgap : ¬ registrationEnd <:+: gap :=
        fun h => hback (h.trans (List.prefix_append _ _).isInfix)
      have hline : ¬ registrationEnd <:+: line.toList :=
        fun h => hback (h.trans (List.suffix_append _ _).isInfix)
      exact .inr ⟨⟨front, gap, htext', hgap⟩, hline⟩
    · exact .inl ⟨gap, back, hline, hback⟩
  · rintro (⟨front, back, heq, hback⟩ | ⟨hopen, hline⟩)
    · exact ⟨text.toList ++ front, back, by simp [heq], hback⟩
    · exact hopen.append htext hline

theorem Registered.leavesOpen {part : String} (h : Registered group before part after) :
    LeavesOpen group before := by
  obtain ⟨front, gap, stretch, rest, hfront, -, hnot⟩ := h
  refine ⟨front, gap, hfront, fun hend => hnot ?_⟩
  rw [List.append_assoc]
  exact hend.trans (List.prefix_append _ _).isInfix

/-- A line lies in a registration if the lines in front of it leave one open that it does not end,
but that ends behind it. -/
theorem registered_iff (hbefore : Complete before) (hline : Complete line) :
    Registered group before line after ↔ LeavesOpen group before ∧
      ¬ registrationEnd <:+: line.toList ∧ registrationEnd <:+: after.toList := by
  constructor
  · intro h
    refine ⟨h.leavesOpen, ?_⟩
    obtain ⟨front, gap, stretch, rest, -, hafter, hnot⟩ := h
    exact ⟨fun hend => hnot (hend.trans (List.infix_append _ _ _)), stretch, rest, hafter.symm⟩
  · rintro ⟨⟨front, gap, hfront, hgap⟩, hnot, hafter⟩
    have hne : registrationEnd ≠ [] := by decide
    obtain ⟨stretch, rest, hrest, hfirst⟩ := exists_first_part hne hafter
    have hwithin : ¬ registrationEnd <:+: gap ++ line.toList := by
      rw [infix_append_iff newline_not_mem_registrationEnd (complete_part hbefore hfront)]
      exact not_or.2 ⟨hgap, hnot⟩
    have hlast : ∀ c ∈ (gap ++ line.toList).getLast?, c = '\n' :=
      complete_part (hbefore.append hline)
        (by rw [String.toList_append, hfront, List.append_assoc])
    refine ⟨front, gap, stretch, rest, hfront, hrest, ?_⟩
    rw [infix_append_iff newline_not_mem_registrationEnd hlast]
    exact not_or.2 ⟨hwithin, hfirst⟩

theorem not_registrationEnd_join {lines : List String} (hlines : ∀ line ∈ lines, Complete line)
    (hnot : ∀ line ∈ lines, ¬ registrationEnd <:+: line.toList) :
    ¬ registrationEnd <:+: (String.join lines).toList := by
  induction lines with
  | nil => decide
  | cons line lines ih =>
      rw [String.join_cons, String.toList_append,
        infix_append_iff newline_not_mem_registrationEnd (hlines line List.mem_cons_self)]
      exact not_or.2 ⟨hnot line List.mem_cons_self,
        ih (fun other hmem => hlines other (List.mem_cons_of_mem line hmem))
          fun other hmem => hnot other (List.mem_cons_of_mem line hmem)⟩

end

/-! ## Delimiters -/

section

variable {group line : String}

/-- A line that closes the region of a group ends a registration, and no other line does. -/
theorem groupBounds_closes_iff_end :
    (groupBounds group).closes line ↔ registrationEnd <:+: line.toList := by
  obtain ⟨ending, hline, hending⟩ := exists_content line
  have hlast : ';' ∉ ending := by
    intro hmem
    rcases hending ';' hmem with h | h <;> revert h <;> decide
  have hiff : "])".toList ++ [';'] <:+: content line ++ ending ↔
      "])".toList ++ [';'] <:+: content line := infix_append_iff_of_last hlast
  rw [groupBounds_closes_iff, hline]
  exact hiff.symm

/-- No line opens the region of a group whose name goes over several lines. -/
theorem newline_not_mem_of_opens (hline : Terminated line) (h : (groupBounds group).opens line) :
    '\n' ∉ group.toList := by
  intro hgroup
  obtain ⟨c, -, hinfix⟩ := (groupBounds_opens_iff group line).1 h
  have hcall : '\n' ∈ groupCall group := List.mem_append_left _ (List.mem_append_right _ hgroup)
  have hcontent := hinfix.subset (List.mem_append_right _ (List.mem_cons_of_mem c hcall))
  exact newline_not_mem_content hline hcontent

end

end LintLedger.Listing
