import LintLedger.Listing
import LintLedger.Proofs.Lint.Name
import LintLedger.Proofs.Listing.Delimiters
import LintLedger.Proofs.Region.Renewal

/-!
# Generated lines and delimiters

What the delimiters of the three regions make of the lines that are generated for them. The title
line opens the table again, whatever its width, and no other line of the table is empty. The
sentence opens its own region. An entry of the group closes it only if its module does.
-/

namespace LintLedger.Listing

open Text

/-! ## Contents of lines -/

/-- A line that starts with something else than its line end has a content that starts so. -/
theorem content_cons {line : String} {c : Char} {cs : List Char}
    (h : line.toList = c :: cs ++ ['\n']) (hc : c ≠ '\r') : ∃ ds, content line = c :: ds := by
  rw [content_eq h]
  cases cs with
  | nil => exact ⟨[], dropFinal_concat '\r' c [] |>.trans (if_neg hc)⟩
  | cons d ds =>
      have hsplit := dropFinal_append '\r' [c] (List.cons_ne_nil d ds)
      exact ⟨dropFinal '\r' (d :: ds), hsplit⟩

private theorem inner_newline (front : List Char) {middle back : List Char} (h : '\n' ∈ middle)
    (hback : back ≠ []) :
    ∃ cs ds, ds ≠ [] ∧ front ++ middle ++ back = cs ++ '\n' :: ds := by
  obtain ⟨cs, ds, rfl⟩ := List.append_of_mem h
  exact ⟨front ++ cs, ds ++ back, by simp [hback], by simp⟩

theorem not_closes_table {line : String} {c : Char} {cs : List Char}
    (h : line.toList = c :: cs ++ ['\n']) (hc : c ≠ '\r') : ¬ tableBounds.closes line := by
  obtain ⟨ds, hcontent⟩ := content_cons h hc
  rw [tableBounds_closes_iff, hcontent]
  exact List.cons_ne_nil c ds

theorem not_opens_count {line : String} {c : Char} {cs : List Char}
    (h : line.toList = c :: cs ++ ['\n']) (hc : c ≠ '\r') (hT : c ≠ 'T') :
    ¬ countBounds.opens line := by
  obtain ⟨ds, hcontent⟩ := content_cons h hc
  rw [countBounds_opens_iff, hcontent]
  rintro ⟨digits, rest, -, -, heq⟩
  have hhead : c = 'T' := by
    have hheads := congrArg List.head? heq
    simpa using hheads
  exact hT hhead

/-! ## The table -/

private theorem toList_blanks (n : Nat) : (blanks n).toList = List.replicate n ' ' :=
  String.toList_ofList

private theorem toList_dashes (n : Nat) : (dashes n).toList = List.replicate n '-' :=
  String.toList_ofList

private theorem toList_header (width : Nat) :
    (header width).toList = "name".toList ++ (List.replicate (lacking width "name") ' ' ++ [' '])
      ++ ['|'] ++ " default | meaning".toList ++ ['\n'] := by
  have hend : " | default | meaning\n".toList =
      [' '] ++ ['|'] ++ " default | meaning".toList ++ ['\n'] := rfl
  rw [header, String.toList_append, alignLeft, String.toList_append, toList_blanks, hend]
  simp only [List.append_assoc]

theorem header_opens (width : Nat) : tableBounds.opens (header width) := by
  rw [tableBounds_opens_iff]
  have hgap : ∀ c ∈ List.replicate (lacking width "name") ' ' ++ [' '], c = ' ' := by
    intro c hc
    rcases List.mem_append.1 hc with hc | hc
    · exact List.eq_of_mem_replicate hc
    · exact List.mem_singleton.1 hc
  refine ⟨_, " default | meaning".toList, by simp, hgap, ?_⟩
  rw [content_eq (toList_header width), dropFinal_append _ _ (by decide)]
  rfl

theorem header_terminated (width : Nat) : Terminated (header width) := by
  refine ⟨_, ?_, toList_header width⟩
  simp [List.mem_replicate]

private theorem toList_underline (width width' : Nat) : ∃ cs, (∀ c ∈ cs, c = '-' ∨ c = '|') ∧
    (underline width width').toList = cs ++ ['\n'] ∧ ∃ ds, cs = '-' :: ds := by
  have hbar : "-|-".toList = ['-', '|', '-'] := rfl
  have hend : "\n".toList = ['\n'] := rfl
  refine ⟨List.replicate width '-' ++ ['-', '|', '-'] ++ List.replicate levelWidth '-'
    ++ ['-', '|', '-'] ++ List.replicate width' '-', ?_, ?_, ?_⟩
  · intro c hc
    simp only [List.mem_append, List.mem_replicate, List.mem_cons, List.not_mem_nil,
      or_false] at hc
    tauto
  · simp only [underline, String.toList_append, toList_dashes, hbar, hend]
  · cases width with
    | zero => exact ⟨_, rfl⟩
    | succ width => exact ⟨_, rfl⟩

theorem underline_terminated (width width' : Nat) : Terminated (underline width width') := by
  obtain ⟨cs, hcs, htext, -⟩ := toList_underline width width'
  refine ⟨cs, fun hmem => ?_, htext⟩
  rcases hcs _ hmem with h | h <;> exact absurd h (by decide)

theorem toList_row (width : Nat) (lint : Lint) :
    (row width lint).toList = lint.name.toList ++ List.replicate (lacking width lint.name) ' '
      ++ " | ".toList ++ (alignLeft levelWidth lint.level.text).toList ++ " | ".toList
      ++ lint.description.toList ++ ['\n'] := by
  have hend : "\n".toList = ['\n'] := rfl
  rw [row, Level.display_left, String.toList_append, String.toList_append, String.toList_append,
    String.toList_append, String.toList_append, alignLeft, String.toList_append, toList_blanks,
    hend]

private theorem row_cons {lint : Lint} (h : Lint.IsName lint.name) (width : Nat) :
    ∃ c cs, Lint.isNameChar c ∧ (row width lint).toList = c :: cs ++ ['\n'] := by
  cases hname : lint.name.toList with
  | nil => exact (h.1 (String.toList_eq_nil_iff.1 hname)).elim
  | cons c cs =>
      have hrow := toList_row width lint
      rw [hname] at hrow
      simp only [List.cons_append] at hrow
      exact ⟨c, _, h.2 c (by simp [hname]), hrow⟩

private theorem ne_of_isNameChar {c d : Char} (h : Lint.isNameChar c)
    (hd : Lint.isNameChar d = false) : c ≠ d := by
  rintro rfl
  rw [h] at hd
  cases hd

private theorem newline_not_mem_level (level : Level) :
    '\n' ∉ (alignLeft levelWidth level.text).toList := by
  cases level <;> decide

theorem row_terminated {lint : Lint} (h : Lint.IsName lint.name)
    (hdescription : '\n' ∉ lint.description.toList) (width : Nat) :
    Terminated (row width lint) := by
  refine ⟨_, ?_, toList_row width lint⟩
  have hname : '\n' ∉ lint.name.toList := fun hmem => absurd (h.2 _ hmem) (by decide)
  have hbar : '\n' ∉ " | ".toList := by decide
  simp only [List.mem_append, List.mem_replicate, hname, hbar, hdescription,
    newline_not_mem_level, or_false, false_or]
  rintro ⟨-, h⟩
  exact absurd h (by decide)

/-- A line feed in a description stands before the end of the row. -/
theorem row_newline {lint : Lint} (h : '\n' ∈ lint.description.toList) (width : Nat) :
    ∃ cs ds, ds ≠ [] ∧ (row width lint).toList = cs ++ '\n' :: ds := by
  rw [toList_row]
  exact inner_newline _ h (List.cons_ne_nil _ _)

theorem mem_table {lints : List Lint} {line : String} (h : line ∈ (table lints).tail) :
    (∃ width width', line = underline width width') ∨
      ∃ lint ∈ lints, ∃ width, line = row width lint := by
  rcases List.mem_cons.1 h with rfl | h
  · exact .inl ⟨_, _, rfl⟩
  · obtain ⟨lint, hlint, rfl⟩ := List.mem_map.1 h
    exact .inr ⟨lint, (List.mergeSort_perm lints nameOrder).mem_iff.1 hlint, _, rfl⟩

theorem exists_row_mem_table {lints : List Lint} {lint : Lint} (h : lint ∈ lints) :
    ∃ width, row width lint ∈ table lints :=
  ⟨_, List.mem_cons_of_mem _ (List.mem_cons_of_mem _ (List.mem_map_of_mem
    ((List.mergeSort_perm lints nameOrder).mem_iff.2 h)))⟩

/-- Whatever the lints are, no line of the table lacks its line end. -/
theorem table_complete {lints : List Lint} {line : String} (h : line ∈ table lints) :
    Complete line := by
  rcases List.mem_cons.1 h with rfl | h
  · exact (header_terminated _).complete
  rcases mem_table h with ⟨width, width', rfl⟩ | ⟨lint, -, width, rfl⟩
  · exact (underline_terminated width width').complete
  · exact complete_of_toList (toList_row width lint)

/-- A line of the table starts with a dash or with a letter of a name. -/
theorem table_cons {lints : List Lint} (h : ∀ lint ∈ lints, Lint.IsName lint.name)
    {line : String} (hline : line ∈ table lints) :
    ∃ c cs, line.toList = c :: cs ++ ['\n'] ∧ c ≠ '\r' ∧ c ≠ 'T' := by
  rcases List.mem_cons.1 hline with rfl | hline
  · exact ⟨'n', _, toList_header _, by decide, by decide⟩
  rcases mem_table hline with ⟨width, width', rfl⟩ | ⟨lint, hlint, width, rfl⟩
  · obtain ⟨cs, -, htext, ds, rfl⟩ := toList_underline width width'
    exact ⟨'-', ds, htext, by decide, by decide⟩
  · obtain ⟨c, cs, hc, htext⟩ := row_cons (h lint hlint) width
    exact ⟨c, cs, htext, ne_of_isNameChar hc (by decide), ne_of_isNameChar hc (by decide)⟩

theorem table_terminated {lints : List Lint} (h : ∀ lint ∈ lints, Lint.IsName lint.name)
    (hdescription : ∀ lint ∈ lints, '\n' ∉ lint.description.toList) {line : String}
    (hline : line ∈ table lints) : Terminated line := by
  rcases List.mem_cons.1 hline with rfl | hline
  · exact header_terminated _
  rcases mem_table hline with ⟨width, width', rfl⟩ | ⟨lint, hlint, width, rfl⟩
  · exact underline_terminated width width'
  · exact row_terminated (h lint hlint) (hdescription lint hlint) width

theorem table_terminated_iff {lints : List Lint} (h : ∀ lint ∈ lints, Lint.IsName lint.name) :
    (∀ line ∈ table lints, Terminated line) ↔
      ∀ lint ∈ lints, '\n' ∉ lint.description.toList := by
  constructor
  · intro hall lint hlint hnewline
    obtain ⟨width, hrow⟩ := exists_row_mem_table hlint
    obtain ⟨cs, ds, hne, htext⟩ := row_newline hnewline width
    exact not_terminated hne htext (hall _ hrow)
  · intro hall line hline
    exact table_terminated h hall hline

theorem table_accepted {lints : List Lint} (h : ∀ lint ∈ lints, Lint.IsName lint.name) :
    tableBounds.Accepts (table lints) := by
  refine ⟨_, _, rfl, header_opens _, ?_⟩
  intro line hline
  obtain ⟨c, cs, htext, hc, -⟩ := table_cons h (List.mem_cons_of_mem _ hline)
  exact not_closes_table htext hc

/-! ## The number of lints -/

theorem toList_countSentence (n : Nat) :
    (countSentence n).toList = "There are ".toList ++ Nat.toDigits 10 n
      ++ " lints included in this crate:".toList ++ ['\n'] := by
  have hend : " lints included in this crate:\n".toList =
      " lints included in this crate:".toList ++ ['\n'] := rfl
  have hdigits : (toString n).toList = Nat.toDigits 10 n := Nat.toList_repr
  rw [countSentence, String.toList_append, String.toList_append, hdigits, hend]
  simp only [List.append_assoc]

private theorem countSentence_cons (n : Nat) :
    ∃ cs, (countSentence n).toList = 'T' :: cs ++ ['\n'] :=
  ⟨_, toList_countSentence n⟩

private theorem isDigit_of_ascii {c : Char} (h : c.isDigit) : Text.isDigit c := by
  have hrange : 48 ≤ c.toNat ∧ c.toNat ≤ 57 := Char.isDigit_iff_toNat.1 h
  simp only [Text.isDigit, zeros, List.any_cons, Bool.or_eq_true]
  left
  simpa using hrange

theorem countSentence_opens (n : Nat) : countBounds.opens (countSentence n) := by
  rw [countBounds_opens_iff]
  refine ⟨Nat.toDigits 10 n, [], Nat.toDigits_ne_nil, ?_, ?_⟩
  · intro c hc
    exact isDigit_of_ascii (Nat.isDigit_of_mem_toDigits (by decide) (by decide) hc)
  · rw [content_eq (toList_countSentence n), dropFinal_append _ _ (by decide), List.append_nil]
    rfl

theorem countSentence_terminated (n : Nat) : Terminated (countSentence n) := by
  refine ⟨_, ?_, toList_countSentence n⟩
  have hdigits : '\n' ∉ Nat.toDigits 10 n := fun hmem =>
    absurd (Nat.isDigit_of_mem_toDigits (by decide) (by decide) hmem) (by decide)
  simp [hdigits]

theorem countSentence_accepted (n : Nat) : countBounds.Accepts [countSentence n] :=
  ⟨_, _, rfl, countSentence_opens n, by simp⟩

/-- A line that starts with a capital T is no delimiter of the table. -/
theorem table_ignores {line : String} {cs : List Char} (h : content line = 'T' :: cs) :
    ¬ tableBounds.opens line ∧ ¬ tableBounds.closes line := by
  rw [tableBounds_opens_iff, tableBounds_closes_iff, h]
  constructor
  · rintro ⟨gap, rest, -, -, heq⟩
    have hheads := congrArg List.head? heq
    simp at hheads
  · exact List.cons_ne_nil _ _

theorem table_ignores_countSentence (n : Nat) :
    ¬ tableBounds.opens (countSentence n) ∧ ¬ tableBounds.closes (countSentence n) := by
  obtain ⟨cs, htext⟩ := countSentence_cons n
  obtain ⟨ds, hcontent⟩ := content_cons htext (by decide)
  exact table_ignores hcontent

theorem table_ignores_count_opening {line : String} (h : countBounds.opens line) :
    ¬ tableBounds.opens line ∧ ¬ tableBounds.closes line := by
  obtain ⟨digits, rest, -, -, hcontent⟩ := (countBounds_opens_iff line).1 h
  exact table_ignores hcontent

/-! ## The group -/

theorem toList_entry (lint : Lint) :
    (entry lint).toList = "        ".toList ++ lint.module.toList
      ++ ("::".toList ++ (upper lint.name).toList ++ [',']) ++ ['\n'] := by
  have hend : ",\n".toList = [','] ++ ['\n'] := rfl
  rw [entry, String.toList_append, String.toList_append, String.toList_append,
    String.toList_append, hend]
  simp only [List.append_assoc]

private theorem mem_around_module {lint : Lint} (h : Lint.IsName lint.name) {c : Char}
    (hc : c ∈ "        ".toList ∨ c ∈ "::".toList ++ (upper lint.name).toList ++ [',']) :
    c = ' ' ∨ c = ':' ∨ c = ',' ∨ Lint.isCapital c := by
  rcases hc with hc | hc
  · have hblank : c = ' ' := by simpa using hc
    exact .inl hblank
  · rcases List.mem_append.1 hc with hc | hc
    · rcases List.mem_append.1 hc with hc | hc
      · have hcolon : c = ':' := by simpa using hc
        exact .inr (.inl hcolon)
      · exact .inr (.inr (.inr (Lint.isCapital_of_mem_upper h hc)))
    · exact .inr (.inr (.inl (List.mem_singleton.1 hc)))

theorem entry_terminated {lint : Lint} (h : Lint.IsName lint.name)
    (hmodule : '\n' ∉ lint.module.toList) : Terminated (entry lint) := by
  refine ⟨_, fun hmem => ?_, toList_entry lint⟩
  have haround : ¬ ('\n' ∈ "        ".toList ∨
      '\n' ∈ "::".toList ++ (upper lint.name).toList ++ [',']) := by
    intro hmem
    rcases mem_around_module h hmem with h | h | h | h <;> exact absurd h (by decide)
  rcases List.mem_append.1 hmem with hmem | hmem
  · rcases List.mem_append.1 hmem with hmem | hmem
    · exact haround (.inl hmem)
    · exact hmodule hmem
  · exact haround (.inr hmem)

/-- A line feed in a module stands before the end of the entry. -/
theorem entry_newline {lint : Lint} (h : '\n' ∈ lint.module.toList) :
    ∃ cs ds, ds ≠ [] ∧ (entry lint).toList = cs ++ '\n' :: ds := by
  rw [toList_entry, List.append_assoc]
  exact inner_newline _ h (by simp)

/-- An entry closes the region of the group if the end of the call stands in its module. -/
theorem entry_closes_iff {lint : Lint} (h : Lint.IsName lint.name) (group : String) :
    (groupBounds group).closes (entry lint) ↔ "]);".toList <:+: lint.module.toList := by
  have hcontent : content (entry lint) = "        ".toList ++ lint.module.toList
      ++ ("::".toList ++ (upper lint.name).toList ++ [',']) := by
    rw [content_eq (toList_entry lint), ← List.append_assoc, dropFinal_concat, if_neg (by decide)]
  have hcall : ∀ c ∈ "]);".toList, ¬ (c = ' ' ∨ c = ':' ∨ c = ',' ∨ Lint.isCapital c) := by
    intro c hc
    have hchar : c = ']' ∨ c = ')' ∨ c = ';' := by simpa using hc
    rcases hchar with rfl | rfl | rfl <;> decide
  rw [groupBounds_closes_iff, hcontent]
  refine infix_between_iff (by decide) (fun c hc hmem => ?_) fun c hc hmem => ?_
  · exact hcall c hc (mem_around_module h (.inl hmem))
  · exact hcall c hc (mem_around_module h (.inr hmem))

theorem mem_group_iff {lints : List Lint} {line : String} :
    line ∈ group lints ↔ ∃ lint ∈ lints, line = entry lint := by
  rw [group, List.mem_map]
  constructor
  · rintro ⟨lint, hlint, rfl⟩
    exact ⟨lint, (List.mergeSort_perm lints groupOrder).mem_iff.1 hlint, rfl⟩
  · rintro ⟨lint, hlint, rfl⟩
    exact ⟨lint, (List.mergeSort_perm lints groupOrder).mem_iff.2 hlint, rfl⟩

theorem group_terminated_iff {lints : List Lint} (h : ∀ lint ∈ lints, Lint.IsName lint.name) :
    (∀ line ∈ group lints, Terminated line) ↔ ∀ lint ∈ lints, '\n' ∉ lint.module.toList := by
  constructor
  · intro hall lint hlint hnewline
    obtain ⟨cs, ds, hne, htext⟩ := entry_newline hnewline
    exact not_terminated hne htext (hall _ (mem_group_iff.2 ⟨lint, hlint, rfl⟩))
  · intro hall line hline
    obtain ⟨lint, hlint, rfl⟩ := mem_group_iff.1 hline
    exact entry_terminated (h lint hlint) (hall lint hlint)

theorem group_accepted {lints : List Lint} (h : ∀ lint ∈ lints, Lint.IsName lint.name)
    (hcall : ∀ lint ∈ lints, ¬ "]);".toList <:+: lint.module.toList) (name : String) :
    (groupBounds name).Accepts (group lints) := by
  intro line hline
  obtain ⟨lint, hlint, rfl⟩ := mem_group_iff.1 hline
  rw [entry_closes_iff (h lint hlint)]
  exact hcall lint hlint

end LintLedger.Listing
