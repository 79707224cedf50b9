import Mathlib.Data.List.Basic
import LintLedger.Text.Line

/-!
# Lines as they stand in a text

A line that ends in its only line feed can be put in front of any text: cutting the whole gives
that line and then the lines of the text. Only the last line of a text may lack its line feed.
These are the lists of lines that come back when they are joined and cut again.
-/

namespace LintLedger.Text

/-! ## Pieces -/

theorem chunks_append_newline {cs : List Char} (h : '\n' ∉ cs) (ds : List Char) :
    chunks (cs ++ '\n' :: ds) = (cs ++ ['\n']) :: chunks ds := by
  induction cs with
  | nil =>
      simp [chunks]
  | cons c cs ih =>
      have hc : c ≠ '\n' := by
        rintro rfl
        exact h List.mem_cons_self
      have hcs : '\n' ∉ cs := fun hmem => h (List.mem_cons_of_mem c hmem)
      simp [chunks, hc, ih hcs]

theorem chunks_of_not_mem {cs : List Char} (hne : cs ≠ []) (h : '\n' ∉ cs) :
    chunks cs = [cs] := by
  induction cs with
  | nil => exact (hne rfl).elim
  | cons c cs ih =>
      have hc : c ≠ '\n' := by
        rintro rfl
        exact h List.mem_cons_self
      have hcs : '\n' ∉ cs := fun hmem => h (List.mem_cons_of_mem c hmem)
      cases cs with
      | nil => simp [chunks, hc]
      | cons d ds =>
          rw [chunks, if_neg hc, ih (List.cons_ne_nil d ds) hcs]

/-- Behind a line feed, and at its very beginning, a text can be cut in two. -/
theorem chunks_append {cs : List Char} (h : ∀ c ∈ cs.getLast?, c = '\n') (ds : List Char) :
    chunks (cs ++ ds) = chunks cs ++ chunks ds := by
  induction cs with
  | nil => rfl
  | cons c cs ih =>
      have hcs : ∀ d ∈ cs.getLast?, d = '\n' := by
        intro d hd
        refine h d ?_
        rw [List.getLast?_cons, Option.mem_def.1 hd]
        rfl
      by_cases hc : c = '\n'
      · simp [chunks, hc, ih hcs]
      · have hne : cs ≠ [] := by
          rintro rfl
          exact hc (h c rfl)
        have hpieces : chunks cs ≠ [] := by
          intro hnil
          have hflat := flatten_chunks cs
          rw [hnil] at hflat
          exact hne hflat.symm
        obtain ⟨piece, pieces, hchunks⟩ := List.exists_cons_of_ne_nil hpieces
        simp [chunks, hc, ih hcs, hchunks]

/-! ## Lines -/

/-- A line with its line end: one line feed, which is the last character. -/
def Terminated (line : String) : Prop :=
  ∃ cs : List Char, '\n' ∉ cs ∧ line.toList = cs ++ ['\n']

theorem splitLines_append {line : String} (h : Terminated line) (text : String) :
    splitLines (line ++ text) = line :: splitLines text := by
  obtain ⟨cs, hcs, hline⟩ := h
  have hchunks : chunks (line ++ text).toList = line.toList :: chunks text.toList := by
    rw [String.toList_append, hline, List.append_assoc]
    exact chunks_append_newline hcs text.toList
  rw [splitLines, hchunks, List.map_cons, String.ofList_toList, splitLines]

theorem splitLines_of_not_mem {line : String} (hne : line ≠ "") (h : '\n' ∉ line.toList) :
    splitLines line = [line] := by
  have hlist : line.toList ≠ [] := by
    simpa using hne
  rw [splitLines, chunks_of_not_mem hlist h, List.map_singleton, String.ofList_toList]

theorem splitLines_empty : splitLines "" = [] := rfl

/-- A text that ends where a line ends. -/
def Complete (text : String) : Prop :=
  ∀ c ∈ text.toList.getLast?, c = '\n'

theorem complete_of_toList {text : String} {cs : List Char} (h : text.toList = cs ++ ['\n']) :
    Complete text := by
  simp [Complete, h]

theorem Terminated.complete {line : String} (h : Terminated line) : Complete line := by
  obtain ⟨cs, -, hline⟩ := h
  exact complete_of_toList hline

theorem Complete.append {text rest : String} (h : Complete text) (hrest : Complete rest) :
    Complete (text ++ rest) := by
  intro c hc
  rw [String.toList_append, List.getLast?_append, Option.mem_def, Option.or_eq_some_iff] at hc
  rcases hc with hlast | ⟨-, hfirst⟩
  · exact hrest c hlast
  · exact h c hfirst

theorem complete_join {texts : List String} (h : ∀ text ∈ texts, Complete text) :
    Complete (String.join texts) := by
  induction texts with
  | nil => simp [Complete]
  | cons text texts ih =>
      rw [String.join_cons]
      exact (h text List.mem_cons_self).append
        (ih fun other hmem => h other (List.mem_cons_of_mem text hmem))

theorem splitLines_append_of_complete {text : String} (h : Complete text) (rest : String) :
    splitLines (text ++ rest) = splitLines text ++ splitLines rest := by
  rw [splitLines, String.toList_append, chunks_append h, List.map_append, splitLines, splitLines]

/-- Lines as they stand in a text: only the last one may lack its line end, and none is empty. -/
inductive WellSplit : List String → Prop
  | nil : WellSplit []
  | last {line : String} : line ≠ "" → '\n' ∉ line.toList → WellSplit [line]
  | cons {line : String} {lines : List String} :
      Terminated line → WellSplit lines → WellSplit (line :: lines)

namespace WellSplit

theorem terminated_of_cons {line : String} {lines : List String} (h : WellSplit (line :: lines))
    (hne : lines ≠ []) : Terminated line := by
  cases h with
  | last _ _ => exact (hne rfl).elim
  | cons hline _ => exact hline

theorem tail {line : String} {lines : List String} (h : WellSplit (line :: lines)) :
    WellSplit lines := by
  cases h with
  | last _ _ => exact nil
  | cons _ hlines => exact hlines

theorem append {front back : List String} (hfront : ∀ line ∈ front, Terminated line)
    (hback : WellSplit back) : WellSplit (front ++ back) := by
  induction front with
  | nil => exact hback
  | cons line front ih =>
      have hline := hfront line List.mem_cons_self
      exact cons hline (ih fun other hmem => hfront other (List.mem_cons_of_mem line hmem))

/-- What stands before the last lines of a text is terminated. -/
theorem of_append {front back : List String} (h : WellSplit (front ++ back)) (hne : back ≠ []) :
    (∀ line ∈ front, Terminated line) ∧ WellSplit back := by
  induction front with
  | nil => exact ⟨by simp, h⟩
  | cons line front ih =>
      have hrest : front ++ back ≠ [] := by simp [hne]
      obtain ⟨hfront, hback⟩ := ih h.tail
      refine ⟨?_, hback⟩
      intro other hmem
      rcases List.mem_cons.1 hmem with rfl | hmem
      · exact h.terminated_of_cons hrest
      · exact hfront other hmem

/-- No line feed stands before the end of a line. -/
theorem newline_not_mem {lines : List String} (h : WellSplit lines) {line : String}
    (hmem : line ∈ lines) {cs ds : List Char} (hline : line.toList = cs ++ '\n' :: ds) :
    ds = [] := by
  induction h with
  | nil => simp at hmem
  | last _ hnot =>
      obtain rfl := List.mem_singleton.1 hmem
      simp [hline] at hnot
  | @cons first rest hfirst _ ih =>
      rcases List.mem_cons.1 hmem with rfl | hmem
      · obtain ⟨es, hes, heq⟩ := hfirst
        rw [hline] at heq
        cases List.eq_nil_or_concat' ds with
        | inl hnil => exact hnil
        | inr hconcat =>
            obtain ⟨fs, f, rfl⟩ := hconcat
            have hsplit : (cs ++ '\n' :: fs) ++ [f] = es ++ ['\n'] := by
              simpa using heq
            obtain ⟨hes', -⟩ := List.append_inj' hsplit rfl
            exact (hes (by simp [← hes'])).elim
      · exact ih hmem

end WellSplit

theorem splitLines_join {lines : List String} (h : WellSplit lines) :
    splitLines (String.join lines) = lines := by
  induction h with
  | nil => exact splitLines_empty
  | last hne hnot => simpa using splitLines_of_not_mem hne hnot
  | cons hline _ ih => rw [String.join_cons, splitLines_append hline, ih]

theorem wellSplit_append_cons_iff {front back : List String} {line : String} :
    WellSplit (front ++ line :: back) ↔
      (∀ other ∈ front, Terminated other) ∧ WellSplit (line :: back) := by
  constructor
  · intro h
    exact h.of_append (List.cons_ne_nil line back)
  · rintro ⟨hfront, hback⟩
    exact .append hfront hback

/-- A line with a line feed before its end is no single line. -/
theorem not_terminated {line : String} {cs ds : List Char} (hne : ds ≠ [])
    (h : line.toList = cs ++ '\n' :: ds) : ¬ Terminated line := by
  intro hline
  have hsplit : WellSplit [line] := .cons hline .nil
  exact hne (hsplit.newline_not_mem List.mem_cons_self h)

theorem splitLines_join_append {front : List String} (h : ∀ line ∈ front, Terminated line)
    (text : String) : splitLines (String.join front ++ text) = front ++ splitLines text := by
  induction front with
  | nil => simp
  | cons line front ih =>
      have hfront := ih fun other hmem => h other (List.mem_cons_of_mem line hmem)
      rw [String.join_cons, String.append_assoc,
        splitLines_append (h line List.mem_cons_self), hfront, List.cons_append]

private theorem wellSplit_chunks (cs : List Char) :
    WellSplit ((chunks cs).map String.ofList) := by
  induction cs with
  | nil => exact .nil
  | cons c cs ih =>
      unfold chunks
      split
      · next hc =>
          subst hc
          exact .cons ⟨[], by simp, by simp⟩ ih
      · next hc =>
          split
          · exact .last (by simp) (by simpa using Ne.symm hc)
          · next piece pieces hchunks =>
              rw [hchunks] at ih
              simp only [List.map_cons] at ih ⊢
              generalize pieces.map String.ofList = lines at ih ⊢
              cases ih with
              | last _ hnot =>
                  refine .last (by simp) ?_
                  simpa [Ne.symm hc] using hnot
              | cons hpiece hpieces =>
                  obtain ⟨ds, hds, heq⟩ := hpiece
                  refine .cons ⟨c :: ds, ?_, ?_⟩ hpieces
                  · simpa [Ne.symm hc] using hds
                  · simpa using heq

theorem wellSplit_splitLines (text : String) : WellSplit (splitLines text) :=
  wellSplit_chunks text.toList

theorem splitLines_join_iff {lines : List String} :
    splitLines (String.join lines) = lines ↔ WellSplit lines := by
  constructor
  · intro h
    rw [← h]
    exact wellSplit_splitLines _
  · exact splitLines_join

/-! ## Lines of a text -/

theorem terminated_iff {line : String} :
    Terminated line ↔ '\n' ∉ line.toList.dropLast ∧ line.toList.getLast? = some '\n' := by
  constructor
  · rintro ⟨cs, hcs, hline⟩
    simp [hline, hcs]
  · rintro ⟨hinner, hlast⟩
    obtain ⟨cs, hcs⟩ := List.getLast?_eq_some_iff.1 hlast
    rw [hcs, List.dropLast_concat] at hinner
    exact ⟨cs, hinner, hcs⟩

theorem Terminated.ne_empty {line : String} (h : Terminated line) : line ≠ "" := by
  rintro rfl
  simp [terminated_iff] at h

theorem wellSplit_singleton_iff {line : String} :
    WellSplit [line] ↔ line ≠ "" ∧ '\n' ∉ line.toList.dropLast := by
  constructor
  · intro h
    cases h with
    | last hne hnot => exact ⟨hne, fun hmem => hnot (List.dropLast_subset _ hmem)⟩
    | cons hline _ => exact ⟨hline.ne_empty, (terminated_iff.1 hline).1⟩
  · rintro ⟨hne, hinner⟩
    by_cases hlast : line.toList.getLast? = some '\n'
    · exact .cons (terminated_iff.2 ⟨hinner, hlast⟩) .nil
    · refine .last hne ?_
      obtain ⟨cs, c, hline⟩ :=
        (List.eq_nil_or_concat' line.toList).resolve_left (by simpa using hne)
      rw [hline] at hinner hlast ⊢
      simp only [List.dropLast_concat, List.getLast?_concat, Option.some.injEq] at hinner hlast
      simp [hinner, Ne.symm hlast]

/-- Lines stand in a text as they are exactly if none is empty, no line feed stands before the end
of a line, and all but the last one end in a line feed. -/
theorem wellSplit_iff {lines : List String} :
    WellSplit lines ↔
      (∀ line ∈ lines, line ≠ "") ∧ (∀ line ∈ lines, '\n' ∉ line.toList.dropLast) ∧
        ∀ line ∈ lines.dropLast, line.toList.getLast? = some '\n' := by
  cases List.eq_nil_or_concat' lines with
  | inl hnil => exact iff_of_true (hnil ▸ .nil) (by simp [hnil])
  | inr hconcat =>
      obtain ⟨front, last, rfl⟩ := hconcat
      rw [wellSplit_append_cons_iff, wellSplit_singleton_iff, List.dropLast_concat]
      simp only [List.forall_mem_append, List.forall_mem_singleton]
      constructor
      · rintro ⟨hfront, hne, hinner⟩
        exact ⟨⟨fun line hline => (hfront line hline).ne_empty, hne⟩,
          ⟨fun line hline => (terminated_iff.1 (hfront line hline)).1, hinner⟩,
          fun line hline => (terminated_iff.1 (hfront line hline)).2⟩
      · rintro ⟨⟨-, hne⟩, ⟨hinners, hinner⟩, hends⟩
        exact ⟨fun line hline => terminated_iff.2 ⟨hinners line hline, hends line hline⟩,
          hne, hinner⟩

/-- The lines of a text are the only such lines that are the text when they are joined. -/
theorem eq_splitLines_iff {lines : List String} {text : String} :
    lines = splitLines text ↔ String.join lines = text ∧ WellSplit lines := by
  constructor
  · rintro rfl
    exact ⟨join_splitLines text, wellSplit_splitLines text⟩
  · rintro ⟨rfl, hlines⟩
    exact (splitLines_join hlines).symm
/-! ## Contents -/

theorem dropFinal_concat (c d : Char) (cs : List Char) :
    dropFinal c (cs ++ [d]) = if d = c then cs else cs ++ [d] := by
  simp [dropFinal]

theorem dropFinal_append (c : Char) (front : List Char) {back : List Char} (h : back ≠ []) :
    dropFinal c (front ++ back) = front ++ dropFinal c back := by
  obtain ⟨init, d, rfl⟩ := (List.eq_nil_or_concat' back).resolve_left h
  rw [← List.append_assoc, dropFinal_concat, dropFinal_concat]
  split
  · rfl
  · rw [List.append_assoc]

theorem content_eq {line : String} {cs : List Char} (h : line.toList = cs ++ ['\n']) :
    content line = dropFinal '\r' cs := by
  rw [content, h, dropFinal_concat, if_pos rfl]

private theorem exists_dropFinal (c : Char) (cs : List Char) :
    ∃ final, cs = dropFinal c cs ++ final ∧ ∀ d ∈ final, d = c := by
  cases List.eq_nil_or_concat' cs with
  | inl hnil => exact ⟨[], by simp [hnil, dropFinal], by simp⟩
  | inr hconcat =>
      obtain ⟨init, d, rfl⟩ := hconcat
      rw [dropFinal_concat]
      split
      · next hd => exact ⟨[d], rfl, by simp [hd]⟩
      · next hd => exact ⟨[], by simp, by simp⟩

theorem newline_not_mem_content {line : String} (h : Terminated line) : '\n' ∉ content line := by
  obtain ⟨cs, hcs, hline⟩ := h
  obtain ⟨carriage, hcarriage, -⟩ := exists_dropFinal '\r' cs
  intro hmem
  rw [content_eq hline] at hmem
  exact hcs (hcarriage ▸ List.mem_append_left carriage hmem)

/-- A line is its content and its line end. -/
theorem exists_content (line : String) :
    ∃ ending, line.toList = content line ++ ending ∧ ∀ c ∈ ending, c = '\n' ∨ c = '\r' := by
  obtain ⟨feed, hfeed, hfeeds⟩ := exists_dropFinal '\n' line.toList
  obtain ⟨carriage, hcarriage, hcarriages⟩ :=
    exists_dropFinal '\r' (dropFinal '\n' line.toList)
  refine ⟨carriage ++ feed, ?_, ?_⟩
  · rw [content, ← List.append_assoc, ← hcarriage, ← hfeed]
  · intro c hc
    rcases List.mem_append.1 hc with hc | hc
    · exact .inr (hcarriages c hc)
    · exact .inl (hfeeds c hc)

end LintLedger.Text
