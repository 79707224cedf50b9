import LintLedger.Pattern.Parser
import LintLedger.Pattern.Quote
import LintLedger.Proofs.Pattern.Language

/-!
# Reading quoted texts

A quoted text in a pattern adds its characters one after the other, whatever they mean elsewhere
in a pattern. Where white space means nothing, the white space of the text is lost.
-/

namespace LintLedger.Pattern

/-- The characters of a text that count in a pattern with some flags. -/
def Flags.counted (f : Flags) (text : List Char) : List Char :=
  if f.verbose then text.filter fun c => !Text.isBlank c else text

theorem Flags.counted_cons_of_skipped {f : Flags} {c : Char} {cs : List Char}
    (h : f.verbose && Text.isBlank c) : f.counted (c :: cs) = f.counted cs := by
  obtain ⟨hverbose, hblank⟩ : f.verbose ∧ Text.isBlank c := by simpa using h
  simp [counted, hverbose, hblank]

theorem Flags.counted_cons_of_not_skipped {f : Flags} {c : Char} {cs : List Char}
    (h : ¬ (f.verbose && Text.isBlank c)) : f.counted (c :: cs) = c :: f.counted cs := by
  by_cases hverbose : f.verbose
  · have hblank : Text.isBlank c = false := by simpa [hverbose] using h
    simp [counted, hverbose, hblank]
  · simp [counted, hverbose]

namespace State

def pushText (st : State) (text : List Char) : State :=
  text.foldl pushChar st

theorem pushText_items {st : State} (h : st.flags.anyCase = false) (text : List Char) :
    (st.pushText text).items = (text.map Expr.literal).reverse ++ st.items := by
  induction text generalizing st with
  | nil => rfl
  | cons c cs ih =>
      have hc : (st.pushChar c).flags.anyCase = false := h
      have hitems : (st.pushChar c).items = Expr.literal c :: st.items := by
        simp [pushChar, pushSet, push, h, Expr.literal]
      rw [pushText, List.foldl_cons, ← pushText, ih hc, hitems]
      simp

/-- Adding a text changes nothing but the items and whether the last one can be repeated. -/
theorem pushText_eq (st : State) (text : List Char) :
    st.pushText text = { st with
      items := (st.pushText text).items, repeatable := (st.pushText text).repeatable } := by
  induction text generalizing st with
  | nil => rfl
  | cons c cs ih => exact ih (st.pushChar c)

end State

theorem ofChar_of_mem_metaChars {c : Char} (h : c ∈ metaChars) :
    Escape.ofChar c = .ok (.char c) := by
  simp only [metaChars, List.mem_cons, List.not_mem_nil, or_false] at h
  rcases h with rfl | rfl | rfl | rfl | rfl | rfl | rfl | rfl | rfl | rfl | rfl | rfl | rfl | rfl |
    rfl | rfl | rfl | rfl <;> rfl

theorem not_isBlank_of_mem_metaChars {c : Char} (h : c ∈ metaChars) :
    Text.isBlank c = false := by
  simp only [metaChars, List.mem_cons, List.not_mem_nil, or_false] at h
  rcases h with rfl | rfl | rfl | rfl | rfl | rfl | rfl | rfl | rfl | rfl | rfl | rfl | rfl | rfl |
    rfl | rfl | rfl | rfl <;> rfl

theorem step_of_not_mem_metaChars {st : State} {c : Char} (hmeta : c ∉ metaChars)
    (hskip : ¬ (st.flags.verbose && Text.isBlank c)) (cs : List Char) :
    st.step c cs = .ok (st.pushChar c, 0) := by
  simp only [metaChars, List.mem_cons, List.not_mem_nil, or_false, not_or] at hmeta
  unfold State.step
  rw [if_neg hskip]
  split <;> simp_all

theorem quote_append (text text' : List Char) :
    quote (text ++ text') = quote text ++ quote text' :=
  List.flatMap_append

/-- A dot reads any character of a line. -/
theorem readOn_dot {st : State} (h : st.flags = .none) (rest : List Char) :
    st.readOn 0 ('.' :: rest) = (st.push (.char .withinLine)).readOn 0 rest := by
  have hstep : st.step '.' rest = .ok (st.push (.char .withinLine), 0) := by
    simp [State.step, h, Flags.none]
  simp [State.readOn, hstep, bind, Except.bind]

theorem readOn_quoteChar (st : State) (c : Char) (rest : List Char) :
    st.readOn 0 (quoteChar c ++ rest) = (st.pushText (st.flags.counted [c])).readOn 0 rest := by
  by_cases hmeta : c ∈ metaChars
  · have hskip : ¬ (st.flags.verbose && Text.isBlank c) := by
      simp [not_isBlank_of_mem_metaChars hmeta]
    have hslash : Text.isBlank '\\' = false := by decide
    rw [Flags.counted_cons_of_not_skipped hskip, quoteChar, if_pos hmeta]
    simp [State.readOn, State.step, hslash, ofChar_of_mem_metaChars hmeta, State.pushEscape,
      State.pushText, Flags.counted, bind, Except.bind, pure, Except.pure]
  · rw [quoteChar, if_neg hmeta]
    by_cases hskip : st.flags.verbose && Text.isBlank c
    · have hstep : st.step c rest = .ok (st, 0) := by
        unfold State.step
        rw [if_pos hskip]
      rw [Flags.counted_cons_of_skipped hskip]
      simp [State.readOn, hstep, State.pushText, Flags.counted, bind, Except.bind]
    · rw [Flags.counted_cons_of_not_skipped hskip]
      simp [State.readOn, step_of_not_mem_metaChars hmeta hskip, State.pushText, Flags.counted,
        bind, Except.bind]

theorem readOn_quote (st : State) (text rest : List Char) :
    st.readOn 0 (quote text ++ rest) = (st.pushText (st.flags.counted text)).readOn 0 rest := by
  induction text generalizing st with
  | nil => simp [quote, State.pushText, Flags.counted]
  | cons c cs ih =>
      have hsplit : quote (c :: cs) = quoteChar c ++ quote cs := by simp [quote]
      have hcounted : st.flags.counted (c :: cs) =
          st.flags.counted [c] ++ st.flags.counted cs := by
        by_cases hverbose : st.flags.verbose <;> simp [Flags.counted, hverbose, List.filter_cons]
        split <;> rfl
      have hflags : (st.pushText (st.flags.counted [c])).flags = st.flags := by
        rw [State.pushText_eq]
      rw [hsplit, List.append_assoc, readOn_quoteChar, ih, hflags, hcounted]
      simp [State.pushText]

end LintLedger.Pattern
