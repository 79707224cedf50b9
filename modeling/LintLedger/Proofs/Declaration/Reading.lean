import LintLedger.Proofs.Declaration.Expression
import LintLedger.Proofs.Pattern.Group

/-!
# What the pattern for declarations reads

The expression for declarations reads a stretch of a text exactly if the stretch is a declaration,
wherever it stands. The groups mark the name, the level and the text between the quotes.
-/

namespace LintLedger.Declaration

open Pattern Expr

variable {macroName : String}

/-! ## Words of the parts -/

private theorem mem_gap {s : List Char} : s ∈ gapExpr.language ↔ IsGap s :=
  mem_language_star_char

private theorem mem_opening {c : Char} :
    (CharSet.union (.union .none (.single '\x7b')) (.single '(')).mem c ↔
      c = '\x7b' ∨ c = '(' := by
  simp only [CharSet.mem, Bool.false_or, Bool.or_eq_true, CharSet.mem_single, beq_iff_eq]
  simp only [eq_comm]

private theorem mem_closing {c : Char} :
    (CharSet.union (.union .none (.single '\x7d')) (.single ')')).mem c ↔
      c = '\x7d' ∨ c = ')' := by
  simp only [CharSet.mem, Bool.false_or, Bool.or_eq_true, CharSet.mem_single, beq_iff_eq]
  simp only [eq_comm]

private theorem mem_nameSet {c : Char} :
    (CharSet.union (.union .none (.range 'A' 'Z')) (.single '_')).mem c ↔ Lint.isCapital c := by
  simp only [CharSet.mem, Bool.false_or, Bool.or_eq_true, CharSet.mem_single, beq_iff_eq,
    Lint.isCapital]
  simp only [eq_comm]

private theorem mem_plainSet {c : Char} :
    (CharSet.compl (.union (.union .none (.single '"')) (.single '\\'))).mem c ↔
      c ≠ '"' ∧ c ≠ '\\' := by
  simp only [CharSet.mem, Bool.false_or, CharSet.mem_single, Bool.not_or, Bool.and_eq_true,
    Bool.not_eq_true', beq_eq_false_iff_ne]
  simp only [ne_comm]

private theorem mem_front {s : List Char} :
    s ∈ (chain ((nameChars macroName).map literal ++ frontItems)).language ↔
      ∃ gap₁ opening gap₂ gap₃, IsGap gap₁ ∧ (opening = '\x7b' ∨ opening = '(') ∧ IsGap gap₂ ∧
        (gap₃ ≠ [] ∧ IsGap gap₃) ∧
        s = nameChars macroName
          ++ '!' :: (gap₁ ++ opening :: (gap₂ ++ 'p' :: 'u' :: 'b' :: gap₃)) := by
  rw [language_chain_append, Language.mem_mul]
  constructor
  · rintro ⟨m, hm, _, ha, rfl⟩
    obtain rfl := mem_language_ofText.1 hm
    obtain ⟨_, hb, rfl⟩ := mem_language_chain_literal.1 ha
    obtain ⟨gap₁, h₁, _, hc, rfl⟩ := mem_language_chain_cons.1 hb
    obtain ⟨_, ⟨opening, hopening, rfl⟩, _, hd, rfl⟩ := mem_language_chain_cons.1 hc
    obtain ⟨gap₂, h₂, _, he, rfl⟩ := mem_language_chain_cons.1 hd
    obtain ⟨_, hf, rfl⟩ := mem_language_chain_literal.1 he
    obtain ⟨_, hg, rfl⟩ := mem_language_chain_literal.1 hf
    obtain ⟨gap₃, hgap, rfl⟩ := mem_language_chain_literal.1 hg
    have h₃ := mem_language_plus_char.1 (mem_language_chain_singleton.1 hgap)
    exact ⟨gap₁, opening, gap₂, gap₃, mem_gap.1 h₁, mem_opening.1 hopening, mem_gap.1 h₂, h₃, rfl⟩
  · rintro ⟨gap₁, opening, gap₂, gap₃, h₁, hopening, h₂, h₃, rfl⟩
    refine ⟨_, mem_language_ofText.2 rfl, _, ?_, rfl⟩
    refine mem_language_chain_literal.2 ⟨_, ?_, rfl⟩
    refine mem_language_chain_cons.2 ⟨gap₁, mem_gap.2 h₁, _, ?_, rfl⟩
    refine mem_language_chain_cons.2 ⟨[opening], ⟨opening, mem_opening.2 hopening, rfl⟩, _, ?_, rfl⟩
    refine mem_language_chain_cons.2 ⟨gap₂, mem_gap.2 h₂, _, ?_, rfl⟩
    refine mem_language_chain_literal.2 ⟨_, ?_, rfl⟩
    refine mem_language_chain_literal.2 ⟨_, ?_, rfl⟩
    refine mem_language_chain_literal.2 ⟨gap₃, ?_, rfl⟩
    exact mem_language_chain_singleton.2 (mem_language_plus_char.2 h₃)

private theorem mem_name {s : List Char} :
    s ∈ nameExpr.language ↔ s ≠ [] ∧ ∀ c ∈ s, Lint.isCapital c := by
  rw [nameExpr, mem_language_chain_singleton, mem_language_plus_char]
  simp only [mem_nameSet]

private theorem mem_comma {s : List Char} :
    s ∈ (chain commaItems).language ↔
      ∃ gap gap', IsGap gap ∧ IsGap gap' ∧ s = gap ++ ',' :: gap' := by
  constructor
  · intro hitems
    obtain ⟨gap, h, _, hrest, rfl⟩ := mem_language_chain_cons.1 hitems
    obtain ⟨gap', hgap, rfl⟩ := mem_language_chain_literal.1 hrest
    exact ⟨gap, gap', mem_gap.1 h, mem_gap.1 (mem_language_chain_singleton.1 hgap), rfl⟩
  · rintro ⟨gap, gap', h, h', rfl⟩
    refine mem_language_chain_cons.2 ⟨gap, mem_gap.2 h, _, ?_, rfl⟩
    refine mem_language_chain_literal.2 ⟨gap', ?_, rfl⟩
    exact mem_language_chain_singleton.2 (mem_gap.2 h')

private theorem mem_comma' {s : List Char} :
    s ∈ (chain (commaItems ++ [literal '"'])).language ↔
      ∃ gap gap', IsGap gap ∧ IsGap gap' ∧ s = gap ++ ',' :: (gap' ++ ['"']) := by
  rw [language_chain_append, Language.mem_mul]
  constructor
  · rintro ⟨_, hcomma, _, hquote, rfl⟩
    obtain ⟨gap, gap', h, h', rfl⟩ := mem_comma.1 hcomma
    rw [mem_language_literal.1 (mem_language_chain_singleton.1 hquote)]
    exact ⟨gap, gap', h, h', by simp⟩
  · rintro ⟨gap, gap', h, h', rfl⟩
    refine ⟨_, mem_comma.2 ⟨gap, gap', h, h', rfl⟩, ['"'], ?_, by simp⟩
    exact mem_language_chain_singleton.2 (mem_language_literal.2 rfl)

private theorem mem_level {s : List Char} :
    s ∈ levelExpr.language ↔ ∃ level, s = keyword level := by
  change s ∈ (ofText (keyword .forbid)).language + ((ofText (keyword .deny)).language
    + ((ofText (keyword .warn)).language + (ofText (keyword .allow)).language)) ↔ _
  simp only [Language.mem_add, mem_language_ofText]
  constructor
  · rintro (rfl | rfl | rfl | rfl) <;> exact ⟨_, rfl⟩
  · rintro ⟨level, rfl⟩
    cases level <;> simp

private theorem isBody_of_piece {s : List Char} (h : s ∈ pieceExpr.language) : IsBody s := by
  rcases h with h | h
  · have hplain := mem_language_plus_char.1 (mem_language_chain_singleton.1 h)
    have hall := hplain.2
    clear hplain h
    induction s with
    | nil => exact .nil
    | cons c cs ih =>
        obtain ⟨hquote, hslash⟩ := mem_plainSet.1 (hall c List.mem_cons_self)
        exact .plain hquote hslash (ih fun d hd => hall d (List.mem_cons_of_mem c hd))
  · obtain ⟨_, hany, rfl⟩ := mem_language_chain_literal.1 h
    obtain ⟨c, -, rfl⟩ := mem_language_chain_singleton.1 hany
    exact .escaped .nil

private theorem mem_body {s : List Char} : s ∈ bodyExpr.language ↔ IsBody s := by
  rw [bodyExpr, mem_language_chain_singleton]
  constructor
  · rintro ⟨words, rfl, hwords⟩
    induction words with
    | nil => exact .nil
    | cons word words ih =>
        have hword := isBody_of_piece (hwords word List.mem_cons_self)
        exact hword.append (ih fun other hmem => hwords other (List.mem_cons_of_mem word hmem))
  · intro h
    induction h with
    | nil => exact ⟨[], rfl, by simp⟩
    | @plain c cs hquote hslash _ ih =>
        obtain ⟨words, rfl, hwords⟩ := ih
        refine ⟨[c] :: words, rfl, ?_⟩
        intro word hmem
        rcases List.mem_cons.1 hmem with rfl | hmem
        · left
          refine mem_language_chain_singleton.2 (mem_language_plus_char.2 ⟨by simp, ?_⟩)
          intro d hd
          rw [List.mem_singleton.1 hd]
          exact mem_plainSet.2 ⟨hquote, hslash⟩
        · exact hwords word hmem
    | @escaped c cs _ ih =>
        obtain ⟨words, rfl, hwords⟩ := ih
        refine ⟨['\\', c] :: words, rfl, ?_⟩
        intro word hmem
        rcases List.mem_cons.1 hmem with rfl | hmem
        · right
          refine mem_language_chain_literal.2 ⟨[c], ?_, rfl⟩
          exact mem_language_chain_singleton.2 ⟨c, rfl, rfl⟩
        · exact hwords word hmem

private theorem mem_back {s : List Char} :
    s ∈ (chain backItems).language ↔
      ∃ gap closing, IsGap gap ∧ (closing = '\x7d' ∨ closing = ')') ∧
        s = '"' :: (gap ++ [closing]) := by
  constructor
  · intro hitems
    obtain ⟨_, hrest, rfl⟩ := mem_language_chain_literal.1 hitems
    obtain ⟨gap, h, _, hend, rfl⟩ := mem_language_chain_cons.1 hrest
    obtain ⟨closing, hclosing, rfl⟩ := mem_language_chain_singleton.1 hend
    exact ⟨gap, closing, mem_gap.1 h, mem_closing.1 hclosing, rfl⟩
  · rintro ⟨gap, closing, h, hclosing, rfl⟩
    refine mem_language_chain_literal.2 ⟨_, ?_, rfl⟩
    refine mem_language_chain_cons.2 ⟨gap, mem_gap.2 h, _, ?_, rfl⟩
    exact mem_language_chain_singleton.2 ⟨closing, mem_closing.2 hclosing, rfl⟩

/-! ## Declarations -/

/-- The marks that are passed in a declaration that begins at some position. -/
def Spelling.trace (macroName : String) (s : Spelling) (position : Nat) : Trace :=
  let name := position + (s.front macroName).length
  let nameEnd := name + s.name.length
  let level := nameEnd + s.comma.length
  let levelEnd := level + (keyword s.level).length
  let body := levelEnd + s.comma'.length
  let bodyEnd := body + s.body.length
  [(.enter "name", name), (.leave "name", nameEnd), (.enter "level", level),
    (.leave "level", levelEnd), (.enter "desc", body), (.leave "desc", bodyEnd)]

private theorem expression_eq (macroName : String) :
    expression macroName = chain (((nameChars macroName).map literal ++ frontItems) ++
      (named "name" nameExpr :: (commaItems ++ (named "level" levelExpr ::
        ((commaItems ++ [literal '"']) ++ (named "desc" bodyExpr :: backItems)))))) := by
  rw [List.append_assoc]
  rfl

private theorem isPlain_front (macroName : String) :
    (chain ((nameChars macroName).map literal ++ frontItems)).isPlain := by
  have hname : (chain ((nameChars macroName).map literal)).isPlain = true := isPlain_ofText _
  rw [isPlain_chain_append, hname]
  rfl

theorem reads_expression_iff {k k' : Cursor} {t : Trace} :
    Reads (expression macroName) k k' t ↔
      ∃ s : Spelling, s.Valid ∧ k.Over (s.text macroName) k' ∧ t = s.trace macroName k.position := by
  rw [expression_eq]
  constructor
  · intro hread
    obtain ⟨k₁, _, _, hfront, hread₁, rfl⟩ := reads_chain_append_iff.1 hread
    obtain ⟨k₂, _, _, hname, hread₂, rfl⟩ := reads_chain_cons_iff.1 hread₁
    obtain ⟨k₃, _, _, hcomma, hread₃, rfl⟩ := reads_chain_append_iff.1 hread₂
    obtain ⟨k₄, _, _, hlevel, hread₄, rfl⟩ := reads_chain_cons_iff.1 hread₃
    obtain ⟨k₅, _, _, hcomma', hread₅, rfl⟩ := reads_chain_append_iff.1 hread₄
    obtain ⟨k₆, _, _, hbody, hback, rfl⟩ := reads_chain_cons_iff.1 hread₅
    obtain ⟨rfl, _, hfrontWord, hover₁⟩ := (readsWords_language (isPlain_front _) _ _ _).1 hfront
    obtain ⟨gap₁, opening, gap₂, gap₃, h₁, hopening, h₂, h₃, rfl⟩ := mem_front.1 hfrontWord
    obtain ⟨rfl, name, hnameWord, hover₂⟩ := (reads_named_iff rfl).1 hname
    obtain ⟨rfl, _, hcommaWord, hover₃⟩ := (readsWords_language rfl _ _ _).1 hcomma
    obtain ⟨gap₄, gap₅, h₄, h₅, rfl⟩ := mem_comma.1 hcommaWord
    obtain ⟨rfl, _, hlevelWord, hover₄⟩ := (reads_named_iff rfl).1 hlevel
    obtain ⟨level, rfl⟩ := mem_level.1 hlevelWord
    obtain ⟨rfl, _, hcommaWord', hover₅⟩ := (readsWords_language rfl _ _ _).1 hcomma'
    obtain ⟨gap₆, gap₇, h₆, h₇, rfl⟩ := mem_comma'.1 hcommaWord'
    obtain ⟨rfl, body, hbodyWord, hover₆⟩ := (reads_named_iff rfl).1 hbody
    obtain ⟨rfl, _, hbackWord, hover₇⟩ := (readsWords_language rfl _ _ _).1 hback
    obtain ⟨gap₈, closing, h₈, hclosing, rfl⟩ := mem_back.1 hbackWord
    refine ⟨⟨gap₁, opening, gap₂, gap₃, name, gap₄, gap₅, level, gap₆, gap₇, body, gap₈, closing⟩,
      ⟨h₁, hopening, h₂, h₃, mem_name.1 hnameWord, h₄, h₅, h₆, h₇, mem_body.1 hbodyWord, h₈,
        hclosing⟩, ?_, ?_⟩
    · exact hover₁.trans (hover₂.trans (hover₃.trans (hover₄.trans (hover₅.trans
        (hover₆.trans hover₇)))))
    · simp only [Spelling.trace, Spelling.front, Spelling.comma, Spelling.comma', hover₆.position,
        hover₅.position, hover₄.position, hover₃.position, hover₂.position, hover₁.position]
      rfl
  · rintro ⟨s, hs, hover, rfl⟩
    obtain ⟨k₁, hover₁, hrest₁⟩ := hover.split
    obtain ⟨k₂, hover₂, hrest₂⟩ := hrest₁.split
    obtain ⟨k₃, hover₃, hrest₃⟩ := hrest₂.split
    obtain ⟨k₄, hover₄, hrest₄⟩ := hrest₃.split
    obtain ⟨k₅, hover₅, hrest₅⟩ := hrest₄.split
    obtain ⟨k₆, hover₆, hover₇⟩ := hrest₅.split
    have hfront := (readsWords_language (isPlain_front macroName) k k₁ []).2
      ⟨rfl, _, mem_front.2 ⟨_, _, _, _, hs.gap₁, hs.opening, hs.gap₂, hs.gap₃, rfl⟩, hover₁⟩
    have hname : Reads (named "name" nameExpr) k₁ k₂ _ :=
      (reads_named_iff rfl).2 ⟨rfl, _, mem_name.2 hs.name, hover₂⟩
    have hcomma : Reads (chain commaItems) k₂ k₃ [] := (readsWords_language rfl k₂ k₃ []).2
      ⟨rfl, _, mem_comma.2 ⟨_, _, hs.gap₄, hs.gap₅, rfl⟩, hover₃⟩
    have hlevel : Reads (named "level" levelExpr) k₃ k₄ _ :=
      (reads_named_iff rfl).2 ⟨rfl, _, mem_level.2 ⟨s.level, rfl⟩, hover₄⟩
    have hcomma' : Reads (chain (commaItems ++ [literal '"'])) k₄ k₅ [] :=
      (readsWords_language rfl k₄ k₅ []).2
        ⟨rfl, _, mem_comma'.2 ⟨_, _, hs.gap₆, hs.gap₇, rfl⟩, hover₅⟩
    have hbody : Reads (named "desc" bodyExpr) k₅ k₆ _ :=
      (reads_named_iff rfl).2 ⟨rfl, _, mem_body.2 hs.body, hover₆⟩
    have hback : Reads (chain backItems) k₆ k' [] := (readsWords_language rfl k₆ k' []).2
      ⟨rfl, _, mem_back.2 ⟨_, _, hs.gap₈, hs.closing, rfl⟩, hover₇⟩
    have hread₅ := reads_chain_cons_iff.2 ⟨_, _, _, hbody, hback, rfl⟩
    have hread₄ := reads_chain_append_iff.2 ⟨_, _, _, hcomma', hread₅, rfl⟩
    have hread₃ := reads_chain_cons_iff.2 ⟨_, _, _, hlevel, hread₄, rfl⟩
    have hread₂ := reads_chain_append_iff.2 ⟨_, _, _, hcomma, hread₃, rfl⟩
    have hread₁ := reads_chain_cons_iff.2 ⟨_, _, _, hname, hread₂, rfl⟩
    refine reads_chain_append_iff.2 ⟨_, _, _, hfront, hread₁, ?_⟩
    simp only [Spelling.trace, hover₆.position, hover₅.position, hover₄.position, hover₃.position,
      hover₂.position, hover₁.position]
    rfl

end LintLedger.Declaration
