import LintLedger.Proofs.Lint.Name
import LintLedger.Proofs.Text.Cut
import LintLedger.Text.Blank

/-!
# The grammar of declarations

How a declaration is written: a macro call with a public name, a level and a description, with
white space between them. Its parts are told apart by their first characters, so from one place
of a text at most one declaration can be read, and in one way only.
-/

namespace LintLedger.Declaration

open Text

/-! ## Parts -/

/-- White space between the parts of a declaration. -/
def IsGap (cs : List Char) : Prop :=
  ∀ c ∈ cs, isBlank c

instance (cs : List Char) : Decidable (IsGap cs) :=
  decidable_of_iff (cs.all isBlank = true) List.all_eq_true

/-- What can stand between the quotes: characters that are neither a quote nor a backslash, and
pairs of a backslash and any character. -/
inductive IsBody : List Char → Prop
  | nil : IsBody []
  | plain {c : Char} {cs : List Char} : c ≠ '"' → c ≠ '\\' → IsBody cs → IsBody (c :: cs)
  | escaped {c : Char} {cs : List Char} : IsBody cs → IsBody ('\\' :: c :: cs)

theorem IsBody.append {body body' : List Char} (h : IsBody body) (h' : IsBody body') :
    IsBody (body ++ body') := by
  induction h with
  | nil => exact h'
  | plain hquote hslash _ ih => exact .plain hquote hslash ih
  | escaped _ ih => exact .escaped ih

/-- A body ends at the first quote that no backslash stands before. -/
theorem IsBody.unique {body body' rest rest' : List Char} (h : IsBody body) (h' : IsBody body')
    (heq : body ++ '"' :: rest = body' ++ '"' :: rest') : body = body' ∧ rest = rest' := by
  induction h generalizing body' with
  | nil =>
      cases h' with
      | nil => simpa using heq
      | plain hquote _ _ => exact (hquote (List.cons.inj heq).1.symm).elim
      | escaped _ => simp at heq
  | @plain c cs hquote hslash _ ih =>
      cases h' with
      | nil => exact (hquote (List.cons.inj heq).1).elim
      | plain _ _ hcs =>
          obtain ⟨rfl, htail⟩ := List.cons.inj heq
          obtain ⟨rfl, hrest⟩ := ih hcs htail
          exact ⟨rfl, hrest⟩
      | escaped _ => exact (hslash (List.cons.inj heq).1).elim
  | @escaped c cs _ ih =>
      cases h' with
      | nil => simp at heq
      | plain _ hslash _ => exact (hslash (List.cons.inj heq).1.symm).elim
      | escaped hcs =>
          obtain ⟨rfl, htail⟩ := List.cons.inj (List.cons.inj heq).2
          obtain ⟨rfl, hrest⟩ := ih hcs htail
          exact ⟨rfl, hrest⟩

def keyword : Level → List Char
  | .forbid => ['F', 'o', 'r', 'b', 'i', 'd']
  | .deny => ['D', 'e', 'n', 'y']
  | .warn => ['W', 'a', 'r', 'n']
  | .allow => ['A', 'l', 'l', 'o', 'w']

theorem keyword_unique {level level' : Level} {rest rest' : List Char}
    (heq : keyword level ++ rest = keyword level' ++ rest') : level = level' ∧ rest = rest' := by
  cases level <;> cases level' <;> simp_all [keyword]

theorem keyword_head (level : Level) (rest : List Char) :
    ∀ c ∈ (keyword level ++ rest).head?, ¬ isBlank c := by
  cases level <;> simp [keyword] <;> decide

theorem not_isBlank_of_isCapital {c : Char} (h : Lint.isCapital c) : ¬ isBlank c := by
  have hcode := Lint.toNat_of_isCapital h
  simp only [isBlank, blankRuns, List.any_cons, List.any_nil, Bool.or_false, Bool.or_eq_true,
    Bool.and_eq_true, decide_eq_true_eq]
  omega

theorem not_isCapital_of_isBlank {c : Char} (h : isBlank c) : ¬ Lint.isCapital c :=
  fun hname => not_isBlank_of_isCapital hname h

/-! ## Declarations -/

structure Spelling where
  /-- White space before the opening bracket. -/
  gap₁ : List Char
  opening : Char
  gap₂ : List Char
  /-- White space behind `pub`. -/
  gap₃ : List Char
  name : List Char
  gap₄ : List Char
  gap₅ : List Char
  level : Level
  gap₆ : List Char
  gap₇ : List Char
  /-- The text between the quotes. -/
  body : List Char
  gap₈ : List Char
  closing : Char

namespace Spelling

/-- Whether the parts are such as a declaration has. The brackets need not correspond. -/
structure Valid (s : Spelling) : Prop where
  gap₁ : IsGap s.gap₁
  opening : s.opening = '\x7b' ∨ s.opening = '('
  gap₂ : IsGap s.gap₂
  gap₃ : s.gap₃ ≠ [] ∧ IsGap s.gap₃
  name : s.name ≠ [] ∧ ∀ c ∈ s.name, Lint.isCapital c
  gap₄ : IsGap s.gap₄
  gap₅ : IsGap s.gap₅
  gap₆ : IsGap s.gap₆
  gap₇ : IsGap s.gap₇
  body : IsBody s.body
  gap₈ : IsGap s.gap₈
  closing : s.closing = '\x7d' ∨ s.closing = ')'

end Spelling

/-- What a macro name asks for: its characters without white space. -/
def nameChars (macroName : String) : List Char :=
  macroName.toList.filter fun c => !isBlank c

def Spelling.front (macroName : String) (s : Spelling) : List Char :=
  nameChars macroName ++ '!' :: (s.gap₁ ++ s.opening :: (s.gap₂ ++ 'p' :: 'u' :: 'b' :: s.gap₃))

/-- The text between the name and the level. -/
def Spelling.comma (s : Spelling) : List Char :=
  s.gap₄ ++ ',' :: s.gap₅

/-- The text between the level and the body. -/
def Spelling.comma' (s : Spelling) : List Char :=
  s.gap₆ ++ ',' :: (s.gap₇ ++ ['"'])

def Spelling.back (s : Spelling) : List Char :=
  '"' :: (s.gap₈ ++ [s.closing])

def Spelling.text (macroName : String) (s : Spelling) : List Char :=
  s.front macroName ++ (s.name ++ (s.comma ++ (keyword s.level ++ (s.comma' ++ (s.body ++ s.back)))))

theorem Spelling.text_ne_nil (macroName : String) (s : Spelling) : s.text macroName ≠ [] := by
  simp [text, front]

/-! ## Reading declarations -/

private theorem gap_unique {gap gap' rest rest' : List Char} {c c' : Char} (h : IsGap gap)
    (h' : IsGap gap') (hc : ¬ isBlank c) (hc' : ¬ isBlank c')
    (heq : gap ++ c :: rest = gap' ++ c' :: rest') : gap = gap' ∧ c = c' ∧ rest = rest' := by
  obtain ⟨hgap, hrest⟩ := span_unique isBlank h h' (by simpa using hc) (by simpa using hc') heq
  obtain ⟨hchar, hrest⟩ := List.cons.inj hrest
  exact ⟨hgap, hchar, hrest⟩

private theorem gap_unique_of_head {gap gap' rest rest' : List Char} (h : IsGap gap)
    (h' : IsGap gap') (hrest : ∀ c ∈ rest.head?, ¬ isBlank c)
    (hrest' : ∀ c ∈ rest'.head?, ¬ isBlank c) (heq : gap ++ rest = gap' ++ rest') :
    gap = gap' ∧ rest = rest' :=
  span_unique isBlank h h' hrest hrest' heq

private theorem name_head {name rest : List Char} (h : name ≠ [] ∧ ∀ c ∈ name, Lint.isCapital c) :
    ∀ c ∈ (name ++ rest).head?, ¬ isBlank c := by
  obtain ⟨c, cs, hname⟩ := List.exists_cons_of_ne_nil h.1
  intro d hd
  have hcd : c = d := by simpa [hname] using hd
  rw [← hcd]
  exact not_isBlank_of_isCapital (h.2 c (by simp [hname]))

private theorem comma_head {gap rest : List Char} (h : IsGap gap) :
    ∀ c ∈ (gap ++ ',' :: rest).head?, ¬ Lint.isCapital c := by
  cases gap with
  | nil =>
      intro c hc
      have hcomma : ',' = c := by simpa using hc
      rw [← hcomma]
      decide
  | cons d gap =>
      intro c hc
      have hdc : d = c := by simpa using hc
      rw [← hdc]
      exact not_isCapital_of_isBlank (h d List.mem_cons_self)

/-- A text begins with one declaration at most, which is written in one way. -/
theorem Spelling.unique {macroName : String} {s s' : Spelling} (h : s.Valid) (h' : s'.Valid)
    {rest rest' : List Char} (heq : s.text macroName ++ rest = s'.text macroName ++ rest') :
    s = s' ∧ rest = rest' := by
  have hopening : ∀ {t : Spelling}, t.Valid → ¬ isBlank t.opening := by
    intro t ht
    rcases ht.opening with heq | heq <;> rw [heq] <;> decide
  have hclosing : ∀ {t : Spelling}, t.Valid → ¬ isBlank t.closing := by
    intro t ht
    rcases ht.closing with heq | heq <;> rw [heq] <;> decide
  have hpub : ¬ isBlank 'p' := by decide
  have hcomma : ¬ isBlank ',' := by decide
  have hquote : ¬ isBlank '"' := by decide
  simp only [text, front, comma, comma', back, List.append_assoc, List.cons_append,
    List.nil_append] at heq
  -- The parts are taken off one after the other.
  have heq := (List.cons.inj (List.append_cancel_left heq)).2
  obtain ⟨h₁, hopen, heq⟩ := gap_unique h.gap₁ h'.gap₁ (hopening h) (hopening h') heq
  obtain ⟨h₂, -, heq⟩ := gap_unique h.gap₂ h'.gap₂ hpub hpub heq
  have heq := (List.cons.inj (List.cons.inj heq).2).2
  obtain ⟨h₃, heq⟩ := gap_unique_of_head h.gap₃.2 h'.gap₃.2 (name_head h.name) (name_head h'.name) heq
  obtain ⟨hname, heq⟩ := span_unique Lint.isCapital h.name.2 h'.name.2 (comma_head h.gap₄)
    (comma_head h'.gap₄) heq
  obtain ⟨h₄, -, heq⟩ := gap_unique h.gap₄ h'.gap₄ hcomma hcomma heq
  obtain ⟨h₅, heq⟩ := gap_unique_of_head h.gap₅ h'.gap₅ (keyword_head _ _) (keyword_head _ _) heq
  obtain ⟨hlevel, heq⟩ := keyword_unique heq
  obtain ⟨h₆, -, heq⟩ := gap_unique h.gap₆ h'.gap₆ hcomma hcomma heq
  obtain ⟨h₇, -, heq⟩ := gap_unique h.gap₇ h'.gap₇ hquote hquote heq
  obtain ⟨hbody, heq⟩ := h.body.unique h'.body heq
  obtain ⟨h₈, hclose, heq⟩ := gap_unique h.gap₈ h'.gap₈ (hclosing h) (hclosing h') heq
  refine ⟨?_, heq⟩
  rcases s with ⟨_, _, _, _, _, _, _, _, _, _, _, _, _⟩
  simp only at h₁ hopen h₂ h₃ hname h₄ h₅ hlevel h₆ h₇ hbody h₈ hclose
  subst h₁ hopen h₂ h₃ hname h₄ h₅ hlevel h₆ h₇ hbody h₈ hclose
  rfl

end LintLedger.Declaration
