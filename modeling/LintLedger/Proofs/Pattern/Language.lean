import Mathlib.Computability.Language
import LintLedger.Proofs.Pattern.Occurrence

/-!
# Languages of plain expressions

An expression without anchors and marks reads the words of a language, from whatever place. So a
pattern that is plain, or plain behind an anchor at the start of the text, occurs in a text if a
word of its language stands in the text, or begins it.
-/

namespace LintLedger.Pattern

open Computability

namespace Expr

/-- Whether an expression has neither anchors nor marks. -/
def isPlain : Expr → Bool
  | .empty => true
  | .char _ => true
  | .anchor _ => false
  | .mark _ => false
  | .seq e f => e.isPlain && f.isPlain
  | .alt e f => e.isPlain && f.isPlain
  | .star _ e => e.isPlain

def language : Expr → Language Char
  | .empty => 1
  | .char set => {s | ∃ c, set.mem c ∧ s = [c]}
  | .anchor _ => 0
  | .mark _ => 0
  | .seq e f => e.language * f.language
  | .alt e f => e.language + f.language
  | .star _ e => e.language∗

end Expr

/-! ## Reading words -/

/-- Whether an expression reads the words of a language, passing no marks. -/
def ReadsWords (e : Expr) (words : Language Char) : Prop :=
  ∀ k k' t, Reads e k k' t ↔ t = [] ∧ ∃ s ∈ words, k.Over s k'

private theorem readsWords_empty : ReadsWords .empty 1 := by
  intro k k' t
  constructor
  · intro h
    cases h
    exact ⟨rfl, [], rfl, .refl k⟩
  · rintro ⟨rfl, s, rfl, hover⟩
    obtain rfl := Cursor.over_nil_iff.1 hover
    exact .empty

private theorem readsWords_char (set : CharSet) :
    ReadsWords (.char set) (Expr.char set).language := by
  intro k k' t
  constructor
  · intro h
    cases h with
    | char hc => exact ⟨rfl, [_], ⟨_, hc, rfl⟩, .char _ _ _ _⟩
  · rintro ⟨rfl, s, ⟨c, hc, rfl⟩, hover⟩
    rcases k with ⟨before, position, left⟩
    obtain rfl : left = c :: k'.left := hover.left
    rw [hover.unique (.char before position c k'.left)]
    exact .char hc

private theorem ReadsWords.seq {e f : Expr} {l m : Language Char} (he : ReadsWords e l)
    (hf : ReadsWords f m) : ReadsWords (.seq e f) (l * m) := by
  intro k k' t
  constructor
  · intro h
    cases h with
    | seq hfirst hsecond =>
        obtain ⟨rfl, s, hs, hover⟩ := (he _ _ _).1 hfirst
        obtain ⟨rfl, s', hs', hover'⟩ := (hf _ _ _).1 hsecond
        exact ⟨rfl, s ++ s', Language.append_mem_mul hs hs', hover.trans hover'⟩
  · rintro ⟨rfl, _, ⟨s, hs, s', hs', rfl⟩, hover⟩
    obtain ⟨k₁, hover₁, hover₂⟩ := hover.split
    have hfirst := (he k k₁ []).2 ⟨rfl, s, hs, hover₁⟩
    have hsecond := (hf k₁ k' []).2 ⟨rfl, s', hs', hover₂⟩
    exact .seq hfirst hsecond

private theorem ReadsWords.alt {e f : Expr} {l m : Language Char} (he : ReadsWords e l)
    (hf : ReadsWords f m) : ReadsWords (.alt e f) (l + m) := by
  intro k k' t
  constructor
  · intro h
    cases h with
    | altLeft hleft =>
        obtain ⟨rfl, s, hs, hover⟩ := (he _ _ _).1 hleft
        exact ⟨rfl, s, .inl hs, hover⟩
    | altRight hright =>
        obtain ⟨rfl, s, hs, hover⟩ := (hf _ _ _).1 hright
        exact ⟨rfl, s, .inr hs, hover⟩
  · rintro ⟨rfl, s, hs | hs, hover⟩
    · exact .altLeft ((he k k' []).2 ⟨rfl, s, hs, hover⟩)
    · exact .altRight ((hf k k' []).2 ⟨rfl, s, hs, hover⟩)

private theorem ReadsWords.star {e : Expr} {l : Language Char} (he : ReadsWords e l)
    (greedy : Bool) : ReadsWords (.star greedy e) l∗ := by
  intro k k' t
  constructor
  · intro h
    generalize hloop : Expr.star greedy e = loop at h
    induction h with
    | leave => exact ⟨rfl, [], Language.nil_mem_kstar l, .refl _⟩
    | round hround _ _ ih =>
        obtain ⟨rfl, rfl⟩ := Expr.star.inj hloop
        obtain ⟨rfl, s, hs, hover⟩ := (he _ _ _).1 hround
        obtain ⟨rfl, s', ⟨words, rfl, hwords⟩, hover'⟩ := ih rfl
        refine ⟨rfl, s ++ words.flatten, ⟨s :: words, rfl, ?_⟩, hover.trans hover'⟩
        intro word hword
        rcases List.mem_cons.1 hword with rfl | hword
        · exact hs
        · exact hwords word hword
    | _ => cases hloop
  · rintro ⟨rfl, _, ⟨words, rfl, hwords⟩, hover⟩
    induction words generalizing k with
    | nil =>
        obtain rfl := Cursor.over_nil_iff.1 hover
        exact .leave
    | cons word words ih =>
        have hparts : k.Over (word ++ words.flatten) k' := hover
        obtain ⟨k₁, hover₁, hover₂⟩ := hparts.split
        have hround := (he k k₁ []).2 ⟨rfl, word, hwords word List.mem_cons_self, hover₁⟩
        have hrest := ih k₁ (fun other hmem => hwords other (List.mem_cons_of_mem word hmem)) hover₂
        exact .round hround hrest

theorem readsWords_language {e : Expr} (h : e.isPlain) : ReadsWords e e.language := by
  induction e with
  | empty => exact readsWords_empty
  | char set => exact readsWords_char set
  | anchor a => simp [Expr.isPlain] at h
  | mark m => simp [Expr.isPlain] at h
  | seq e f ihe ihf =>
      obtain ⟨he, hf⟩ : e.isPlain ∧ f.isPlain := by simpa [Expr.isPlain] using h
      exact (ihe he).seq (ihf hf)
  | alt e f ihe ihf =>
      obtain ⟨he, hf⟩ : e.isPlain ∧ f.isPlain := by simpa [Expr.isPlain] using h
      exact (ihe he).alt (ihf hf)
  | star greedy e ih => exact (ih h).star greedy

/-! ## Occurrences of words -/

theorem occursIn_iff_of_isPlain {e : Expr} (h : e.isPlain) {cs : List Char} :
    e.occursIn cs ↔ ∃ s ∈ e.language, s <:+: cs := by
  rw [occursIn_iff]
  constructor
  · rintro ⟨front, r, k', u, rfl, hread⟩
    obtain ⟨-, s, hs, hover⟩ := (readsWords_language h _ _ _).1 hread
    have hr : r = s ++ k'.left := hover.left
    exact ⟨s, hs, front, k'.left, by rw [hr, List.append_assoc]⟩
  · rintro ⟨s, hs, front, back, rfl⟩
    obtain ⟨k', hover, -⟩ := Cursor.exists_over front.getLast? 0 s back
    refine ⟨front, s ++ back, k', [], by rw [List.append_assoc], ?_⟩
    exact (readsWords_language h _ _ _).2 ⟨rfl, s, hs, hover⟩

/-- Behind an anchor at its start, an expression occurs in a text that begins with a word of its
language. -/
theorem occursIn_textStart_iff {e : Expr} (h : e.isPlain) {cs : List Char} :
    (Expr.seq (.anchor .textStart) e).occursIn cs ↔ ∃ s ∈ e.language, s <+: cs := by
  rw [occursIn_iff]
  constructor
  · rintro ⟨front, r, k', u, rfl, hread⟩
    cases hread with
    | seq hanchor hrest =>
        cases hanchor with
        | anchor hholds =>
            have hfront : front = [] := by
              simpa [Anchor.holds] using hholds
            obtain ⟨-, s, hs, hover⟩ := (readsWords_language h _ _ _).1 hrest
            have hr : r = s ++ k'.left := hover.left
            exact ⟨s, hs, k'.left, by rw [hfront, hr, List.nil_append]⟩
  · rintro ⟨s, hs, back, rfl⟩
    obtain ⟨k', hover, -⟩ := Cursor.exists_over none 0 s back
    have hrest := (readsWords_language h _ _ _).2 ⟨rfl, s, hs, hover⟩
    exact ⟨[], s ++ back, k', [], rfl, .seq (t := []) (.anchor rfl) hrest⟩

/-! ## Languages of the usual expressions -/

namespace Expr

def ofText (text : List Char) : Expr :=
  chain (text.map literal)

theorem isPlain_chain_append (es fs : List Expr) :
    (chain (es ++ fs)).isPlain = ((chain es).isPlain && (chain fs).isPlain) := by
  induction es with
  | nil => simp [chain, isPlain]
  | cons e es ih =>
      simp only [chain, List.cons_append, List.foldr_cons, isPlain] at ih ⊢
      rw [ih, Bool.and_assoc]

theorem isPlain_ofText (text : List Char) : (ofText text).isPlain := by
  induction text with
  | nil => rfl
  | cons c cs ih => simpa [ofText, chain, isPlain, literal] using ih

theorem language_chain_append (es fs : List Expr) :
    (chain (es ++ fs)).language = (chain es).language * (chain fs).language := by
  induction es with
  | nil => simp [chain, language]
  | cons e es ih =>
      simp only [chain, List.cons_append, List.foldr_cons, language] at ih ⊢
      rw [ih, mul_assoc]

theorem mem_language_literal {c : Char} {s : List Char} :
    s ∈ (literal c).language ↔ s = [c] := by
  constructor
  · rintro ⟨d, hd, rfl⟩
    have hcd : c = d := by simpa using hd
    rw [hcd]
  · rintro rfl
    exact ⟨c, by simp, rfl⟩

theorem mem_language_ofText {text s : List Char} : s ∈ (ofText text).language ↔ s = text := by
  induction text generalizing s with
  | nil => rfl
  | cons c cs ih =>
      change s ∈ (literal c).language * (ofText cs).language ↔ s = c :: cs
      rw [Language.mem_mul]
      constructor
      · rintro ⟨a, ha, b, hb, rfl⟩
        rw [mem_language_literal.1 ha, ih.1 hb, List.singleton_append]
      · rintro rfl
        exact ⟨[c], mem_language_literal.2 rfl, cs, ih.2 rfl, rfl⟩

theorem mem_language_chain_cons {e : Expr} {es : List Expr} {s : List Char} :
    s ∈ (chain (e :: es)).language ↔
      ∃ a ∈ e.language, ∃ b ∈ (chain es).language, s = a ++ b := by
  change s ∈ e.language * (chain es).language ↔ _
  rw [Language.mem_mul]
  simp only [eq_comm]

theorem mem_language_chain_singleton {e : Expr} {s : List Char} :
    s ∈ (chain [e]).language ↔ s ∈ e.language := by
  rw [mem_language_chain_cons]
  constructor
  · rintro ⟨a, ha, b, rfl, rfl⟩
    rwa [List.append_nil]
  · intro hs
    exact ⟨s, hs, [], rfl, (List.append_nil s).symm⟩

theorem mem_language_chain_literal {c : Char} {es : List Expr} {s : List Char} :
    s ∈ (chain (literal c :: es)).language ↔ ∃ b ∈ (chain es).language, s = c :: b := by
  rw [mem_language_chain_cons]
  constructor
  · rintro ⟨a, ha, b, hb, rfl⟩
    rw [mem_language_literal.1 ha]
    exact ⟨b, hb, rfl⟩
  · rintro ⟨b, hb, rfl⟩
    exact ⟨[c], mem_language_literal.2 rfl, b, hb, rfl⟩

def between (front : List Char) (e : Expr) (back : List Char) : Expr :=
  chain (front.map literal ++ e :: back.map literal)

theorem isPlain_between {front back : List Char} {e : Expr} (h : e.isPlain) :
    (between front e back).isPlain := by
  have hfront := isPlain_ofText front
  have hback := isPlain_ofText back
  simp only [ofText] at hfront hback
  rw [between, isPlain_chain_append, hfront, Bool.true_and]
  simp only [chain, List.foldr_cons, isPlain, h, Bool.true_and]
  exact hback

theorem mem_language_between {front back s : List Char} {e : Expr} :
    s ∈ (between front e back).language ↔ ∃ w ∈ e.language, s = front ++ w ++ back := by
  have hsplit : (between front e back).language =
      (ofText front).language * (e.language * (ofText back).language) :=
    language_chain_append _ _
  rw [hsplit, Language.mem_mul]
  constructor
  · rintro ⟨a, ha, _, ⟨w, hw, b, hb, rfl⟩, rfl⟩
    rw [mem_language_ofText.1 ha, mem_language_ofText.1 hb]
    exact ⟨w, hw, (List.append_assoc _ _ _).symm⟩
  · rintro ⟨w, hw, rfl⟩
    refine ⟨front, mem_language_ofText.2 rfl, w ++ back, ?_, (List.append_assoc _ _ _).symm⟩
    exact ⟨w, hw, back, mem_language_ofText.2 rfl, rfl⟩

theorem mem_language_star_char {greedy : Bool} {set : CharSet} {s : List Char} :
    s ∈ (star greedy (.char set)).language ↔ ∀ c ∈ s, set.mem c := by
  change s ∈ (Expr.char set).language∗ ↔ _
  rw [Language.mem_kstar]
  constructor
  · rintro ⟨words, rfl, hwords⟩ c hc
    obtain ⟨word, hword, hmem⟩ := List.mem_flatten.1 hc
    obtain ⟨d, hd, rfl⟩ := hwords word hword
    rwa [List.mem_singleton.1 hmem]
  · intro h
    refine ⟨s.map fun c => [c], ?_, ?_⟩
    · exact (List.flatMap_singleton' s).symm
    intro word hword
    obtain ⟨c, hc, rfl⟩ := List.mem_map.1 hword
    exact ⟨c, h c hc, rfl⟩

theorem mem_language_plus_char {greedy : Bool} {set : CharSet} {s : List Char} :
    s ∈ (plus greedy (.char set)).language ↔ s ≠ [] ∧ ∀ c ∈ s, set.mem c := by
  change s ∈ (Expr.char set).language * (star greedy (.char set)).language ↔ _
  rw [Language.mem_mul]
  constructor
  · rintro ⟨_, ⟨c, hc, rfl⟩, b, hb, rfl⟩
    have hrest := mem_language_star_char.1 hb
    refine ⟨by simp, fun d hd => ?_⟩
    rcases List.mem_cons.1 hd with rfl | hd
    · exact hc
    · exact hrest d hd
  · rintro ⟨hne, hall⟩
    cases s with
    | nil => exact (hne rfl).elim
    | cons c cs =>
        refine ⟨[c], ⟨c, hall c List.mem_cons_self, rfl⟩, cs, ?_, rfl⟩
        exact mem_language_star_char.2 fun d hd => hall d (List.mem_cons_of_mem c hd)

end Expr

end LintLedger.Pattern
