import LintLedger.Proofs.Declaration.Writing

/-!
# Descriptions as string literals

A description can be read like a string literal, once from left to right: a backslash goes together
with the character behind it. Descriptions are extracted in two passes instead, one for the
continuations and one for the quotes, and neither asks which backslash another one stands for. Both
ways say the same, but for a line that ends right behind an escaped backslash: the second backslash
of the pair is then taken for a continuation.
-/

namespace LintLedger.Declaration

open Text

/-! ## Readings of a body -/

/-- What a body says when it is read once. A backslash at the end of a line is dropped with the line
end and the white space behind it, one before a quote is dropped, and any other one is kept with
the character behind it. `skipping` says that white space may still be dropped. -/
def readOnce (skipping : Bool) : List Char → List Char
  | '\\' :: '\n' :: cs => readOnce true cs
  | '\\' :: '\r' :: '\n' :: cs => readOnce true cs
  | '\\' :: '"' :: cs => '"' :: readOnce false cs
  | '\\' :: c :: cs => '\\' :: c :: readOnce false cs
  | c :: cs =>
    if skipping && isBlank c then readOnce true cs else c :: readOnce false cs
  | [] => []

/-- What a body says when the continuations are taken out of it first. -/
def readTwice (skipping : Bool) (body : List Char) : List Char :=
  bareQuotes (joinLines skipping body)

theorem description_eq (body : List Char) :
    description body = String.ofList (readTwice false body) := rfl

def breaksLine : List Char → Bool
  | '\n' :: _ => true
  | '\r' :: '\n' :: _ => true
  | _ => false

/-- A body by what its backslashes mean. -/
inductive Literal : List Char → Prop
  | nil : Literal []
  | plain {c : Char} {cs : List Char} : c ≠ '"' → c ≠ '\\' → Literal cs → Literal (c :: cs)
  | lf {cs : List Char} : Literal cs → Literal ('\\' :: '\n' :: cs)
  | crlf {cs : List Char} : Literal cs → Literal ('\\' :: '\r' :: '\n' :: cs)
  | quote {cs : List Char} : Literal cs → Literal ('\\' :: '"' :: cs)
  | slash {cs : List Char} : Literal cs → Literal ('\\' :: '\\' :: cs)
  | pair {c : Char} {cs : List Char} :
      c ≠ '"' → c ≠ '\\' → breaksLine (c :: cs) = false → Literal cs → Literal ('\\' :: c :: cs)

theorem breaksLine_slash (cs : List Char) : breaksLine ('\\' :: cs) = false := rfl

theorem literal_of_isBody {body : List Char} (h : IsBody body) : Literal body := by
  -- The characters of a line end are taken off together, so the induction is on the length.
  induction hn : body.length using Nat.strongRecOn generalizing body with
  | ind n ih =>
      cases h with
      | nil => exact .nil
      | @plain c cs hquote hslash hcs =>
          exact .plain hquote hslash (ih cs.length (by simp at hn; omega) hcs rfl)
      | @escaped c cs hcs =>
          have hrest : Literal cs := ih cs.length (by simp at hn; omega) hcs rfl
          by_cases hquote : c = '"'
          · rw [hquote]
            exact .quote hrest
          by_cases hslash : c = '\\'
          · rw [hslash]
            exact .slash hrest
          cases hbreaks : breaksLine (c :: cs) with
          | false => exact .pair hquote hslash hbreaks hrest
          | true =>
              unfold breaksLine at hbreaks
              split at hbreaks
              · next heq =>
                  rw [(List.cons.inj heq).1]
                  exact .lf hrest
              · next tail heq =>
                  obtain ⟨rfl, rfl⟩ := List.cons.inj heq
                  cases hrest with
                  | plain _ _ htail => exact .crlf htail
              · cases hbreaks

/-! ## What a reading makes of a token -/

theorem joinLines_slash {cs : List Char} (h : breaksLine cs = false) (skipping : Bool) :
    joinLines skipping ('\\' :: cs) = '\\' :: joinLines false cs := by
  have hslash : isBlank '\\' = false := by decide
  rw [joinLines]
  · rw [hslash, Bool.and_false, if_neg Bool.false_ne_true]
  · intro _ _ heq
    rw [heq] at h
    cases h
  · intro _ _ heq
    rw [heq] at h
    cases h

/-- Where the line ends, both characters of the line end are white space. -/
theorem joinLines_slash_of_breaksLine {cs : List Char} (h : breaksLine cs = true)
    (skipping : Bool) : joinLines skipping ('\\' :: cs) = joinLines true cs := by
  unfold breaksLine at h
  split at h
  · rfl
  · rfl
  · cases h

theorem bareQuotes_slash {cs : List Char} (h : ∀ c ∈ cs.head?, c ≠ '"') :
    bareQuotes ('\\' :: cs) = '\\' :: bareQuotes cs := by
  rw [bareQuotes]
  rintro _ _ rfl
  exact h '"' rfl rfl

theorem readTwice_plain {c : Char} (hc : c ≠ '\\') (skipping : Bool) (cs : List Char) :
    readTwice skipping (c :: cs) =
      if skipping && isBlank c then readTwice true cs else c :: readTwice false cs := by
  rw [readTwice, joinLines_cons hc]
  split
  · rfl
  · rw [bareQuotes_cons hc, readTwice]

theorem readOnce_plain {c : Char} (hc : c ≠ '\\') (skipping : Bool) (cs : List Char) :
    readOnce skipping (c :: cs) =
      if skipping && isBlank c then readOnce true cs else c :: readOnce false cs := by
  rw [readOnce]
  all_goals
    intros
    contradiction

theorem readTwice_quote (skipping : Bool) (cs : List Char) :
    readTwice skipping ('\\' :: '"' :: cs) = '"' :: readTwice false cs := by
  rw [readTwice, joinLines_quote, bareQuotes, readTwice]

theorem readTwice_pair {c : Char} {cs : List Char} (hquote : c ≠ '"') (hslash : c ≠ '\\')
    (hbreaks : breaksLine (c :: cs) = false) (skipping : Bool) :
    readTwice skipping ('\\' :: c :: cs) = '\\' :: c :: readTwice false cs := by
  rw [readTwice, joinLines_slash hbreaks, joinLines_cons hslash, Bool.false_and,
    if_neg Bool.false_ne_true, bareQuotes_slash (by simpa using hquote), bareQuotes_cons hslash,
    readTwice]

theorem readOnce_pair {c : Char} {cs : List Char} (hquote : c ≠ '"')
    (hbreaks : breaksLine (c :: cs) = false) (skipping : Bool) :
    readOnce skipping ('\\' :: c :: cs) = '\\' :: c :: readOnce false cs := by
  rw [readOnce]
  · rintro rfl
    cases hbreaks
  · rintro _ rfl rfl
    cases hbreaks
  · exact hquote

/-- No quote comes to the front of a body whose continuations are taken out. -/
theorem head?_joinLines {body : List Char} (h : Literal body) (skipping : Bool) :
    ∀ c ∈ (joinLines skipping body).head?, c ≠ '"' := by
  induction h generalizing skipping with
  | nil => simp [joinLines]
  | plain hquote hslash _ ih =>
      rw [joinLines_cons hslash]
      split
      · exact ih true
      · simpa using hquote
  | lf _ ih => exact ih true
  | crlf _ ih => exact ih true
  | quote _ _ => simp [joinLines_quote]
  | slash _ _ => simp [joinLines_slash (breaksLine_slash _)]
  | pair _ _ hbreaks _ _ => simp [joinLines_slash hbreaks]

/-- The second backslash of an escaped one is taken for a continuation where the line ends. -/
theorem readTwice_slash {cs : List Char} (h : Literal cs) (skipping : Bool) :
    readTwice skipping ('\\' :: '\\' :: cs) =
      '\\' :: if breaksLine cs then readTwice true cs else '\\' :: readTwice false cs := by
  rw [readTwice, joinLines_slash (breaksLine_slash cs)]
  split
  · next hbreaks =>
      rw [joinLines_slash_of_breaksLine hbreaks, bareQuotes_slash (head?_joinLines h true),
        readTwice]
  · next hbreaks =>
      have hkept : joinLines false ('\\' :: cs) = '\\' :: joinLines false cs :=
        joinLines_slash (by simpa using hbreaks) false
      rw [hkept, bareQuotes_slash (by simp), bareQuotes_slash (head?_joinLines h false), readTwice]

/-! ## Where the readings differ -/

/-- How many lines end right behind an escaped backslash. -/
def severed : List Char → Nat
  | '\\' :: c :: cs => (if c = '\\' ∧ breaksLine cs then 1 else 0) + severed cs
  | _ :: cs => severed cs
  | [] => 0

theorem severed_plain {c : Char} (hc : c ≠ '\\') (cs : List Char) :
    severed (c :: cs) = severed cs := by
  rw [severed]
  intros
  contradiction

theorem severed_pair {c : Char} (hc : c ≠ '\\') (cs : List Char) :
    severed ('\\' :: c :: cs) = severed cs := by
  rw [severed, if_neg (fun h => hc h.1), Nat.zero_add]

theorem severed_crlf (cs : List Char) : severed ('\\' :: '\r' :: '\n' :: cs) = severed cs := by
  rw [severed_pair (by decide), severed_plain (by decide)]

theorem readTwice_eq {body : List Char} (h : Literal body) (hnone : severed body = 0)
    (skipping : Bool) : readTwice skipping body = readOnce skipping body := by
  induction h generalizing skipping with
  | nil => rfl
  | plain hquote hslash _ ih =>
      rw [severed_plain hslash] at hnone
      rw [readTwice_plain hslash, readOnce_plain hslash, ih hnone true, ih hnone false]
  | lf _ ih =>
      rw [severed_pair (by decide)] at hnone
      exact ih hnone true
  | crlf _ ih =>
      rw [severed_crlf] at hnone
      exact ih hnone true
  | quote _ ih =>
      rw [severed_pair (by decide)] at hnone
      rw [readTwice_quote, readOnce, ih hnone]
  | @slash cs hcs ih =>
      have hbreaks : breaksLine cs = false := by
        by_contra hbreaks
        simp [severed, hbreaks] at hnone
      have hrest : severed cs = 0 := by simpa [severed, hbreaks] using hnone
      rw [readTwice_slash hcs, hbreaks, if_neg Bool.false_ne_true, ih hrest,
        readOnce_pair (by decide) rfl]
  | pair hquote hslash hbreaks _ ih =>
      rw [severed_pair hslash] at hnone
      rw [readTwice_pair hquote hslash hbreaks, readOnce_pair hquote hbreaks, ih hnone]

/-- Every line that ends behind an escaped backslash costs a backslash. White space that is dropped
has none. -/
theorem count_slash_readTwice {body : List Char} (h : Literal body) (skipping skipping' : Bool) :
    (readTwice skipping body).count '\\' + severed body =
      (readOnce skipping' body).count '\\' := by
  induction h generalizing skipping skipping' with
  | nil => rfl
  | @plain c cs hquote hslash _ ih =>
      have htwice : (readTwice skipping (c :: cs)).count '\\' =
          (readTwice (skipping && isBlank c) cs).count '\\' := by
        rw [readTwice_plain hslash]
        cases skipping && isBlank c <;> simp [hslash]
      have honce : (readOnce skipping' (c :: cs)).count '\\' =
          (readOnce (skipping' && isBlank c) cs).count '\\' := by
        rw [readOnce_plain hslash]
        cases skipping' && isBlank c <;> simp [hslash]
      rw [htwice, honce, severed_plain hslash]
      exact ih _ _
  | lf _ ih =>
      rw [severed_pair (by decide)]
      exact ih true true
  | crlf _ ih =>
      rw [severed_crlf]
      exact ih true true
  | quote _ ih =>
      have hrest := ih false false
      rw [severed_pair (by decide), readTwice_quote, readOnce]
      simpa using hrest
  | @slash cs hcs ih =>
      rw [readTwice_slash hcs, readOnce_pair (by decide) rfl, severed]
      cases hbreaks : breaksLine cs with
      | true =>
          have hrest := ih true false
          simp
          omega
      | false =>
          have hrest := ih false false
          simp
          omega
  | pair hquote hslash hbreaks _ ih =>
      have hrest := ih false false
      rw [severed_pair hslash, readTwice_pair hquote hslash hbreaks, readOnce_pair hquote hbreaks]
      simp [hslash]
      omega

/-- Whether a line of a body ends right behind an escaped backslash. What stands in front is a body
itself, so the first backslash is none that another one escapes. -/
def Severs (body : List Char) : Prop :=
  ∃ front rest, IsBody front ∧ body = front ++ '\\' :: '\\' :: rest ∧ breaksLine rest

theorem severed_ne_zero_iff {body : List Char} (h : IsBody body) :
    severed body ≠ 0 ↔ Severs body := by
  constructor
  · intro hsome
    induction h with
    | nil => exact (hsome rfl).elim
    | @plain c cs hquote hslash _ ih =>
        rw [severed_plain hslash] at hsome
        obtain ⟨front, rest, hfront, rfl, hbreaks⟩ := ih hsome
        exact ⟨c :: front, rest, .plain hquote hslash hfront, rfl, hbreaks⟩
    | @escaped c cs _ ih =>
        by_cases hhere : c = '\\' ∧ breaksLine cs
        · obtain ⟨rfl, hbreaks⟩ := hhere
          exact ⟨[], cs, .nil, rfl, hbreaks⟩
        · rw [severed, if_neg hhere, Nat.zero_add] at hsome
          obtain ⟨front, rest, hfront, rfl, hbreaks⟩ := ih hsome
          exact ⟨'\\' :: c :: front, rest, .escaped hfront, rfl, hbreaks⟩
  · rintro ⟨front, rest, hfront, rfl, hbreaks⟩
    clear h
    induction hfront with
    | nil => simp [severed, hbreaks]
    | plain _ hslash _ ih => rwa [List.cons_append, severed_plain hslash]
    | escaped _ ih =>
        rw [List.cons_append, List.cons_append, severed]
        omega

theorem description_eq_iff {body : List Char} (h : IsBody body) :
    description body = String.ofList (readOnce false body) ↔ ¬ Severs body := by
  have hliteral := literal_of_isBody h
  rw [← severed_ne_zero_iff h, not_not, description_eq, String.ofList_inj]
  constructor
  · intro heq
    have hcount := count_slash_readTwice hliteral false false
    rw [heq] at hcount
    omega
  · intro hnone
    exact readTwice_eq hliteral hnone false

/-! ## Extracted descriptions -/

variable {macroName : String}

/-- The description of a declaration is what its body says when it is read once, exactly if no line
of the body ends right behind an escaped backslash. -/
theorem extract_reads_once_iff (macroName : String) :
    ∃ p, pattern macroName = .ok p ∧
      ∀ module text : String, ∃ found : List Sighting, Scan macroName text.toList found ∧
        List.Forall₂ (fun (x : Sighting) (lint : Lint) =>
            lint.description = String.ofList (readOnce false x.spelling.body) ↔
              ¬ Severs x.spelling.body)
          found (extract p module text) := by
  refine ⟨_, pattern_eq macroName, fun module text => ?_⟩
  obtain ⟨found, hscan, hextract⟩ := extract_eq (pattern_eq macroName) module text
  refine ⟨found, hscan, ?_⟩
  rw [hextract, List.forall₂_map_right_iff, List.forall₂_same]
  intro x hx
  exact description_eq_iff (hscan.valid x hx).body

/-- A text that is one declaration is scanned as that. -/
theorem scan_text {s : Spelling} (h : s.Valid) : Scan macroName (s.text macroName) [⟨[], s⟩] := by
  have hquiet : ∀ rest, Quiet macroName [] rest := by
    intro rest front c back hnil
    simp at hnil
  have hscan := Scan.next (hquiet (s.text macroName ++ [])) h (.done (hquiet []))
  simpa using hscan

/-- A declaration with a line that ends right behind an escaped backslash. -/
def severing : Spelling :=
  ⟨[], '(', [], [' '], ['A'], [], [' '], .warn, [], [' '], ['x', '\\', '\\', '\n', ' ', 'y'], [],
    ')'⟩

theorem extract_can_sever :
    ¬ ∀ (macroName module text : String) (p : Pattern) (found : List Sighting),
      pattern macroName = .ok p → Scan macroName text.toList found →
      (extract p module text).map Lint.description =
        found.map fun x => String.ofList (readOnce false x.spelling.body) := by
  intro hall
  have hbody : IsBody severing.body :=
    .plain (by decide) (by decide) (.escaped (.plain (by decide) (by decide)
      (.plain (by decide) (by decide) (.plain (by decide) (by decide) .nil))))
  have hvalid : severing.Valid := ⟨by decide, .inr rfl, by decide, by decide,
    ⟨by decide, List.all_eq_true.1 rfl⟩, by decide, by decide, by decide, by decide, hbody,
    by decide, .inr rfl⟩
  have hscan : Scan "m" (String.ofList (severing.text "m")).toList [⟨[], severing⟩] := by
    rw [String.toList_ofList]
    exact scan_text hvalid
  obtain ⟨found, hfound, hextract⟩ := extract_eq (pattern_eq "m") "lib"
    (String.ofList (severing.text "m"))
  have hone := hall "m" "lib" _ _ _ (pattern_eq "m") hscan
  rw [hextract, hscan.unique hfound] at hone
  have hsame : description severing.body = String.ofList (readOnce false severing.body) := by
    simpa [Spelling.lint] using hone
  exact absurd hsame (by decide +kernel)

end LintLedger.Declaration
