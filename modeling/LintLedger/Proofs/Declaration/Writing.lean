import LintLedger.Proofs.Declaration.Extract

/-!
# Declarations written out

How lints are written down so that they are extracted again. In a description every quote gets a
backslash, and the line may be broken wherever no white space follows in the description. Between
declarations any text can stand that has no exclamation mark: the first exclamation mark of a
declaration stands right behind the macro name, so no declaration begins in such a text, and none
that a description may hold is reached by the scan.
-/

namespace LintLedger.Declaration

open Text

/-! ## Descriptions -/

/-- A backslash at the end of a line, the line end, and white space after it. -/
inductive IsBreak : List Char → Prop
  | lf {gap : List Char} : IsGap gap → IsBreak ('\\' :: '\n' :: gap)
  | crlf {gap : List Char} : IsGap gap → IsBreak ('\\' :: '\r' :: '\n' :: gap)

/-- The ways to write a description between quotes. White space right behind a break would be
lost, so what follows a break in the description is something else, or nothing. -/
inductive Writes : List Char → List Char → Prop
  | nil : Writes [] []
  | plain {c : Char} {cs body : List Char} :
      c ≠ '"' → c ≠ '\\' → Writes cs body → Writes (c :: cs) (c :: body)
  | quote {cs body : List Char} : Writes cs body → Writes ('"' :: cs) ('\\' :: '"' :: body)
  | broken {pause cs body : List Char} :
      IsBreak pause → (∀ c ∈ cs.head?, ¬ isBlank c) → Writes cs body → Writes cs (pause ++ body)

def withSlashes (cs : List Char) : List Char :=
  cs.flatMap fun c => if c = '"' then ['\\', '"'] else [c]

theorem withSlashes_quote (cs : List Char) :
    withSlashes ('"' :: cs) = '\\' :: '"' :: withSlashes cs := rfl

theorem withSlashes_cons {c : Char} (hc : c ≠ '"') (cs : List Char) :
    withSlashes (c :: cs) = c :: withSlashes cs := by
  rw [withSlashes, List.flatMap_cons, if_neg hc, List.singleton_append, withSlashes]

theorem ne_of_isBlank {c d : Char} (hc : isBlank c) (hd : isBlank d = false) : c ≠ d := by
  rintro rfl
  rw [hd] at hc
  cases hc

theorem isBody_of_gap {gap body : List Char} (hgap : IsGap gap) (h : IsBody body) :
    IsBody (gap ++ body) := by
  induction gap with
  | nil => exact h
  | cons c gap ih =>
      have hc : isBlank c := hgap c List.mem_cons_self
      have hquote : c ≠ '"' := ne_of_isBlank hc (by decide)
      have hslash : c ≠ '\\' := ne_of_isBlank hc (by decide)
      exact .plain hquote hslash (ih fun d hd => hgap d (List.mem_cons_of_mem c hd))

theorem isBody_of_writes {cs body : List Char} (h : Writes cs body) : IsBody body := by
  induction h with
  | nil => exact .nil
  | plain hquote hslash _ ih => exact .plain hquote hslash ih
  | quote _ ih => exact .escaped ih
  | broken hbreak _ _ ih =>
      cases hbreak with
      | lf hgap => exact .escaped (isBody_of_gap hgap ih)
      | crlf hgap => exact .escaped (.plain (by decide) (by decide) (isBody_of_gap hgap ih))

/-! ### Reading them back -/

theorem joinLines_cons {c : Char} (hc : c ≠ '\\') (skipping : Bool) (cs : List Char) :
    joinLines skipping (c :: cs) =
      if skipping && isBlank c then joinLines true cs else c :: joinLines false cs := by
  rw [joinLines]
  · intro _ h
    exact (hc h).elim
  · intro _ h
    exact (hc h).elim

theorem joinLines_quote (skipping : Bool) (cs : List Char) :
    joinLines skipping ('\\' :: '"' :: cs) = '\\' :: '"' :: joinLines false cs := by
  have hslash : isBlank '\\' = false := by decide
  rw [joinLines]
  · rw [hslash, Bool.and_false, if_neg Bool.false_ne_true, joinLines_cons (by decide)]
    rfl
  · simp
  · simp

theorem joinLines_gap {gap : List Char} (hgap : IsGap gap) (cs : List Char) :
    joinLines true (gap ++ cs) = joinLines true cs := by
  induction gap with
  | nil => rfl
  | cons c gap ih =>
      have hc : isBlank c := hgap c List.mem_cons_self
      have hslash : c ≠ '\\' := ne_of_isBlank hc (by decide)
      rw [List.cons_append, joinLines_cons hslash, hc, Bool.and_true, if_pos rfl]
      exact ih fun d hd => hgap d (List.mem_cons_of_mem c hd)

theorem joinLines_break {pause : List Char} (h : IsBreak pause) (skipping : Bool)
    (cs : List Char) : joinLines skipping (pause ++ cs) = joinLines true cs := by
  cases h with
  | lf hgap => exact joinLines_gap hgap cs
  | crlf hgap => exact joinLines_gap hgap cs

/-- The breaks are taken out with all white space behind them, and nothing else is. -/
theorem joinLines_of_writes {cs body : List Char} (h : Writes cs body) (skipping : Bool)
    (hskipping : skipping → ∀ c ∈ cs.head?, ¬ isBlank c) :
    joinLines skipping body = withSlashes cs := by
  induction h generalizing skipping with
  | nil => rfl
  | @plain c cs body hquote hslash _ ih =>
      have hkept : (skipping && isBlank c) = false := by
        cases skipping with
        | false => rfl
        | true => simpa using hskipping rfl
      rw [joinLines_cons hslash, hkept, if_neg Bool.false_ne_true, withSlashes_cons hquote,
        ih false (by simp)]
  | quote _ ih => rw [joinLines_quote, withSlashes_quote, ih false (by simp)]
  | broken hbreak hhead _ ih => rw [joinLines_break hbreak, ih true fun _ => hhead]

theorem bareQuotes_cons {c : Char} (hc : c ≠ '\\') (cs : List Char) :
    bareQuotes (c :: cs) = c :: bareQuotes cs := by
  rw [bareQuotes]
  intro _ h
  exact (hc h).elim

theorem bareQuotes_withSlashes {cs : List Char} (h : '\\' ∉ cs) :
    bareQuotes (withSlashes cs) = cs := by
  induction cs with
  | nil => rfl
  | cons c cs ih =>
      have hc : c ≠ '\\' := by
        rintro rfl
        exact h List.mem_cons_self
      have hcs := ih fun hmem => h (List.mem_cons_of_mem c hmem)
      by_cases hquote : c = '"'
      · rw [hquote, withSlashes_quote, bareQuotes, hcs]
      · rw [withSlashes_cons hquote, bareQuotes_cons hc, hcs]

theorem slash_not_mem_of_writes {cs body : List Char} (h : Writes cs body) : '\\' ∉ cs := by
  induction h with
  | nil => simp
  | plain _ hslash _ ih => simp [Ne.symm hslash, ih]
  | quote _ ih => simp [ih]
  | broken _ _ _ ih => exact ih

/-- In front of a description, any text without a backslash can be written on one line. -/
theorem Writes.append_front {cs body : List Char} (h : Writes cs body) {front : List Char}
    (hfront : '\\' ∉ front) : Writes (front ++ cs) (withSlashes front ++ body) := by
  induction front with
  | nil => exact h
  | cons c front ih =>
      have hc : c ≠ '\\' := by
        rintro rfl
        exact hfront List.mem_cons_self
      have hrest := ih fun hmem => hfront (List.mem_cons_of_mem c hmem)
      by_cases hquote : c = '"'
      · rw [hquote, withSlashes_quote]
        exact .quote hrest
      · rw [withSlashes_cons hquote]
        exact .plain hquote hc hrest

/-- The descriptions that can be written out are those without a backslash. -/
theorem exists_writes_iff {cs : List Char} : (∃ body, Writes cs body) ↔ '\\' ∉ cs := by
  constructor
  · intro h
    obtain ⟨body, hbody⟩ := h
    exact slash_not_mem_of_writes hbody
  · intro h
    have hwrites := Writes.nil.append_front h
    rw [List.append_nil] at hwrites
    exact ⟨_, hwrites⟩

theorem description_of_writes {cs body : List Char} (h : Writes cs body) :
    description body = String.ofList cs := by
  rw [description, joinLines_of_writes h false (by simp),
    bareQuotes_withSlashes (slash_not_mem_of_writes h)]

/-! ## Texts of declarations -/

namespace Sighting

/-- A declaration behind the characters that are passed over. -/
def text (macroName : String) (x : Sighting) : List Char :=
  x.skipped ++ x.spelling.text macroName

end Sighting

variable {macroName : String}

/-- No declaration begins in a text without an exclamation mark that another one follows. -/
theorem quiet_of_bang (hname : '!' ∉ macroName.toList) {stretch : List Char}
    (hstretch : '!' ∉ stretch) (s : Spelling) (rest : List Char) :
    Quiet macroName stretch (s.text macroName ++ rest) := by
  rintro front c back rfl ⟨s', rest', -, heq⟩
  have hchars : ∀ x ∈ nameChars macroName, ¬ x = '!' := by
    rintro x hx rfl
    exact hname (List.mem_of_mem_filter hx)
  have hback : ∀ x ∈ c :: back ++ nameChars macroName, ¬ x = '!' := by
    intro x hx
    rcases List.mem_append.1 hx with hx | hx
    · rintro rfl
      exact hstretch (List.mem_append_right front hx)
    · exact hchars x hx
  -- Both sides have their first exclamation mark behind a macro name.
  have hcut : ∃ after after', (c :: back ++ nameChars macroName) ++ '!' :: after =
      nameChars macroName ++ '!' :: after' := by
    simp only [Spelling.text, Spelling.front, List.append_assoc, List.cons_append] at heq
    exact ⟨_, _, by simpa only [List.append_assoc, List.cons_append] using heq⟩
  obtain ⟨after, after', hcut⟩ := hcut
  obtain ⟨hsame, -, -⟩ := cut_unique (p := (· = '!')) hback hchars rfl rfl hcut
  have hlength := congrArg List.length hsame
  simp only [List.length_append, List.length_cons] at hlength
  omega

theorem quiet_of_not_bang {stretch : List Char} (hstretch : '!' ∉ stretch) :
    Quiet macroName stretch [] := by
  rintro front c back rfl ⟨s, rest, -, heq⟩
  rw [List.append_nil] at heq
  have hbang : '!' ∈ c :: back := by
    rw [heq]
    simp [Spelling.text, Spelling.front]
  exact hstretch (List.mem_append_right front hbang)

/-- A text that is made of declarations, with texts without exclamation marks around them, has
these declarations for its scan. -/
theorem scan_of_bang (hname : '!' ∉ macroName.toList) {found : List Sighting} {last : List Char}
    (hfound : ∀ x ∈ found, '!' ∉ x.skipped ∧ x.spelling.Valid) (hlast : '!' ∉ last) :
    Scan macroName (found.flatMap (Sighting.text macroName) ++ last) found := by
  induction found with
  | nil => exact .done (quiet_of_not_bang hlast)
  | cons x found ih =>
      obtain ⟨hskipped, hvalid⟩ := hfound x List.mem_cons_self
      have hrest := ih fun y hy => hfound y (List.mem_cons_of_mem x hy)
      rw [List.flatMap_cons, Sighting.text, List.append_assoc, List.append_assoc]
      exact .next (quiet_of_bang hname hskipped x.spelling _) hvalid hrest

/-! ## Lints and back -/

def Spelling.saying (s : Spelling) (body : List Char) : Spelling :=
  { s with body := body }

theorem Spelling.Valid.saying {s : Spelling} (h : s.Valid) {body : List Char}
    (hbody : IsBody body) : (s.saying body).Valid :=
  { h with body := hbody }

/-- A description that is written out in a declaration, behind some other text. -/
structure Written where
  before : List Char
  /-- The declaration, whatever it holds between its quotes. -/
  frame : Spelling
  description : List Char
  body : List Char
  not_bang : '!' ∉ before
  valid : frame.Valid
  writes : Writes description body

namespace Written

def sighting (w : Written) : Sighting :=
  ⟨w.before, w.frame.saying w.body⟩

def text (macroName : String) (w : Written) : List Char :=
  w.sighting.text macroName

def lint (module : String) (w : Written) : Lint :=
  ⟨module, String.ofList (w.frame.name.map Char.toLower), w.frame.level,
    String.ofList w.description⟩

theorem valid_sighting (w : Written) : w.sighting.spelling.Valid :=
  w.valid.saying (isBody_of_writes w.writes)

theorem lint_sighting (module : String) (w : Written) :
    w.sighting.spelling.lint module = w.lint module := by
  simp only [sighting, Spelling.lint, Spelling.saying, description_of_writes w.writes, lint]

end Written

/-- Lints that are written out come back: whatever the layout of their declarations, the breaks in
their descriptions and the texts around them are, they are extracted from the whole in order, and
nothing else is. -/
theorem extract_written (hname : '!' ∉ macroName.toList) (written : List Written)
    {last : List Char} (hlast : '!' ∉ last) :
    ∃ p, pattern macroName = .ok p ∧
      ∀ module, extract p module
          (String.ofList (written.flatMap (Written.text macroName) ++ last)) =
        written.map (Written.lint module) := by
  refine ⟨_, pattern_eq macroName, fun module => ?_⟩
  have hparts : ∀ x ∈ written.map Written.sighting, '!' ∉ x.skipped ∧ x.spelling.Valid := by
    intro x hx
    obtain ⟨w, -, rfl⟩ := List.mem_map.1 hx
    exact ⟨w.not_bang, w.valid_sighting⟩
  have hscan : Scan macroName (written.flatMap (Written.text macroName) ++ last)
      (written.map Written.sighting) := by
    have hall := scan_of_bang hname hparts hlast
    rwa [List.flatMap_map] at hall
  obtain ⟨found, hfound, hextract⟩ := extract_eq (pattern_eq macroName) module
    (String.ofList (written.flatMap (Written.text macroName) ++ last))
  rw [String.toList_ofList] at hfound
  have hsame : found = written.map Written.sighting := hscan.unique hfound
  rw [hextract, hsame, List.map_map]
  exact List.map_congr_left fun w _ => w.lint_sighting module

/-- A description that looks like a declaration itself, with breaks before a quote and at its
end. -/
def nested : Written where
  before := "// lints\n".toList
  frame :=
    ⟨[' '], '\x7b', ['\n'], [' '], ['A', '_', 'B'], [], [' '], .warn, [], ['\t'], [], [], ')'⟩
  description := "m!(pub C, Deny, ".toList ++ ("\"d\") ".toList ++ [])
  body := withSlashes "m!(pub C, Deny, ".toList ++ (['\\', '\r', '\n', ' '] ++ (['\\', '\n'] ++
    (withSlashes "\"d\") ".toList ++ (['\\', '\n'] ++ []))))
  not_bang := by decide
  valid := ⟨by decide, .inl rfl, by decide, ⟨by decide, by decide⟩,
    ⟨by decide, List.all_eq_true.1 rfl⟩, by decide, by decide, by decide, by decide, .nil,
    by decide, .inr rfl⟩
  writes := by
    have hend : Writes [] (['\\', '\n'] ++ []) := .broken (.lf (by decide)) (by simp) .nil
    have hslash : '\\' ∉ "\"d\") ".toList := by decide
    have hquoted := hend.append_front hslash
    have hhead : ∀ c ∈ ("\"d\") ".toList ++ []).head?, ¬ isBlank c := by
      rintro _ ⟨⟩
      decide
    have hlf : IsBreak ['\\', '\n'] := .lf (by decide)
    have hcrlf : IsBreak ['\\', '\r', '\n', ' '] := .crlf (by decide)
    have htwice := Writes.broken hcrlf hhead (.broken hlf hhead hquoted)
    exact htwice.append_front (by decide)

theorem extract_written_nested :
    ∃ p, pattern "m" = .ok p ∧
      extract p "lib"
          "// lints\nm! \x7b\npub A_B, Warn,\t\"m!(pub C, Deny, \\\r\n \\\n\\\"d\\\") \\\n\");" =
        [⟨"lib", "a_b", .warn, "m!(pub C, Deny, \"d\") "⟩] := by
  have hname : '!' ∉ "m".toList := by decide
  have hlast : '!' ∉ [';'] := by decide
  obtain ⟨p, hp, hextract⟩ := extract_written hname [nested] hlast
  refine ⟨p, hp, ?_⟩
  have htext : String.ofList ([nested].flatMap (Written.text "m") ++ [';']) =
      "// lints\nm! \x7b\npub A_B, Warn,\t\"m!(pub C, Deny, \\\r\n \\\n\\\"d\\\") \\\n\");" := by
    decide +kernel
  rw [← htext, hextract]
  decide +kernel

end LintLedger.Declaration
