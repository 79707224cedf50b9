import Mathlib.Data.List.Forall2
import LintLedger.Proofs.Declaration.Reading
import LintLedger.Proofs.Declaration.Scan

/-!
# Extraction

The matches that lints are extracted from are the declarations that a scan of the text takes, and
every one of them gives a lint.
-/

namespace LintLedger.Declaration

open Pattern

variable {macroName : String}

/-! ## Matches and declarations -/

theorem begins_iff {before : Option Char} {position : Nat} {cs : List Char} :
    Begins macroName cs ↔ ∃ k' t, Reads (expression macroName) ⟨before, position, cs⟩ k' t := by
  constructor
  · rintro ⟨s, rest, hvalid, rfl⟩
    obtain ⟨k', hover, -⟩ := Cursor.exists_over before position (s.text macroName) rest
    exact ⟨k', _, reads_expression_iff.2 ⟨s, hvalid, hover, rfl⟩⟩
  · rintro ⟨k', t, hread⟩
    obtain ⟨s, hvalid, hover, -⟩ := reads_expression_iff.1 hread
    exact ⟨s, k'.left, hvalid, hover.left⟩

theorem quiet_of_silent {before : Option Char} {stretch rest : List Char}
    (h : Silent (expression macroName) before stretch rest) : Quiet macroName stretch rest := by
  intro front c back hstretch hbegins
  obtain ⟨k', t, hread⟩ := begins_iff.1 hbegins
  exact h front c back hstretch k' t hread

theorem not_reads_nothing (k : Cursor) (t : Trace) : ¬ Reads (expression macroName) k k t := by
  intro hread
  obtain ⟨s, -, hover, -⟩ := reads_expression_iff.1 hread
  have hlength := hover.position
  have hpos := List.length_pos_iff.2 (s.text_ne_nil macroName)
  omega

/-- Whether a match is a declaration that a scan takes. -/
structure Corresponds (macroName : String) (f : Found) (x : Sighting) : Prop where
  valid : x.spelling.Valid
  skipped : f.skipped = x.skipped
  text : f.text = x.spelling.text macroName
  trace : f.trace = x.spelling.trace macroName 0

theorem exists_corresponds {f : Found} {before : Option Char} {cs : List Char}
    (h : f.Stands (expression macroName) before cs) :
    ∃ x : Sighting, Corresponds macroName f x := by
  obtain ⟨k', hread, hover⟩ := h.reads
  obtain ⟨s, hvalid, hover', htrace⟩ := reads_expression_iff.1 hread
  have htext : f.text = s.text macroName :=
    List.append_cancel_right (hover.left.symm.trans hover'.left)
  exact ⟨⟨f.skipped, s⟩, hvalid, rfl, htext, htrace⟩

theorem scan_of_successive {before : Option Char} {cs : List Char} {fs : List Found}
    (h : Successive (expression macroName) before cs fs) :
    ∃ found, Scan macroName cs found ∧ List.Forall₂ (Corresponds macroName) fs found := by
  induction h with
  | done hnone =>
      obtain ⟨hsilent, -⟩ := find?_eq_none_iff.1 hnone
      exact ⟨[], .done (quiet_of_silent hsilent), .nil⟩
  | next hstands _ ih =>
      obtain ⟨found, hscan, hfound⟩ := ih
      obtain ⟨⟨skipped, s⟩, hx⟩ := exists_corresponds hstands
      refine ⟨⟨skipped, s⟩ :: found, ?_, .cons hx hfound⟩
      have hquiet := quiet_of_silent hstands.silent
      obtain ⟨hvalid, hskipped, htext, -⟩ := hx
      rw [hskipped, htext] at hquiet
      rw [hstands.parts, hskipped, htext]
      exact .next hquiet hvalid hscan

/-! ## Lints -/

section

variable {f : Found} {x : Sighting}

theorem group_name (h : Corresponds macroName f x) : f.group "name" = x.spelling.name := by
  refine Found.group_eq h.text ?_ ?_
  · simp [h.trace, Spelling.trace]
  · simp [h.trace, Spelling.trace]

theorem group_level (h : Corresponds macroName f x) :
    f.group "level" = keyword x.spelling.level := by
  have htext : f.text = (x.spelling.front macroName ++ x.spelling.name ++ x.spelling.comma) ++
      (keyword x.spelling.level ++ (x.spelling.comma' ++ (x.spelling.body ++ x.spelling.back))) := by
    rw [h.text, Spelling.text]
    simp only [List.append_assoc]
  refine Found.group_eq htext ?_ ?_
  · simp [h.trace, Spelling.trace, Nat.add_assoc]
  · simp [h.trace, Spelling.trace, Nat.add_assoc]

theorem group_desc (h : Corresponds macroName f x) : f.group "desc" = x.spelling.body := by
  have htext : f.text = (x.spelling.front macroName ++ x.spelling.name ++ x.spelling.comma ++
      keyword x.spelling.level ++ x.spelling.comma') ++
      (x.spelling.body ++ x.spelling.back) := by
    rw [h.text, Spelling.text]
    simp only [List.append_assoc]
  refine Found.group_eq htext ?_ ?_
  · simp [h.trace, Spelling.trace, Nat.add_assoc]
  · simp [h.trace, Spelling.trace, Nat.add_assoc]

end

def Spelling.lint (module : String) (s : Spelling) : Lint :=
  ⟨module, String.ofList (s.name.map Char.toLower), s.level, description s.body⟩

theorem Spelling.isName_lint {s : Spelling} (h : s.Valid) (module : String) :
    Lint.IsName (s.lint module).name :=
  Lint.isName_lowered h.name.1 h.name.2

theorem read_keyword (level : Level) :
    Level.read (String.ofList (keyword level)) = .ok level := by
  rw [Level.read_eq_ok_iff]
  cases level <;> rfl

theorem lint?_eq {f : Found} {x : Sighting} (h : Corresponds macroName f x) (module : String) :
    lint? module f = some (x.spelling.lint module) := by
  rw [lint?, group_name h, group_level h, group_desc h, read_keyword]
  rfl

theorem filterMap_lint? {fs : List Found} {found : List Sighting}
    (h : List.Forall₂ (Corresponds macroName) fs found) (module : String) :
    fs.filterMap (lint? module) = found.map fun x => x.spelling.lint module := by
  induction h with
  | nil => rfl
  | cons hfirst _ ih => rw [List.filterMap_cons_some (lint?_eq hfirst module), ih, List.map_cons]

/-- The matches that lints are extracted from are the declarations of a scan. -/
theorem exists_scan (macroName : String) (cs : List Char) :
    ∃ found, Scan macroName cs found ∧
      List.Forall₂ (Corresponds macroName) ((expression macroName).findAll none cs) found :=
  scan_of_successive (successive_findAll not_reads_nothing none cs)

theorem extract_eq {p : Pattern} (hp : pattern macroName = .ok p) (module text : String) :
    ∃ found, Scan macroName text.toList found ∧
      extract p module text = found.map fun x => x.spelling.lint module := by
  obtain ⟨found, hscan, hfound⟩ := exists_scan macroName text.toList
  obtain rfl := Except.ok.inj ((pattern_eq macroName).symm.trans hp)
  exact ⟨found, hscan, filterMap_lint? hfound module⟩

/-- What a match says of its declaration. -/
theorem parts_eq {fs : List Found} {found : List Sighting}
    (h : List.Forall₂ (Corresponds macroName) fs found) :
    fs.map (fun f => (f.skipped, f.text, f.group "name", f.group "level", f.group "desc")) =
      found.map fun x => (x.skipped, x.spelling.text macroName, x.spelling.name,
        keyword x.spelling.level, x.spelling.body) := by
  induction h with
  | nil => rfl
  | cons hfirst _ ih =>
      rw [List.map_cons, List.map_cons, ih, hfirst.skipped, hfirst.text, group_name hfirst,
        group_level hfirst, group_desc hfirst]

/-- There is a pattern for every macro name, and it recognises the grammar. A text begins with
one declaration at most, written in one way. The matches in a text are the declarations that its
one scan takes, with their parts; a declaration that is left out begins inside one of them; and
every match gives a lint, in order. -/
theorem extract_follows_grammar (macroName : String) :
    ∃ p, pattern macroName = .ok p ∧
      (∀ (s s' : Spelling) (rest rest' : List Char), s.Valid → s'.Valid →
        s.text macroName ++ rest = s'.text macroName ++ rest' → s = s' ∧ rest = rest') ∧
      ∀ text : String, ∃ found : List Sighting,
        (Scan macroName text.toList found ∧
          ∀ other, Scan macroName text.toList other → other = found) ∧
        (p.matchesOf text.toList).map
            (fun f => (f.skipped, f.text, f.group "name", f.group "level", f.group "desc")) =
          found.map (fun x => (x.skipped, x.spelling.text macroName, x.spelling.name,
            keyword x.spelling.level, x.spelling.body)) ∧
        (∀ (front : List Char) (s : Spelling) (rest : List Char), s.Valid →
          text.toList = front ++ (s.text macroName ++ rest) →
          Covered macroName (placed macroName 0 found) front.length s) ∧
        ∀ module, extract p module text = found.map fun x => x.spelling.lint module := by
  refine ⟨_, pattern_eq macroName, fun s s' rest rest' h h' => Spelling.unique h h', ?_⟩
  intro text
  obtain ⟨found, hscan, hfound⟩ := exists_scan macroName text.toList
  refine ⟨found, ⟨hscan, fun other hother => hscan.unique hother⟩, parts_eq hfound, ?_, ?_⟩
  · intro front s rest hvalid htext
    have hcovers := hscan.covers hvalid htext 0
    rwa [Nat.zero_add] at hcovers
  · intro module
    exact filterMap_lint? hfound module

end LintLedger.Declaration
