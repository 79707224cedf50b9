import LintLedger.Proofs.Json.Reading
import LintLedger.Proofs.Listing.Columns
import LintLedger.Proofs.Listing.Lines
import LintLedger.Report

/-!
# Reading the listings

Readers for the rows of the table, the entries of the group, the sentence and the document, which
know nothing of the lints that these were made of. A cell of a row goes up to the first blank, so
names must not have any; the identifier in an entry goes back to the last colon, so a module may
have some. Each reader finds what was written.
-/

namespace LintLedger

/-- What the table shows of a lint. -/
def Lint.shown (lint : Lint) : String × Level × String :=
  (lint.name, lint.level, lint.description)

/-- What the group shows of a lint: its module and its identifier. -/
def Lint.registered (lint : Lint) : String × String :=
  (lint.module, String.ofList (lint.name.toList.map Char.toUpper))

/-! ## Documents -/

namespace Json

def field? (name : String) : Json → Option Json
  | .record fields => fields.lookup name
  | _ => none

def text? : Json → Option String
  | .text value => some value
  | _ => none

def number? : Json → Option Nat
  | .number value => some value
  | _ => none

def items? : Json → Option (List Json)
  | .list items => some items
  | _ => none

end Json

namespace Listing

open Text

def readLevel? (word : List Char) : Option Level :=
  Level.all.find? fun level => level.text.toList == word

theorem readLevel?_text (level : Level) : readLevel? level.text.toList = some level := by
  cases level <;> rfl

def readLint? (value : Json) : Option Lint := do
  let module ← (← value.field? "module").text?
  let name ← (← value.field? "name").text?
  let level ← readLevel? (← (← value.field? "level").text?).toList
  let description ← (← value.field? "description").text?
  return ⟨module, name, level, description⟩

def readLints? (document : Json) : Option (List Lint) := do
  (← (← document.field? "lints").items?).mapM readLint?

def readTotal? (document : Json) : Option Nat := do
  (← (← document.field? "summary").field? "total").number?

theorem readLint?_lintRecord (lint : Lint) : readLint? (Report.lintRecord lint) = some lint := by
  simp [readLint?, Report.lintRecord, Json.field?, Json.text?, List.lookup_cons, readLevel?_text]

theorem readLints?_tableDocument (lints : List Lint) :
    readLints? (Report.tableDocument lints) = some (byName lints) := by
  have hread : readLint? ∘ Report.lintRecord = fun lint => pure lint :=
    funext readLint?_lintRecord
  have hlints : ((byName lints).map Report.lintRecord).mapM readLint? = some (byName lints) := by
    rw [List.mapM_map, hread, List.mapM_pure, List.map_id']
    rfl
  exact hlints

theorem readTotal?_tableDocument (lints : List Lint) :
    readTotal? (Report.tableDocument lints) = some lints.length :=
  rfl

/-! ## Rows -/

/-- Reads a cell, up to its first blank, and the bar behind it. -/
def readCell? (cs : List Char) : Option (List Char × List Char) := do
  let rest ← ((cs.dropWhile (· != ' ')).dropWhile (· == ' ')).dropPrefix? ['|', ' ']
  return (cs.takeWhile (· != ' '), rest)

def readRow? (line : String) : Option (String × Level × String) := do
  let (name, rest) ← readCell? line.toList
  let (word, rest) ← readCell? rest
  let level ← readLevel? word
  let description ← rest.dropSuffix? ['\n']
  return (String.ofList name, level, String.ofList description)

theorem readCell?_padded {s : String} (h : ' ' ∉ s.toList) (width : Nat) (rest : List Char) :
    readCell? (padded width s ++ ' ' :: '|' :: ' ' :: rest) = some (s.toList, rest) := by
  -- The blank in front of the bar belongs to those of the cell.
  have hcell : padded width s ++ ' ' :: '|' :: ' ' :: rest =
      s.toList ++ (List.replicate (width - s.length + 1) ' ' ++ '|' :: ' ' :: rest) := by
    simp [padded, List.replicate_succ']
  have hword : ∀ c ∈ s.toList, (c != ' ') = true := by
    intro c hc
    rw [bne_iff_ne]
    rintro rfl
    exact h hc
  have hgap : ∀ c ∈ (List.replicate (width - s.length + 1) ' ' ++ '|' :: ' ' :: rest).head?,
      ¬ (c != ' ') = true := by
    simp [List.replicate_succ]
  have hblanks : ∀ c ∈ List.replicate (width - s.length + 1) ' ', (c == ' ') = true := by
    intro c hc
    rw [beq_iff_eq]
    exact List.eq_of_mem_replicate hc
  have hbar : ∀ c ∈ ('|' :: ' ' :: rest).head?, ¬ (c == ' ') = true := by simp
  have hdrop : ('|' :: ' ' :: rest).dropPrefix? ['|', ' '] = some rest :=
    List.dropPrefix?_eq_some_iff.2 ⟨['|', ' '], rfl, rfl⟩
  rw [hcell, readCell?, takeWhile_span hword hgap, dropWhile_span hword hgap,
    dropWhile_span hblanks hbar, hdrop]
  rfl

theorem blank_not_mem {name : String} (h : ∀ c ∈ name.toList, Lint.isNameChar c) :
    ' ' ∉ name.toList :=
  fun hmem => absurd (h _ hmem) (by decide)

theorem readRow?_row {lint : Lint} (h : ' ' ∉ lint.name.toList) (width : Nat) :
    readRow? (row width lint) = some lint.shown := by
  have hlevel : ' ' ∉ lint.level.text.toList := by
    cases lint.level <;> decide
  have hend : (lint.description.toList ++ ['\n']).dropSuffix? ['\n'] =
      some lint.description.toList :=
    List.dropSuffix?_eq_some_iff.2 ⟨['\n'], rfl, rfl⟩
  rw [readRow?, toList_row_cells, readCell?_padded h]
  simp only [Option.bind_eq_bind, Option.bind_some]
  rw [readCell?_padded hlevel]
  simp [readLevel?_text, hend, Lint.shown]

/-! ## Entries -/

def readPath? (line : String) : Option (String × String) := do
  let rest ← line.toList.dropPrefix? (List.replicate 8 ' ')
  let rest ← rest.dropSuffix? [',', '\n']
  let module ← (rest.reverse.dropWhile (· != ':')).reverse.dropSuffix? [':', ':']
  return (String.ofList module, String.ofList (rest.reverse.takeWhile (· != ':')).reverse)

theorem readPath?_entry {lint : Lint} (h : ∀ c ∈ lint.name.toList, Lint.isNameChar c) :
    readPath? (entry lint) = some lint.registered := by
  let identifier := lint.name.toList.map Char.toUpper
  let path := lint.module.toList ++ [':', ':'] ++ identifier
  have hline : (entry lint).toList = List.replicate 8 ' ' ++ (path ++ [',', '\n']) := by
    rw [toList_entry, Lint.toList_upper h]
    simp [path, identifier, List.replicate_succ]
  have hprefix : (entry lint).toList.dropPrefix? (List.replicate 8 ' ') =
      some (path ++ [',', '\n']) :=
    List.dropPrefix?_eq_some_iff.2 ⟨_, hline, rfl⟩
  have hsuffix : (path ++ [',', '\n']).dropSuffix? [',', '\n'] = some path :=
    List.dropSuffix?_eq_some_iff.2 ⟨_, rfl, rfl⟩
  have hpath : path.reverse = identifier.reverse ++ (':' :: ':' :: lint.module.toList.reverse) := by
    simp [path]
  have hidentifier : ∀ c ∈ identifier.reverse, (c != ':') = true := by
    intro c hc
    obtain ⟨d, hd, rfl⟩ := List.mem_map.1 (List.mem_reverse.1 hc)
    rw [bne_iff_ne]
    intro hcolon
    exact absurd (hcolon ▸ Lint.isCapital_toUpper (h d hd)) (by decide)
  have hcolon : ∀ c ∈ (':' :: ':' :: lint.module.toList.reverse).head?, ¬ (c != ':') = true := by
    simp
  have hmodule : (':' :: ':' :: lint.module.toList.reverse).reverse.dropSuffix? [':', ':'] =
      some lint.module.toList :=
    List.dropSuffix?_eq_some_iff.2 ⟨[':', ':'], by simp, rfl⟩
  rw [readPath?, hprefix]
  simp only [Option.bind_eq_bind, Option.bind_some, hsuffix]
  rw [hpath, takeWhile_span hidentifier hcolon, dropWhile_span hidentifier hcolon, hmodule]
  simp [Lint.registered, identifier]

/-! ## The sentence -/

def readSentence? (line : String) : Option Nat := do
  let rest ← line.toList.dropPrefix? "There are ".toList
  let rest ← rest.dropSuffix? " lints included in this crate:\n".toList
  let (count, rest) ← Json.readNumber rest
  if rest = [] then return count else none

theorem readSentence?_countSentence (n : Nat) : readSentence? (countSentence n) = some n := by
  have hend : " lints included in this crate:".toList ++ ['\n'] =
      " lints included in this crate:\n".toList := rfl
  have hprefix : (countSentence n).toList.dropPrefix? "There are ".toList =
      some (Nat.toDigits 10 n ++ " lints included in this crate:\n".toList) := by
    rw [toList_countSentence, List.append_assoc, List.append_assoc, hend]
    exact List.dropPrefix?_eq_some_iff.2 ⟨_, rfl, beq_self_eq_true _⟩
  have hsuffix : (Nat.toDigits 10 n ++ " lints included in this crate:\n".toList).dropSuffix?
      " lints included in this crate:\n".toList = some (Nat.toDigits 10 n) :=
    List.dropSuffix?_eq_some_iff.2 ⟨_, rfl, beq_self_eq_true _⟩
  have hread : Json.readNumber (Nat.toDigits 10 n) = some (n, []) := by
    rw [← List.append_nil (Nat.toDigits 10 n)]
    exact Json.readNumber_toDigits n (by simp)
  rw [readSentence?, hprefix]
  simp only [Option.bind_eq_bind, Option.bind_some, hsuffix, hread, if_true]
  rfl

end Listing

end LintLedger
