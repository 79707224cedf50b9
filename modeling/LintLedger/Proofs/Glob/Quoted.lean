import LintLedger.Collection
import LintLedger.Proofs.Path.Place

/-!
# Patterns around a quoted text

A quoted text in a file name pattern is read as tokens that match the text itself and nothing
else, whatever its characters mean elsewhere in a pattern. The pattern for the files with an
extension below a directory is such a text, any directories, and a name with an end of its own; it
is read without a fault.
-/

namespace LintLedger.Glob

/-! ## Reading -/

/-- The token that a quoted character is read as. -/
def literally (c : Char) : Token :=
  if c ∈ ['?', '*', '[', ']'] then .within [(c, c)] else .char c

/-- Characters that are read as some tokens wherever they stand, whatever follows them. -/
def Reads (cs : List Char) (ts : List Token) : Prop :=
  ∀ (position : Nat) (before : Option Char) (rest : List Char), ∃ position' before',
    readTokens position 0 before (cs ++ rest) =
      (readTokens position' 0 before' rest).map (ts ++ ·)

theorem Reads.nil : Reads [] [] := by
  intro position before rest
  refine ⟨position, before, ?_⟩
  rw [List.nil_append]
  cases readTokens position 0 before rest <;> rfl

theorem Reads.append {cs cs' : List Char} {ts ts' : List Token} (h : Reads cs ts)
    (h' : Reads cs' ts') : Reads (cs ++ cs') (ts ++ ts') := by
  intro position before rest
  obtain ⟨position₁, before₁, h₁⟩ := h position before (cs' ++ rest)
  obtain ⟨position₂, before₂, h₂⟩ := h' position₁ before₁ rest
  refine ⟨position₂, before₂, ?_⟩
  rw [List.append_assoc, h₁, h₂]
  cases readTokens position₂ 0 before₂ rest <;> simp [Except.map]

theorem Reads.readTokens {cs : List Char} {ts : List Token} (h : Reads cs ts) :
    Glob.readTokens 0 0 none cs = .ok ts := by
  obtain ⟨position, before, hread⟩ := h 0 none []
  simpa [Glob.readTokens, Except.map] using hread

theorem readTokens_plain {c : Char} (h : c ∉ ['?', '*', '[']) (position : Nat)
    (before : Option Char) (cs : List Char) :
    readTokens position 0 before (c :: cs) =
      (readTokens (position + 1) 0 (some c) cs).map (.char c :: ·) := by
  simp only [List.mem_cons, List.not_mem_nil, or_false, not_or] at h
  obtain ⟨hany, hstar, hbracket⟩ := h
  rw [readTokens]
  · cases readTokens (position + 1) 0 (some c) cs <;> rfl
  · exact hany
  · exact hstar
  · exact hbracket

theorem readTokens_stars {position n : Nat} {before : Option Char} {cs : List Char} {t : Token}
    (h : readStars position before cs = .ok (t, n)) :
    readTokens position 0 before ('*' :: cs) =
      (readTokens (position + 1) n (some '*') cs).map (t :: ·) := by
  simp only [readTokens, h, bind, Except.bind]
  cases readTokens (position + 1) n (some '*') cs <;> rfl

theorem reads_char {c : Char} (h : c ∉ ['?', '*', '[']) : Reads [c] [.char c] := by
  intro position before rest
  exact ⟨position + 1, some c, readTokens_plain h position before rest⟩

theorem reads_bracketed {c : Char} (h : c ≠ '!') : Reads ['[', c, ']'] [.within [(c, c)]] := by
  intro position before rest
  refine ⟨position + 3, some ']', ?_⟩
  have hbracket : readBracket? (c :: ']' :: rest) = some (.within [(c, c)], 2) := by
    unfold readBracket?
    split
    · next heq =>
        obtain ⟨rfl, -⟩ := List.cons.inj heq
        exact (h rfl).elim
    · simp [bracketed?, readRanges]
  simp only [List.cons_append, List.nil_append, readTokens, hbracket]
  cases readTokens (position + 1 + 1 + 1) 0 (some ']') rest <;> rfl

theorem reads_quoteChar (c : Char) : Reads (quoteChar c) [literally c] := by
  by_cases h : c ∈ ['?', '*', '[', ']']
  · rw [quoteChar, if_pos h, literally, if_pos h]
    apply reads_bracketed
    rintro rfl
    exact absurd h (by decide)
  · rw [quoteChar, if_neg h, literally, if_neg h]
    apply reads_char
    intro hmem
    exact h (by simp_all)

theorem reads_plain {cs : List Char} (h : ∀ c ∈ cs, c ∉ ['?', '*', '[']) :
    Reads cs (cs.map .char) := by
  induction cs with
  | nil => exact .nil
  | cons c cs ih =>
      exact (reads_char (h c List.mem_cons_self)).append
        (ih fun other hother => h other (List.mem_cons_of_mem c hother))

theorem reads_quoted (cs : List Char) : Reads (cs.flatMap quoteChar) (cs.map literally) := by
  induction cs with
  | nil => exact .nil
  | cons c cs ih => exact (reads_quoteChar c).append ih

/-- Any directories, as a component of its own. -/
theorem reads_directories : Reads ['/', '*', '*', '/'] [.char '/', .anyDirectories] := by
  intro position before rest
  refine ⟨position + 4, some '/', ?_⟩
  have hstars : readStars (position + 1) (some '/') ('*' :: '/' :: rest) =
      .ok (.anyDirectories, 2) := by
    simp [readStars]
  have hslash : '/' ∉ ['?', '*', '['] := by decide
  simp only [List.cons_append, List.nil_append]
  rw [readTokens_plain hslash, readTokens_stars hstars, readTokens, readTokens]
  cases readTokens (position + 4) 0 (some '/') rest <;> simp [Except.map]

/-- Any beginning of a name, up to a dot. -/
theorem reads_star : Reads ['*', '.'] [.anySequence, .char '.'] := by
  intro position before rest
  refine ⟨position + 2, some '.', ?_⟩
  have hstar : readStars position before ('.' :: rest) = .ok (.anySequence, 0) := by
    simp [readStars]
  have hdot : '.' ∉ ['?', '*', '['] := by decide
  simp only [List.cons_append, List.nil_append]
  rw [readTokens_stars hstar, readTokens_plain hdot]
  cases readTokens (position + 2) 0 (some '.') rest <;> simp [Except.map]

/-! ## Routes -/

def quotedSegment (piece : List Char) : Segment :=
  .ofTokens (piece.map literally)

def suffixTokens (extension : List Char) : List Token :=
  .anySequence :: .char '.' :: extension.map .char

theorem flatMap_intercalate_slash (pieces : List (List Char)) :
    (['/'].intercalate pieces).flatMap quoteChar =
      ['/'].intercalate (pieces.map (·.flatMap quoteChar)) := by
  induction pieces with
  | nil => rfl
  | cons piece pieces ih =>
      cases pieces with
      | nil => simp
      | cons next pieces =>
          have hslash : quoteChar '/' = ['/'] := rfl
          rw [List.intercalate_cons_cons, List.flatMap_append, List.flatMap_append, ih,
            List.map_cons, List.map_cons, List.map_cons, List.intercalate_cons_cons]
          simp [hslash]

theorem slash_not_mem_flatMap {piece : List Char} (h : '/' ∉ piece) :
    '/' ∉ piece.flatMap quoteChar := by
  intro hmem
  obtain ⟨c, hc, hslash⟩ := List.mem_flatMap.1 hmem
  have hne : c ≠ '/' := by
    rintro rfl
    exact h hc
  unfold quoteChar at hslash
  split at hslash <;> simp [hne.symm] at hslash

/-- Quoting changes nothing about where the slashes are. -/
theorem splitOn_flatMap_quoteChar (cs : List Char) :
    (cs.flatMap quoteChar).splitOn '/' = (cs.splitOn '/').map (·.flatMap quoteChar) := by
  have hpieces : ∀ piece ∈ (cs.splitOn '/').map (·.flatMap quoteChar), '/' ∉ piece := by
    intro piece hpiece
    obtain ⟨part, hpart, rfl⟩ := List.mem_map.1 hpiece
    exact slash_not_mem_flatMap fun hslash => (Path.of_mem_splitOn hpart hslash).2 rfl
  have hne : (cs.splitOn '/').map (·.flatMap quoteChar) ≠ [] := by
    simp [List.splitOn_ne_nil]
  have hjoin : cs.flatMap quoteChar =
      ['/'].intercalate ((cs.splitOn '/').map (·.flatMap quoteChar)) := by
    rw [← flatMap_intercalate_slash, List.intercalate_splitOn]
  rw [hjoin, List.splitOn_intercalate '/' hpieces hne]

theorem mapM_map_ok {α β γ ε : Type} {f : β → Except ε γ} {k : α → β} {g : α → γ} {xs : List α}
    (h : ∀ x ∈ xs, f (k x) = .ok (g x)) : (xs.map k).mapM f = .ok (xs.map g) := by
  induction xs with
  | nil => rfl
  | cons x xs ih =>
      have hx := h x List.mem_cons_self
      have hxs := ih fun other hother => h other (List.mem_cons_of_mem x hother)
      rw [List.map_cons, List.mapM_cons, hx, hxs]
      rfl

def readSegment (piece : List Char) : Except Fault Segment := do
  return .ofTokens (← readTokens 0 0 none piece)

theorem readSegment_of_reads {piece : List Char} {ts : List Token} (h : Reads piece ts) :
    readSegment piece = .ok (.ofTokens ts) := by
  rw [readSegment, h.readTokens]
  rfl

theorem readSegment_stars : readSegment ['*', '*'] = .ok .directories := by
  have hstars : readTokens 0 0 none ['*', '*'] = .ok [.anyDirectories] := by
    simp [readTokens, readStars, bind, Except.bind, pure, Except.pure]
  rw [readSegment, hstars]
  rfl

section

variable {base : Path} {cs : List Char} {extension : String}

theorem toList_globText (hbase : base.text.toList = '/' :: cs) :
    (Collection.globText base extension).toList =
      '/' :: (cs.flatMap quoteChar ++
        '/' :: (['*', '*'] ++ '/' :: '*' :: '.' :: extension.toList)) := by
  have hslash : quoteChar '/' = ['/'] := rfl
  simp [Collection.globText, quote, hbase, hslash]

theorem split_quoted (h : '/' ∉ extension.toList) :
    Route.split (cs.flatMap quoteChar ++
        '/' :: (['*', '*'] ++ '/' :: '*' :: '.' :: extension.toList)) =
      (cs.splitOn '/').map (·.flatMap quoteChar) ++
        [['*', '*'], '*' :: '.' :: extension.toList] := by
  have hstars : ['*', '*'].splitOn '/' = [['*', '*']] := Path.splitOn_of_not_mem (by decide)
  have hname : ('*' :: '.' :: extension.toList).splitOn '/' = ['*' :: '.' :: extension.toList] :=
    Path.splitOn_of_not_mem (by simp [h])
  unfold Route.split
  rw [Path.splitOn_append_slash, Path.splitOn_append_slash, hstars, hname,
    splitOn_flatMap_quoteChar]
  simp

theorem getLast?_globText (hbase : base.text.toList = '/' :: cs) (h : '/' ∉ extension.toList) :
    (Collection.globText base extension).toList.getLast? ≠ some '/' := by
  have hend : (Collection.globText base extension).toList =
      ('/' :: cs.flatMap quoteChar ++ ['/', '*', '*', '/', '*']) ++ '.' :: extension.toList := by
    rw [toList_globText hbase]
    simp
  intro hslash
  rw [hend, List.getLast?_append_of_ne_nil _ (List.cons_ne_nil _ _)] at hslash
  have hmem := List.mem_of_getLast? hslash
  exact h (by simpa using hmem)

/-- The pattern for the files with an extension below a directory, component by component. -/
theorem ofText_globText (hbase : base.text.toList = '/' :: cs)
    (hextension : ∀ c ∈ extension.toList, c ∉ ['*', '?', '[', '/']) :
    Route.ofText (Collection.globText base extension) =
      .ok ⟨(cs.splitOn '/').map quotedSegment ++
        [.directories, .ofTokens (suffixTokens extension.toList)], false⟩ := by
  have htext := @toList_globText base cs extension hbase
  have hslash : '/' ∉ extension.toList := fun hmem => hextension '/' hmem (by decide)
  have hsubset : ['?', '*', '['] ⊆ ['*', '?', '[', '/'] := by decide
  have hname : Reads ('*' :: '.' :: extension.toList) (suffixTokens extension.toList) :=
    reads_star.append (reads_plain fun c hc hmem => hextension c hc (hsubset hmem))
  have hwhole := ((reads_quoted ('/' :: cs)).append (reads_directories.append hname)).readTokens
  have htext' : (Collection.globText base extension).toList = ('/' :: cs).flatMap quoteChar ++
      (['/', '*', '*', '/'] ++ '*' :: '.' :: extension.toList) := by
    simp [htext, quoteChar]
  have hpieces : ((cs.splitOn '/').map (·.flatMap quoteChar)).mapM readSegment =
      .ok ((cs.splitOn '/').map quotedSegment) :=
    mapM_map_ok fun piece _ => readSegment_of_reads (reads_quoted piece)
  have hsegments : ((cs.splitOn '/').map (·.flatMap quoteChar) ++
      [['*', '*'], '*' :: '.' :: extension.toList]).mapM readSegment =
      .ok ((cs.splitOn '/').map quotedSegment ++
        [.directories, .ofTokens (suffixTokens extension.toList)]) := by
    rw [List.mapM_append, hpieces, List.mapM_cons, List.mapM_cons, readSegment_stars,
      readSegment_of_reads hname]
    rfl
  have hlast : ((Collection.globText base extension).toList.getLast? == some '/') = false := by
    simpa using getLast?_globText hbase hslash
  unfold Route.ofText
  rw [hlast, htext', hwhole, ← htext', htext]
  simp only [split_quoted hslash]
  change (do return Route.mk (← List.mapM readSegment _) false) = _
  rw [hsegments]
  rfl

end

/-! ## Matching -/

theorem inRanges_single (c d : Char) : inRanges [(c, c)] d ↔ d = c := by
  simp only [inRanges, List.any_cons, List.any_nil, Bool.or_false, Bool.and_eq_true,
    decide_eq_true_eq]
  constructor
  · intro h
    exact Char.le_antisymm h.2 h.1
  · rintro rfl
    exact ⟨Char.le_refl d, Char.le_refl d⟩

/-- Tokens that stand for one character each match the text of these characters. -/
theorem matchesName_map {f : Char → Token} (hf : ∀ c, f c = .char c ∨ f c = .within [(c, c)])
    (piece cs : List Char) : matchesName (piece.map f) cs ↔ cs = piece := by
  induction piece generalizing cs with
  | nil => simp [matchesName]
  | cons c piece ih =>
      cases cs with
      | nil => rcases hf c with hc | hc <;> simp [hc, matchesName]
      | cons d cs =>
          rcases hf c with hc | hc
          · rw [List.map_cons, hc, matchesName, Bool.and_eq_true, beq_iff_eq, ih, List.cons.injEq,
              eq_comm]
          · rw [List.map_cons, hc, matchesName, Bool.and_eq_true, inRanges_single, ih,
              List.cons.injEq]

theorem literally_cases (c : Char) : literally c = .char c ∨ literally c = .within [(c, c)] := by
  unfold literally
  split
  · exact .inr rfl
  · exact .inl rfl

theorem mem_suffixes {cs part : List Char} : part ∈ suffixes cs ↔ part <:+ cs := by
  induction cs with
  | nil => simp [suffixes]
  | cons c cs ih => rw [suffixes, List.mem_cons, ih, List.suffix_cons_iff]

/-- The tokens for an extension match the names that end with a dot and the extension. -/
theorem matchesName_suffixTokens (extension cs : List Char) :
    matchesName (suffixTokens extension) cs ↔ ∃ front, cs = front ++ '.' :: extension := by
  have hend : ∀ part, matchesName (.char '.' :: extension.map .char) part ↔
      part = '.' :: extension :=
    matchesName_map (fun _ => .inl rfl) ('.' :: extension)
  rw [suffixTokens, matchesName, List.any_eq_true]
  simp only [mem_suffixes, hend, exists_eq_right]
  constructor
  · rintro ⟨front, hfront⟩
    exact ⟨front, hfront.symm⟩
  · rintro ⟨front, hfront⟩
    exact ⟨front, hfront.symm⟩

theorem ofTokens_suffixTokens (extension : List Char) :
    Segment.ofTokens (suffixTokens extension) = .wild (suffixTokens extension) := by
  simp [Segment.ofTokens, suffixTokens, Token.char?]

theorem eq_of_mapM_char? {piece cs : List Char}
    (h : (piece.map literally).mapM Token.char? = some cs) : cs = piece := by
  induction piece generalizing cs with
  | nil => simpa using h.symm
  | cons c piece ih =>
      rcases literally_cases c with hc | hc
      · cases hrest : (piece.map literally).mapM Token.char? with
        | none => simp [hc, hrest, Token.char?] at h
        | some cs' =>
            rw [ih hrest] at hrest
            simpa [hc, hrest, Token.char?] using h.symm
      · simp [hc, Token.char?] at h

/-- A quoted piece is gone to directly, or compared with names by tokens for it alone. -/
theorem quotedSegment_cases (piece : List Char) :
    quotedSegment piece = .literal (String.ofList piece) ∨
      quotedSegment piece = .wild (piece.map literally) ∧ piece ≠ [] := by
  have hnone : piece.map literally ≠ [.anyDirectories] := by
    intro h
    obtain ⟨c, cs, -, hc, -⟩ := List.map_eq_cons_iff.1 h
    rcases literally_cases c with hc' | hc' <;> simp [hc'] at hc
  unfold quotedSegment Segment.ofTokens
  rw [if_neg hnone]
  split
  · next cs hcs => exact .inl (congrArg _ (congrArg _ (eq_of_mapM_char? hcs)))
  · next hcs =>
      refine .inr ⟨rfl, ?_⟩
      rintro rfl
      simp at hcs

theorem dotNames_literally {piece : List Char} (hhere : piece ≠ ['.'])
    (hup : piece ≠ ['.', '.']) : dotNames (piece.map literally) = [] := by
  unfold dotNames
  split
  · simp [matchesName_map literally_cases, hhere.symm, hup.symm]
  · rfl

end LintLedger.Glob
