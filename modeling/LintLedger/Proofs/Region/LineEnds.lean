import LintLedger.Proofs.Region.Layout
import LintLedger.Proofs.Text.Lines

/-!
# Line ends

A line can end in a line feed, or in a carriage return and a line feed. What a delimiter is shown
of a line is the same either way, so the regions of a text are the same either way: the generated
lines stand between the same lines, which end as they did.
-/

namespace LintLedger

namespace Text

/-! ## Texts with carriage returns -/

/-- A character, with a carriage return in front if it is a line feed. -/
def returned (c : Char) : List Char :=
  if c = '\n' then ['\r', '\n'] else [c]

/-- The text with a carriage return in front of every line feed. -/
def withReturns (text : String) : String :=
  String.ofList (text.toList.flatMap returned)

/-- Whether two lines are the same but for the carriage return in the line end of the second. A line
without a line feed has no line end. -/
def SameButReturn (line line' : String) : Prop :=
  (∃ cs, '\n' ∉ cs ∧ line.toList = cs ++ ['\n'] ∧ line'.toList = cs ++ ['\r', '\n']) ∨
    '\n' ∉ line.toList ∧ line' = line

theorem toList_withReturns (text : String) :
    (withReturns text).toList = text.toList.flatMap returned := by
  simp [withReturns]

theorem flatMap_returned {cs : List Char} (h : '\n' ∉ cs) : cs.flatMap returned = cs := by
  have hsame : ∀ c ∈ cs, returned c = [c] := by
    intro c hc
    have hne : c ≠ '\n' := by
      rintro rfl
      exact h hc
    rw [returned, if_neg hne]
  rw [List.flatMap_congr hsame, List.flatMap_singleton']

theorem sameButReturn_withReturns {lines : List String} (h : WellSplit lines) {line : String}
    (hline : line ∈ lines) : SameButReturn line (withReturns line) := by
  have hends : Terminated line ∨ '\n' ∉ line.toList := by
    induction h with
    | nil => cases hline
    | last _ hnot =>
        rw [List.mem_singleton.1 hline]
        exact .inr hnot
    | cons hfirst _ ih =>
        rcases List.mem_cons.1 hline with rfl | hline
        · exact .inl hfirst
        · exact ih hline
  rcases hends with ⟨cs, hcs, htext⟩ | hnot
  · left
    refine ⟨cs, hcs, htext, ?_⟩
    rw [toList_withReturns, htext, List.flatMap_append, flatMap_returned hcs]
    rfl
  · right
    refine ⟨hnot, ?_⟩
    rw [withReturns, flatMap_returned hnot, String.ofList_toList]

/-- Carriage returns do not move the places where a text is cut. -/
theorem chunks_returned (cs : List Char) :
    chunks (cs.flatMap returned) = (chunks cs).map (·.flatMap returned) := by
  induction cs with
  | nil => rfl
  | cons c cs ih =>
      by_cases hc : c = '\n'
      · rw [hc]
        change chunks ('\r' :: '\n' :: cs.flatMap returned) = _
        simp [chunks, ih, returned]
      · have hcons : (c :: cs).flatMap returned = c :: cs.flatMap returned := by
          simp [returned, hc]
        rw [hcons, chunks, if_neg hc, chunks, if_neg hc, ih]
        cases chunks cs with
        | nil => simp [returned, hc]
        | cons piece pieces => simp [returned, hc]

theorem splitLines_withReturns (text : String) :
    splitLines (withReturns text) = (splitLines text).map withReturns := by
  rw [splitLines, toList_withReturns, chunks_returned, splitLines, List.map_map, List.map_map]
  apply List.map_congr_left
  intro piece _
  simp [withReturns]

/-- The content of a line without a carriage return of its own is not changed by one in its line
end. -/
theorem SameButReturn.content_eq {line line' : String} (h : SameButReturn line line')
    (hreturn : '\r' ∉ line.toList) : content line' = content line := by
  rcases h with ⟨cs, -, hline, hline'⟩ | ⟨-, rfl⟩
  · have hlast : dropFinal '\r' cs = cs := by
      have hcs : '\r' ∉ cs := fun hmem => hreturn (by simp [hline, hmem])
      rw [dropFinal, if_neg fun hlast => hcs (List.mem_of_getLast? hlast)]
    have hsplit : line'.toList = cs ++ ['\r'] ++ ['\n'] := by simp [hline']
    rw [Text.content_eq hline, Text.content_eq hsplit, dropFinal_concat, if_pos rfl, hlast]
  · rfl

end Text

namespace Region

open Text

/-! ## Lines spelled anew -/

/-- A line of a result: one that was generated, or one of the lines that were there before. -/
inductive Piece where
  | generated (line : String)
  | kept (line : String)

namespace Piece

/-- The line, where lines that were there before are spelled anew. -/
def spelled (spell : String → String) : Piece → String
  | generated line => line
  | kept line => spell line

def generated? : Piece → Option String
  | generated line => some line
  | kept _ => none

def kept? : Piece → Option String
  | generated _ => none
  | kept line => some line

end Piece

/-- Whether the delimiters do not see that lines are spelled anew. -/
def Unseen (r : Region) (spell : String → String) (lines : List String) : Prop :=
  ∀ line ∈ lines, r.opens (spell line) = r.opens line ∧ r.closes (spell line) = r.closes line

variable {r : Region} {spell : String → String} {generate : Nat → List String}

namespace Closed

def map (spell : String → String) (c : Closed) : Closed :=
  ⟨c.before.map spell, spell c.opening, c.body.map spell, spell c.closing⟩

/-- The pieces of the region with generated lines between its delimiters. -/
def pieces (r : Region) (generated : List String) (c : Closed) : List Piece :=
  (c.before ++ r.kept c.opening).map .kept ++ generated.map .generated ++ [.kept c.closing]

theorem lines_map (c : Closed) : (c.map spell).lines = c.lines.map spell := by
  simp [map, lines]

theorem filled_map (generated : List String) (c : Closed) :
    (c.map spell).filled r generated = (c.pieces r generated).map (Piece.spelled spell) := by
  have hkept : r.kept (spell c.opening) = (r.kept c.opening).map spell := by
    unfold kept
    split <;> rfl
  simp [filled, map, pieces, hkept, Function.comp_def, Piece.spelled]

theorem filterMap_generated?_pieces (generated : List String) (c : Closed) :
    (c.pieces r generated).filterMap Piece.generated? = generated := by
  simp [pieces, List.filterMap_map, Function.comp_def, Piece.generated?]

theorem filterMap_kept?_pieces (generated : List String) (c : Closed) :
    ((c.pieces r generated).filterMap Piece.kept?).Sublist c.lines := by
  have hopening : (r.kept c.opening).Sublist [c.opening] := by
    unfold kept
    split <;> simp
  have hkept : (c.pieces r generated).filterMap Piece.kept? =
      c.before ++ (r.kept c.opening ++ [c.closing]) := by
    simp [pieces, List.filterMap_map, Function.comp_def, Piece.kept?]
  have hlines : c.lines = c.before ++ ([c.opening] ++ (c.body ++ [c.closing])) := by
    simp [lines]
  rw [hkept, hlines]
  exact (hopening.append (List.sublist_append_right c.body _)).append_left c.before

theorem Fits.map {c : Closed} (hc : c.Fits r) (h : r.Unseen spell c.lines) :
    (c.map spell).Fits r where
  before := by
    intro line hline
    obtain ⟨old, hold, rfl⟩ := List.mem_map.1 hline
    rw [(h old (by simp [lines, hold])).1]
    exact hc.before old hold
  opening := by
    rw [Closed.map, (h c.opening (by simp [lines])).1]
    exact hc.opening
  body := by
    intro line hline
    obtain ⟨old, hold, rfl⟩ := List.mem_map.1 hline
    rw [(h old (by simp [lines, hold])).2]
    exact hc.body old hold
  closing := by
    rw [Closed.map, (h c.closing (by simp [lines])).2]
    exact hc.closing

end Closed

namespace Layout

def map (spell : String → String) (f : Layout) : Layout :=
  ⟨f.closed.map (Closed.map spell), f.rest.map spell,
    f.unclosed.map fun (opening, body) => (spell opening, body.map spell)⟩

/-- The pieces of the lines with every closed region filled anew, region `k` with `generate k`. -/
def pieces (f : Layout) (r : Region) (generate : Nat → List String) : List Piece :=
  (f.closed.zipIdx.flatMap fun (c, k) => c.pieces r (generate k)) ++ f.rest.map .kept

variable {f : Layout} {lines : List String}

theorem complete_map (f : Layout) : (f.map spell).complete = f.complete.map spell := by
  simp [map, complete, List.flatMap_map, List.map_flatMap, Closed.lines_map]

theorem lines_map (f : Layout) : (f.map spell).lines = f.lines.map spell := by
  rw [Layout.lines, complete_map, Layout.lines, List.map_append]
  congr 1
  cases hunclosed : f.unclosed with
  | none => simp [map, hunclosed]
  | some pair => simp [map, hunclosed]

theorem Fits.map (hf : f.Fits r lines) (h : r.Unseen spell lines) :
    (f.map spell).Fits r (lines.map spell) := by
  rw [← hf.lines_eq] at h
  have hcomplete : ∀ line ∈ f.complete, line ∈ f.lines :=
    fun line hline => List.mem_append_left _ hline
  refine ⟨by rw [lines_map, hf.lines_eq], ?_, ?_, ?_, ?_⟩
  · intro c hc
    obtain ⟨old, hold, rfl⟩ := List.mem_map.1 hc
    refine (hf.closed old hold).map fun line hline => h line (hcomplete line ?_)
    exact List.mem_append_left _ (List.mem_flatMap.2 ⟨old, hold, hline⟩)
  · intro line hline
    obtain ⟨old, hold, rfl⟩ := List.mem_map.1 hline
    rw [(h old (hcomplete old (List.mem_append_right _ hold))).1]
    exact hf.rest old hold
  · intro opening body hunclosed
    obtain ⟨⟨first, others⟩, hpair, heq⟩ := Option.map_eq_some_iff.1 hunclosed
    obtain ⟨rfl, rfl⟩ := Prod.mk.inj heq
    rw [(h first (by simp [Layout.lines, hpair])).1]
    exact hf.opening first others hpair
  · intro opening body hunclosed line hline
    obtain ⟨⟨first, others⟩, hpair, heq⟩ := Option.map_eq_some_iff.1 hunclosed
    obtain ⟨rfl, rfl⟩ := Prod.mk.inj heq
    obtain ⟨old, hold, rfl⟩ := List.mem_map.1 hline
    rw [(h old (by simp [Layout.lines, hpair, hold])).2]
    exact hf.unclosed first others hpair old hold

theorem filled_map (f : Layout) :
    (f.map spell).filled r generate = (f.pieces r generate).map (Piece.spelled spell) := by
  simp [filled, pieces, map, List.zipIdx_map, List.flatMap_map, List.map_flatMap,
    Closed.filled_map, Function.comp_def, Piece.spelled]

theorem filterMap_generated?_pieces (f : Layout) :
    (f.pieces r generate).filterMap Piece.generated? =
      (List.range f.closed.length).flatMap generate := by
  have hindices : f.closed.zipIdx.map Prod.snd = List.range f.closed.length := by
    rw [List.zipIdx_map_snd, List.range_eq_range']
  rw [← hindices, List.flatMap_map, pieces, List.filterMap_append, List.filterMap_flatMap]
  simp [Closed.filterMap_generated?_pieces, List.filterMap_map, Function.comp_def,
    Piece.generated?]

/-- What is kept of closed regions stood there, in this order. -/
private theorem kept_sublist (generate : Nat → List String) (cs : List Closed) (first : Nat) :
    ((cs.zipIdx first).flatMap fun (c, k) =>
      (c.pieces r (generate k)).filterMap Piece.kept?).Sublist (cs.flatMap Closed.lines) := by
  induction cs generalizing first with
  | nil => simp
  | cons c cs ih =>
      rw [List.zipIdx_cons, List.flatMap_cons, List.flatMap_cons]
      exact (Closed.filterMap_kept?_pieces (generate first) c).append (ih (first + 1))

theorem filterMap_kept?_pieces (f : Layout) :
    ((f.pieces r generate).filterMap Piece.kept?).Sublist f.lines := by
  have hrest : (f.rest.map Piece.kept).filterMap Piece.kept? = f.rest := by
    simp [List.filterMap_map, Function.comp_def, Piece.kept?]
  rw [pieces, List.filterMap_append, List.filterMap_flatMap, hrest]
  have hcomplete := (kept_sublist (r := r) generate f.closed 0).append_right f.rest
  exact hcomplete.trans (List.sublist_append_left f.complete _)

end Layout

/-- Lines are generated anew piece by piece: whichever way they are spelled, if the delimiters do
not see it, the same regions get the same lines, and what is kept is spelled as it was. -/
theorem regenerate_map {lines : List String} (h : r.Unseen spell lines)
    (generate : Nat → List String) :
    ∃ f : Layout, f.Fits r lines ∧
      r.regenerate generate (lines.map spell) =
        ⟨f.closed.length,
          match f.unclosed with
          | none => .ok ((f.pieces r generate).map (Piece.spelled spell))
          | some _ => .error (f.complete.length + 1)⟩ := by
  obtain ⟨f, hf⟩ := exists_fits r lines
  refine ⟨f, hf, ?_⟩
  rw [regenerate_layout r generate (hf.map h), Layout.outcome, Layout.filled_map,
    Layout.complete_map]
  simp only [Layout.map, List.length_map, Outcome.mk.injEq, true_and]
  cases f.unclosed <;> rfl

/-! ## Carriage returns -/

/-- No delimiter sees a carriage return in a line end. -/
theorem unseen_withReturns (r : Region) {text : String} (h : '\r' ∉ text.toList) :
    r.Unseen withReturns (splitLines text) := by
  intro line hline
  have hreturn : '\r' ∉ line.toList := by
    intro hmem
    rw [← join_splitLines text, String.toList_join, List.mem_flatMap] at h
    exact h ⟨line, hline, hmem⟩
  have hcontent : content (withReturns line) = content line :=
    (sameButReturn_withReturns (wellSplit_splitLines text) hline).content_eq hreturn
  rw [opens, opens, closes, closes, hcontent]
  exact ⟨rfl, rfl⟩

/-- Generating the regions of a text anew does not depend on how its lines end. With carriage
returns in the line ends as many regions are closed, and the line that opens a region that is never
closed has the same number. Otherwise the two results are piece by piece the same: a generated line,
in the order in which they were generated, or a line of the text, whose line end, if it has one, is
with a carriage return in the one and without in the other. -/
theorem regenerate_withReturns (r : Region) (generate : Nat → List String) {text : String}
    (h : '\r' ∉ text.toList) :
    let feeds := r.regenerate generate (splitLines text)
    let returns := r.regenerate generate (splitLines (withReturns text))
    returns.closed = feeds.closed ∧
      ((∃ number, feeds.result = .error number ∧ returns.result = .error number) ∨
        ∃ pieces : List Piece,
          feeds.result = .ok (pieces.map (Piece.spelled id)) ∧
          returns.result = .ok (pieces.map (Piece.spelled withReturns)) ∧
          pieces.filterMap Piece.generated? = (List.range feeds.closed).flatMap generate ∧
          (pieces.filterMap Piece.kept?).Sublist (splitLines text) ∧
          ∀ line ∈ splitLines text, SameButReturn line (withReturns line)) := by
  intro feeds returns
  have hsame : r.Unseen id (splitLines text) := fun _ _ => ⟨rfl, rfl⟩
  obtain ⟨f, hf, hfeeds⟩ := regenerate_map hsame generate
  obtain ⟨g, hg, hreturns⟩ := regenerate_map (unseen_withReturns r h) generate
  obtain rfl := fits_unique hg hf
  rw [List.map_id] at hfeeds
  rw [← splitLines_withReturns] at hreturns
  simp only [feeds, returns, hfeeds, hreturns, true_and]
  cases hunclosed : g.unclosed with
  | some _ => exact .inl ⟨_, rfl, rfl⟩
  | none =>
      refine .inr ⟨g.pieces r generate, rfl, rfl, g.filterMap_generated?_pieces, ?_, ?_⟩
      · rw [← hf.lines_eq]
        exact g.filterMap_kept?_pieces
      · exact fun line hline => sameButReturn_withReturns (wellSplit_splitLines text) hline

/-- Regions that go up to a line without content. -/
private def untilBlank : Region :=
  ⟨⟨"B", .chain [.literal 'B']⟩, ⟨"^$", .chain [.anchor .textStart, .anchor .textEnd]⟩, false⟩

theorem regenerate_withReturns_untilBlank :
    let feeds := untilBlank.regenerate (fun _ => ["x\n"]) (splitLines "B\na\n\nend")
    let returns := untilBlank.regenerate (fun _ => ["x\n"]) (splitLines "B\r\na\r\n\r\nend")
    feeds.result = .ok ["B\n", "x\n", "\n", "end"] ∧
      ∃ pieces : List Piece,
        ["B\n", "x\n", "\n", "end"] = pieces.map (Piece.spelled id) ∧
        returns.result = .ok (pieces.map (Piece.spelled withReturns)) ∧
        pieces.filterMap Piece.generated? = ["x\n"] := by
  intro feeds returns
  have hfeeds : feeds.result = .ok ["B\n", "x\n", "\n", "end"] := by decide +kernel
  have hclosed : feeds.closed = 1 := by decide +kernel
  have htext : withReturns "B\na\n\nend" = "B\r\na\r\n\r\nend" := by decide +kernel
  obtain ⟨-, hresults⟩ := @regenerate_withReturns untilBlank (fun _ => ["x\n"]) "B\na\n\nend"
    (by decide +kernel)
  rw [htext] at hresults
  refine ⟨hfeeds, ?_⟩
  rcases hresults with ⟨number, herror, -⟩ | ⟨pieces, hplain, hspelled, hgenerated, -⟩
  · exact absurd (hfeeds.symm.trans herror) (by simp)
  · refine ⟨pieces, Except.ok.inj (hfeeds.symm.trans hplain), hspelled, ?_⟩
    rw [hgenerated]
    change (List.range feeds.closed).flatMap _ = _
    rw [hclosed]
    rfl

end Region

end LintLedger
