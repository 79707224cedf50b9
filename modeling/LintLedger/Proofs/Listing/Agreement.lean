import LintLedger.Proofs.Declaration.Extract
import LintLedger.Proofs.Listing.Arranged
import LintLedger.Update

/-!
# What the listings tell

The table, the document and the group, taken apart again, tell the same of every lint, none is lost
and none stands twice, and all numbers are the number of the lints. The identifier of a lint that
was found in a text is the one that is declared there, since its name is lowered for the table and
raised again for the group.
-/

namespace LintLedger

namespace Listing

/-- Whether the listings of some lints tell the same of them. -/
structure Agreement (lints : List Lint) : Prop where
  /-- The table and the document show all lints in one order. -/
  shown : ∃ sorted, InNameOrder lints sorted ∧
    ((table lints).drop 2).map readRow? = sorted.map (fun lint => some lint.shown) ∧
    readLints? (Report.tableDocument lints) = some sorted
  registered : ∃ entries : List (String × String), entries.Perm (lints.map Lint.registered) ∧
    (group lints).map readPath? = entries.map some
  rows : ((table lints).drop 2).length = lints.length
  entries : (group lints).length = lints.length
  total : readTotal? (Report.tableDocument lints) = some lints.length
  /-- The sentence is the one line that an update writes under this name. -/
  counted : ∀ settings : Settings, (((Update.passes settings lints).filter
    fun p => p.name = "count").flatMap Update.Pass.lines).map readSentence? = [some lints.length]

variable {lints : List Lint}

theorem map_readRow?_table (h : ∀ lint ∈ lints, ' ' ∉ lint.name.toList) :
    ((table lints).drop 2).map readRow? = (byName lints).map fun lint => some lint.shown := by
  have hmem : ∀ lint ∈ byName lints, lint ∈ lints :=
    fun lint => (inNameOrder_byName lints).perm.mem_iff.1
  rw [table]
  simp only [List.drop_succ_cons, List.drop_zero, List.map_map]
  exact List.map_congr_left fun lint hlint => readRow?_row (h lint (hmem lint hlint)) _

theorem map_readPath?_group (h : ∀ lint ∈ lints, ∀ c ∈ lint.name.toList, Lint.isNameChar c) :
    (group lints).map readPath? =
      ((lints.mergeSort groupOrder).map Lint.registered).map some := by
  have hmem : ∀ lint ∈ lints.mergeSort groupOrder, lint ∈ lints :=
    fun lint => (inRankOrder_mergeSort lints).perm.mem_iff.1
  rw [group, List.map_map, List.map_map]
  exact List.map_congr_left fun lint hlint => readPath?_entry (h lint (hmem lint hlint))

theorem agreement (h : ∀ lint ∈ lints, ∀ c ∈ lint.name.toList, Lint.isNameChar c) :
    Agreement lints where
  shown := by
    have hrows := map_readRow?_table fun lint hlint => blank_not_mem (h lint hlint)
    exact ⟨byName lints, inNameOrder_byName lints, hrows, readLints?_tableDocument lints⟩
  registered := by
    have hperm := (inRankOrder_mergeSort lints).perm.map Lint.registered
    exact ⟨_, hperm, map_readPath?_group h⟩
  rows := by rw [List.length_drop, length_table, Nat.add_sub_cancel]
  entries := length_group lints
  total := readTotal?_tableDocument lints
  counted settings := by simp [Update.passes, readSentence?_countSentence]

end Listing

namespace Declaration

/-- A lint that was found is registered under the identifier that is declared. -/
theorem Spelling.registered_lint {s : Spelling} (h : s.Valid) (module : String) :
    (s.lint module).registered = (module, String.ofList s.name) := by
  have hname : (s.name.map Char.toLower).map Char.toUpper = s.name := by
    rw [List.map_map]
    conv_rhs => rw [← List.map_id s.name]
    exact List.map_congr_left fun c hc => Lint.toUpper_toLower (h.name.2 c hc)
  rw [Lint.registered, Spelling.lint, String.toList_ofList, hname]

end Declaration

namespace Listing

open Declaration

/-- The listings of lints whose names are in lower case tell the same of all of them. So it is with
the lints that are found in a text, whatever the text, the module and the macro are, and these are
registered under the identifiers in the declarations that a scan of the text takes. -/
theorem listings_agree :
    (∀ lints : List Lint, (∀ lint ∈ lints, ∀ c ∈ lint.name.toList, Lint.isNameChar c) →
      Agreement lints) ∧
    ∀ macroName module text : String, ∃ p found, pattern macroName = .ok p ∧
      Scan macroName text.toList found ∧ Agreement (extract p module text) ∧
      (extract p module text).map Lint.registered =
        found.map fun x => (module, String.ofList x.spelling.name) := by
  refine ⟨fun lints h => agreement h, fun macroName module text => ?_⟩
  have hp := pattern_eq macroName
  obtain ⟨found, hscan, hextract⟩ := extract_eq hp module text
  refine ⟨_, found, hp, hscan, ?_, ?_⟩
  · rw [hextract]
    refine agreement fun lint hlint => ?_
    obtain ⟨x, hx, rfl⟩ := List.mem_map.1 hlint
    exact (Spelling.isName_lint (hscan.valid x hx) module).2
  · rw [hextract, List.map_map]
    exact List.map_congr_left fun x hx => Spelling.registered_lint (hscan.valid x hx) module

/-- Two equal lints, a description with bars and a line feed in it, a module with colons, and a
lint without a name. -/
theorem listings_agree_doubled :
    let lints : List Lint :=
      [⟨"a::b", "some_lint", .warn, "p | q"⟩, ⟨"m", "", .forbid, "é\n | "⟩,
        ⟨"a::b", "some_lint", .warn, "p | q"⟩, ⟨"m", "_", .deny, ""⟩]
    (∀ lint ∈ lints, ∀ c ∈ lint.name.toList, Lint.isNameChar c) ∧ Agreement lints := by
  intro lints
  have hnames : ∀ lint ∈ lints, ∀ c ∈ lint.name.toList, Lint.isNameChar c := by
    have hall : ∀ lint ∈ lints, lint.name.toList.all Lint.isNameChar := by decide +kernel
    exact fun lint hlint => List.all_eq_true.1 (hall lint hlint)
  exact ⟨hnames, listings_agree.1 lints hnames⟩

end Listing

end LintLedger
