import LintLedger.Proofs.Collection.Harvest
import LintLedger.Proofs.Listing.Delimiters
import LintLedger.Proofs.Update.Completed

/-!
# Names in the configuration

The names of the group and of the macro stand in patterns. Whatever characters they hold, they are
asked for as they are written, the macro name without its white space, and there is always a
pattern. So no collection and no update ever ends because of a pattern.
-/

namespace LintLedger

open Pattern

/-! ## Collections -/

namespace Collection

variable {d : Disk} {invalid : Invalid}

theorem scanFile_ne_pattern (p : Pattern) (path : Path) :
    scanFile d p path ≠ .error (.pattern invalid) := by
  unfold scanFile
  split <;> simp

theorem failure_scanFiles_ne_pattern (p : Pattern) (paths : List Path) :
    (scanFiles d p paths).failure ≠ some (.pattern invalid) := by
  induction paths with
  | nil => simp [scanFiles]
  | cons path paths ih =>
      cases hscan : scanFile d p path with
      | ok lints =>
          simp only [scanFiles, hscan]
          exact ih
      | error failure =>
          simp only [scanFiles, hscan]
          rintro ⟨rfl⟩
          exact scanFile_ne_pattern p path hscan

theorem sources_ne_pattern (directory : Path) (extension : String) :
    sources d directory extension ≠ .error (.pattern invalid) := by
  simp only [sources]
  split <;> simp

theorem failure_harvest_ne_pattern (root : Path) (scope : Scope) :
    (harvest d root scope).failure ≠ some (.pattern invalid) := by
  rw [harvest, Declaration.pattern_eq]
  dsimp only
  split
  · next failure hsources =>
      rintro ⟨rfl⟩
      exact sources_ne_pattern _ _ hsources
  · next paths _ => exact failure_scanFiles_ne_pattern _ paths

theorem result_harvest_ne_pattern (root : Path) (scope : Scope) :
    (harvest d root scope).result ≠ .error (.pattern invalid) := by
  unfold Harvest.result
  split
  · simp
  · next failure hfailure =>
      rintro ⟨rfl⟩
      exact failure_harvest_ne_pattern root scope hfailure

end Collection

/-! ## Updates -/

namespace Update

theorem exists_fails_of_runPasses {root : Path} {write : Bool} {d : Disk} {ps : List Pass}
    {failure : Failure} (h : (runPasses root write d ps).failure = some failure) :
    ∃ p ∈ ps, ∃ d', p.Fails d' failure := by
  induction ps generalizing d with
  | nil => simp [runPasses] at h
  | cons p ps ih =>
      cases hrun : p.run d write with
      | error failure' =>
          simp only [runPasses, hrun, Option.some.injEq] at h
          obtain rfl := h
          exact ⟨p, List.mem_cons_self, d, Pass.fails_of_run hrun⟩
      | ok saved =>
          rw [runPasses_cons_of_run hrun] at h
          obtain ⟨q, hq, hfails⟩ := ih h
          exact ⟨q, List.mem_cons_of_mem p hq, hfails⟩

/-- Every pass has a region to look for. -/
theorem exists_region {s : Settings} {lints : List Lint} {p : Pass} (h : p ∈ passes s lints) :
    ∃ region, p.region = .ok region := by
  simp only [passes, List.mem_cons, List.not_mem_nil, or_false] at h
  rcases h with rfl | rfl | rfl
  · exact ⟨_, Listing.tableRegion_eq⟩
  · exact ⟨_, Listing.countRegion_eq⟩
  · exact ⟨_, Listing.groupRegion_eq s.group⟩

theorem failure_run_ne_pattern (d : Disk) (s : Settings) (lints : List Lint) (write : Bool)
    (invalid : Invalid) : (run d s lints write).failure ≠ some (.pattern invalid) := by
  intro hfailure
  obtain ⟨p, hp, d', hfails⟩ := exists_fails_of_runPasses hfailure
  obtain ⟨region, hregion⟩ := exists_region hp
  cases hfails with
  | invalid hinvalid =>
      rw [hregion] at hinvalid
      cases hinvalid

end Update

/-! ## Declarations -/

theorem Declaration.prefix_of_corresponds {macroName : String} {f : Found} {x : Sighting}
    (h : Corresponds macroName f x) : nameChars macroName ++ ['!'] <+: f.text := by
  rw [h.text, Spelling.text, Spelling.front, List.append_assoc]
  exact (List.prefix_append_right_inj _).2 ⟨_, rfl⟩

/-- Every match begins with the macro name, without its white space, and an exclamation mark. -/
theorem Declaration.prefix_of_mem_matches {macroName : String} {p : Pattern}
    (hp : pattern macroName = .ok p) {text : List Char} {f : Found} (hf : f ∈ p.matchesOf text) :
    nameChars macroName ++ ['!'] <+: f.text := by
  obtain rfl := Except.ok.inj ((pattern_eq macroName).symm.trans hp)
  obtain ⟨found, -, hfound⟩ := exists_scan macroName text
  have hall : List.Forall₂ (fun f x => nameChars macroName ++ ['!'] <+: f.text ∧
      Corresponds macroName f x) _ found :=
    hfound.imp fun f x h => ⟨prefix_of_corresponds h, h⟩
  exact ((List.forall₂_and_left _ _).1 hall).1 f hf

/-- The names of the group and of the macro are taken as they are written, whatever they are: the
region of a group opens with the call that names it, the matches of a macro begin with its name
without white space, and neither a collection nor an update ends because of a pattern. -/
theorem Settings.names_taken_literally :
    (∀ group : String, ∃ region, Listing.groupRegion group = .ok region ∧
      ∀ line : List Char, region.opening.isMatch line ↔ ∃ c, c ≠ '\n' ∧
        "reg".toList ++ c :: ("register_lint_group(\"".toList ++ group.toList ++ ['"']) <:+: line) ∧
    (∀ macroName : String, ∃ p, Declaration.pattern macroName = .ok p ∧
      ∀ text, ∀ f ∈ p.matchesOf text,
        (macroName.toList.filter fun c => !Text.isBlank c) ++ ['!'] <+: f.text) ∧
    (∀ d root scope invalid,
      (Collection.harvest d root scope).result ≠ .error (.pattern invalid)) ∧
    ∀ d s lints write invalid,
      (Update.run d s lints write).failure ≠ some (.pattern invalid) := by
  refine ⟨fun group => ?_, fun macroName => ?_, ?_, ?_⟩
  · exact ⟨_, Listing.groupRegion_eq group, Listing.groupBounds_isMatch_iff group⟩
  · exact ⟨_, Declaration.pattern_eq macroName, fun text f hf =>
      Declaration.prefix_of_mem_matches (Declaration.pattern_eq macroName) hf⟩
  · exact fun d root scope invalid => Collection.result_harvest_ne_pattern root scope
  · exact fun d s lints write invalid => Update.failure_run_ne_pattern d s lints write invalid

end LintLedger
