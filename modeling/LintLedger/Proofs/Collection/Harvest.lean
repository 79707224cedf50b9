import LintLedger.Collection
import LintLedger.Proofs.Declaration.Extract

/-!
# Collected lints

Whatever stands in the source files, the lints that are collected from them have names.
-/

namespace LintLedger.Collection

variable {d : Disk} {p : Pattern} {macroName : String}

theorem isName_of_scanFile (hp : Declaration.pattern macroName = .ok p) {path : Path}
    {lints : List Lint} (h : scanFile d p path = .ok lints) :
    ∀ lint ∈ lints, Lint.IsName lint.name := by
  unfold scanFile at h
  split at h
  · next text _ =>
      obtain ⟨found, hscan, hextract⟩ := Declaration.extract_eq hp path.fileStem text
      rw [← Except.ok.inj h, hextract]
      intro lint hlint
      obtain ⟨x, hx, rfl⟩ := List.mem_map.1 hlint
      exact Declaration.Spelling.isName_lint (hscan.valid x hx) path.fileStem
  · cases h

theorem isName_of_scanFiles (hp : Declaration.pattern macroName = .ok p) (paths : List Path) :
    ∀ lint ∈ (scanFiles d p paths).lints, Lint.IsName lint.name := by
  induction paths with
  | nil => simp [scanFiles, Harvest.lints]
  | cons path paths ih =>
      rw [scanFiles]
      split
      · next lints hlints =>
          intro lint hlint
          rcases List.mem_append.1 hlint with hlint | hlint
          · exact isName_of_scanFile hp hlints lint hlint
          · exact ih lint hlint
      · simp [Harvest.lints]

theorem isName_of_harvest {root : Path} {scope : Scope} {lints : List Lint}
    (h : (harvest d root scope).result = .ok lints) : ∀ lint ∈ lints, Lint.IsName lint.name := by
  have hall : ∀ lint ∈ (harvest d root scope).lints, Lint.IsName lint.name := by
    unfold harvest
    split
    · simp [Harvest.lints]
    · next p hp =>
        split
        · simp [Harvest.lints]
        · next paths _ => exact isName_of_scanFiles hp paths
  unfold Harvest.result at h
  split at h
  · rwa [← Except.ok.inj h]
  · cases h

end LintLedger.Collection
