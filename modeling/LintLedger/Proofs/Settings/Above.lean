import LintLedger.Proofs.Settings.Nearest

/-!
# Roots above the start

The way up from a directory is the way up along its path: the last component is left out. Leaving
out a name leads to the directory above, but leaving out two dots leads down again. So the root
that is found from a directory can lie below it or beside it, and does so exactly if the nearest
marked beginning of the path leads there.
-/

namespace LintLedger.Settings

open LintLedger.Disk (walk walk_of_isStep)
open LintLedger.Path (IsStep isPart_of_mem_moves isStep_of_mem_moves ofMoves)

variable {d : Disk} {marker : String} {cwd start p : Path} {front moves : List String}
  {place : Place}

/-! ## Beginnings of a path -/

/-- Every beginning of the moves to a directory leads to a directory. -/
theorem directory_of_beginning (h : d.follow [] moves = .ok place)
    (hplace : d.get? place = some .directory) (hfront : front <+: moves) :
    d.follow [] front = .ok (walk [] front) ∧ d.get? (walk [] front) = some .directory := by
  obtain ⟨back, rfl⟩ := hfront
  obtain ⟨middle, hmiddle, hback⟩ := Disk.exists_of_follow_append h
  rw [← Disk.eq_walk_of_follow hmiddle]
  refine ⟨hmiddle, ?_⟩
  cases back with
  | nil =>
      rw [Except.ok.inj hback]
      exact hplace
  | cons name back => exact (Disk.follow_cons_iff.1 hback).1

theorem placeOf_beginning (h : d.placeOf p = .ok place) (hplace : d.get? place = some .directory)
    (hfront : front <+: p.moves) :
    d.placeOf (ofMoves front) = .ok (walk [] front) ∧
      d.get? (walk [] front) = some .directory := by
  obtain ⟨hfollow, hdirectory⟩ :=
    directory_of_beginning (Disk.follow_moves_of_placeOf h) hplace hfront
  refine ⟨Disk.placeOf_ofMoves hfollow ?_ ?_, hdirectory⟩
  · exact fun name hname => isPart_of_mem_moves (hfront.subset hname)
  · exact fun name hname =>
      Disk.zero_not_mem_of_mem_names h (Path.mem_moves.1 (hfront.subset hname)).1

/-! ## Straying -/

/-- The nearest marked beginning of some moves leads neither to where they lead nor above. -/
def Strays (d : Disk) (marker : String) (moves : List String) : Prop :=
  ∃ front, Nearest d marker moves front ∧ ¬ walk [] front <+: walk [] moves

/-- Moves that go nowhere up do not stray. -/
theorem not_strays (h : ∀ name ∈ moves, IsStep name) : ¬ Strays d marker moves := by
  rintro ⟨front, hnearest, hnot⟩
  have hfront : ∀ name ∈ front, IsStep name :=
    fun name hname => h name (hnearest.onWay.subset hname)
  rw [walk_of_isStep h, walk_of_isStep hfront] at hnot
  exact hnot hnearest.onWay

theorem Found.above_iff (h : Found d marker moves front) :
    walk [] front <+: walk [] moves ↔ ¬ Strays d marker moves := by
  constructor
  · rintro habove ⟨other, hother, hnot⟩
    rw [h.eq_of_nearest hother] at habove
    exact hnot habove
  · intro hnot
    rcases h with hnearest | ⟨rfl, -⟩
    · by_contra hbeside
      exact hnot ⟨front, hnearest, hbeside⟩
    · exact List.prefix_rfl

/-- From a directory, a directory is found. It is the one from where it is looked for, or one
above it, exactly if the moves to there do not stray; moves without two dots never do. -/
theorem detectRoot_above_iff (hd : d.WellFormed) (hcwd : cwd.isAbsolute)
    (hstart : d.placeOf (cwd.join start) = .ok place)
    (hplace : d.get? place = some .directory) (marker : String) :
    ∃ root, d.placeOf (detectRoot d cwd start marker) = .ok root ∧
      d.get? root = some .directory ∧
      (root <+: place ↔ ¬ Strays d marker (cwd.join start).moves) ∧
      (".." ∉ (cwd.join start).names → root <+: place) := by
  obtain ⟨front, hroot, hfound⟩ := exists_found hd (Path.isAbsolute_join hcwd start) marker
  obtain ⟨hlead, hdirectory⟩ := placeOf_beginning hstart hplace hfound.onWay
  have hmoves : place = walk [] (cwd.join start).moves :=
    Disk.eq_walk_of_follow (Disk.follow_moves_of_placeOf hstart)
  have hstrays := hfound.above_iff
  rw [← hmoves] at hstrays
  refine ⟨walk [] front, by rw [hroot, hlead], hdirectory, hstrays, ?_⟩
  intro hup
  exact hstrays.2 (not_strays (isStep_of_mem_moves hup))

/-- A project within a project, with a directory in between. -/
private def innerDisk : Disk :=
  ⟨[(["p"], .directory), (["p", ".git"], .directory), (["p", "s"], .directory),
    (["p", "s", "x"], .directory), (["p", "s", "x", ".git"], .directory)]⟩

private theorem wellFormed_innerDisk : innerDisk.WellFormed :=
  ⟨by decide +kernel, by decide +kernel⟩

private theorem placeOf_innerDisk :
    innerDisk.placeOf ((Path.mk "/").join ⟨"p/s/x/.."⟩) = .ok ["p", "s"] := by
  decide +kernel

private theorem detectRoot_innerDisk :
    innerDisk.placeOf (detectRoot innerDisk ⟨"/"⟩ ⟨"p/s/x/.."⟩ "src/lib.rs") =
      .ok ["p", "s", "x"] := by
  decide +kernel

theorem detectRoot_above_iff_inner :
    Strays innerDisk "src/lib.rs" ((Path.mk "/").join ⟨"p/s/x/.."⟩).moves := by
  obtain ⟨root, hroot, -, habove, -⟩ :=
    detectRoot_above_iff wellFormed_innerDisk (by decide +kernel) placeOf_innerDisk
      (by simp [Disk.get?, innerDisk]) "src/lib.rs"
  by_contra hnot
  rw [detectRoot_innerDisk] at hroot
  rw [← Except.ok.inj hroot] at habove
  exact absurd (habove.2 hnot) (by decide)

/-- The root from the directory between the two projects is the project below it. -/
theorem root_can_be_below :
    ¬ ∀ (d : Disk) (cwd start : Path) (marker : String) (place : Place), d.WellFormed →
      cwd.isAbsolute → d.placeOf (cwd.join start) = .ok place →
      d.get? place = some .directory →
      ∃ root, d.placeOf (detectRoot d cwd start marker) = .ok root ∧ root <+: place := by
  intro hall
  obtain ⟨root, hroot, habove⟩ :=
    hall innerDisk ⟨"/"⟩ ⟨"p/s/x/.."⟩ "src/lib.rs" ["p", "s"] wellFormed_innerDisk
      (by decide +kernel) placeOf_innerDisk (by simp [Disk.get?, innerDisk])
  rw [detectRoot_innerDisk] at hroot
  rw [← Except.ok.inj hroot] at habove
  exact absurd habove (by decide)

end LintLedger.Settings
