import LintLedger.Proofs.Disk.Walks
import LintLedger.Settings.Root

/-!
# The nearest root

The places that are looked at are the beginnings of the moves that the starting point makes, the
longest first. So what is found is the longest beginning that is marked as a root, by one of four
names in the directory or by the marker file; if no beginning is marked it is the starting point.
Looking again from what was found finds it again.
-/

namespace LintLedger.Settings

open LintLedger.Path (IsPart isAbsolute_ofMoves isPart_of_mem_moves moves_ofMoves ofMoves)

variable {d : Disk} {marker : String} {p cwd start : Path} {front moves : List String}

/-! ## Marked directories -/

def rootNames : List String :=
  ["lintsync.toml", "lintsync.yaml", "lintsync.yml", ".git"]

/-- The path leads to a place where something of that name stands. -/
def Holds (d : Disk) (p : Path) (name : String) : Prop :=
  ∃ place e, d.placeOf p = .ok place ∧ d.get? (place ++ [name]) = some e

def Marked (d : Disk) (marker : String) (p : Path) : Prop :=
  (∃ name ∈ rootNames, Holds d p name) ∨ d.isFile (p.join ⟨marker⟩)

theorem isName_of_mem_rootNames : ∀ name ∈ rootNames, Disk.isName name := by
  decide +kernel

theorem rootNames_eq : rootNames = configFiles.map (·.1) ++ [".git"] := rfl

theorem isRoot_iff (hd : d.WellFormed) (hp : p.text ≠ "") :
    isRoot d marker p ↔ Marked d marker p := by
  have hany : (∃ name ∈ rootNames, Holds d p name) ↔
      configFiles.any (fun file => d.exists? (p.join ⟨file.1⟩)) ∨ d.exists? (p.join ⟨".git"⟩) := by
    have hholds : ∀ name ∈ rootNames, (Holds d p name ↔ d.exists? (p.join ⟨name⟩)) :=
      fun name hname => (Disk.exists?_join_iff hd hp (isName_of_mem_rootNames name hname)).symm
    rw [exists_congr fun name => and_congr_right (hholds name), ← List.any_eq_true, rootNames_eq,
      List.any_append, List.any_map, List.any_cons, List.any_nil, Bool.or_false, Bool.or_eq_true]
    rfl
  rw [Marked, hany, isRoot, Bool.or_eq_true, Bool.or_eq_true, or_right_comm]

/-! ## The longest marked beginning -/

/-- On the way from the root along some moves, the last marked directory. -/
structure Nearest (d : Disk) (marker : String) (moves front : List String) : Prop where
  onWay : front <+: moves
  marked : Marked d marker (ofMoves front)
  longest : ∀ other, other <+: moves → Marked d marker (ofMoves other) → other <+: front

theorem Nearest.unique {other : List String} (h : Nearest d marker moves front)
    (hother : Nearest d marker moves other) : other = front := by
  have hle := h.longest other hother.onWay hother.marked
  have hge := hother.longest front h.onWay h.marked
  exact hle.eq_of_length_le hge.length_le

/-- The last marked directory on the way is also that on the way to itself. -/
theorem Nearest.self (h : Nearest d marker moves front) : Nearest d marker front front :=
  ⟨List.prefix_rfl, h.marked, fun _ hfront _ => hfront⟩

/-- What is found on the way up: the nearest marked directory, or where the moves lead if there is
none. -/
def Found (d : Disk) (marker : String) (moves front : List String) : Prop :=
  Nearest d marker moves front ∨
    front = moves ∧ ∀ other, other <+: moves → ¬ Marked d marker (ofMoves other)

theorem Found.onWay (h : Found d marker moves front) : front <+: moves := by
  rcases h with hnearest | ⟨rfl, -⟩
  · exact hnearest.onWay
  · exact List.prefix_rfl

theorem Found.eq_of_nearest {home : List String} (h : Found d marker moves front)
    (hhome : Nearest d marker moves home) : front = home := by
  rcases h with hnearest | ⟨-, hnone⟩
  · exact hhome.unique hnearest
  · exact (hnone home hhome.onWay hhome.marked).elim

/-- What is found on the way up is found on the way up from there. -/
theorem Found.self (h : Found d marker moves front) : Found d marker front front := by
  rcases h with hnearest | ⟨rfl, hnone⟩
  · exact .inl hnearest.self
  · exact .inr ⟨rfl, hnone⟩

theorem Found.unique {other : List String} (h : Found d marker moves front)
    (hother : Found d marker moves other) : other = front := by
  rcases h with hnearest | ⟨rfl, hnone⟩
  · exact hother.eq_of_nearest hnearest
  · rcases hother with hnearest | ⟨heq, -⟩
    · exact (hnone other hnearest.onWay hnearest.marked).elim
    · exact heq

/-- The first number below a bound, counted downwards, that passes a test. -/
theorem find?_reverse_range (q : Nat → Bool) (n : Nat) :
    (∃ k, (List.range n).reverse.find? q = some k ∧ k < n ∧ q k ∧ ∀ j < n, q j → j ≤ k) ∨
      ((List.range n).reverse.find? q = none ∧ ∀ j < n, ¬ q j) := by
  induction n with
  | zero => exact .inr ⟨rfl, by simp⟩
  | succ n ih =>
      have hrange : (List.range (n + 1)).reverse = n :: (List.range n).reverse := by
        rw [List.range_succ, List.reverse_append]
        rfl
      rw [hrange]
      by_cases hn : q n
      · exact .inl ⟨n, List.find?_cons_of_pos hn, by omega, hn, fun j hj _ => by omega⟩
      · rw [List.find?_cons_of_neg hn]
        have hbelow : ∀ j < n + 1, q j → j < n := by
          intro j hj hq
          rcases Nat.lt_succ_iff_lt_or_eq.1 hj with hlt | rfl
          · exact hlt
          · exact (hn hq).elim
        rcases ih with ⟨k, hfind, hk, hq, hmax⟩ | ⟨hfind, hnone⟩
        · exact .inl ⟨k, hfind, by omega, hq, fun j hj hj' => hmax j (hbelow j hj hj') hj'⟩
        · exact .inr ⟨hfind, fun j hj hj' => hnone j (hbelow j hj hj') hj'⟩

/-! ## Looking for the root -/

theorem startingPoint_eq (h : (cwd.join start).isAbsolute) :
    startingPoint cwd start = ofMoves (cwd.join start).moves := by
  rw [startingPoint, Path.components_eq h,
    Path.ofComponents_root fun _ hname => isPart_of_mem_moves hname]

/-- What is looked at on the way from where some moves lead up to the root. -/
theorem candidates_ofMoves (hparts : ∀ name ∈ moves, IsPart name) (hhere : "." ∉ moves) :
    candidates (ofMoves moves) =
      (List.range (moves.length + 1)).reverse.map fun k => ofMoves (moves.take k) := by
  rw [candidates, Path.lineage_components (isAbsolute_ofMoves moves), moves_ofMoves hparts hhere]

theorem found_candidates (hd : d.WellFormed) (hparts : ∀ name ∈ moves, IsPart name)
    (hhere : "." ∉ moves) :
    ∃ front, ((candidates (ofMoves moves)).find? (isRoot d marker)).getD (ofMoves moves) =
      ofMoves front ∧ Found d marker moves front := by
  have hroot : ∀ k, (isRoot d marker ∘ fun k => ofMoves (moves.take k)) k ↔
      Marked d marker (ofMoves (moves.take k)) :=
    fun k => isRoot_iff hd (Path.text_ofMoves_ne (moves.take k))
  rw [candidates_ofMoves hparts hhere, List.find?_map]
  have htake : ∀ other, other <+: moves →
      other = moves.take other.length ∧ other.length < moves.length + 1 :=
    fun other hother =>
      ⟨List.prefix_iff_eq_take.1 hother, Nat.lt_succ_of_le hother.length_le⟩
  -- A beginning is told by its length, and the lengths are tried downwards.
  rcases find?_reverse_range (isRoot d marker ∘ fun k => ofMoves (moves.take k))
    (moves.length + 1) with ⟨k, hfind, hk, hmarked, hmax⟩ | ⟨hfind, hnone⟩
  · refine ⟨moves.take k, by rw [hfind]; rfl, .inl ⟨List.take_prefix k moves,
      (hroot k).1 hmarked, ?_⟩⟩
    intro other hother hmarked'
    obtain ⟨heq, hlt⟩ := htake other hother
    rw [heq] at hmarked' ⊢
    exact List.take_prefix_take_left (hmax _ hlt ((hroot _).2 hmarked'))
  · refine ⟨moves, by rw [hfind]; rfl, .inr ⟨rfl, ?_⟩⟩
    intro other hother hmarked
    obtain ⟨heq, hlt⟩ := htake other hother
    rw [heq] at hmarked
    exact hnone _ hlt ((hroot _).2 hmarked)

theorem exists_found (hd : d.WellFormed) (h : (cwd.join start).isAbsolute) (marker : String) :
    ∃ front, detectRoot d cwd start marker = ofMoves front ∧
      Found d marker (cwd.join start).moves front := by
  have hparts : ∀ name ∈ (cwd.join start).moves, IsPart name :=
    fun _ hname => isPart_of_mem_moves hname
  rw [detectRoot, startingPoint_eq h]
  exact found_candidates hd hparts (Path.here_not_mem_moves _)

/-- Looked for from what was found on some way, the root is that. -/
theorem detectRoot_of_found (hd : d.WellFormed) (h : Found d marker p.moves front) (here : Path) :
    detectRoot d here (ofMoves front) marker = ofMoves front := by
  have habsolute := isAbsolute_ofMoves front
  have hjoin : here.join (ofMoves front) = ofMoves front := Path.join_of_isAbsolute here habsolute
  have hmoves : (ofMoves front).moves = front :=
    moves_ofMoves (fun name hname => isPart_of_mem_moves (h.onWay.subset hname))
      fun hmem => Path.here_not_mem_moves p (h.onWay.subset hmem)
  obtain ⟨again, hroot, hagain⟩ := exists_found hd (hjoin.symm ▸ habsolute) marker
  rw [hjoin, hmoves] at hagain
  rw [hroot, h.self.unique hagain]

/-- The root is the nearest marked directory on the way up from the starting point, or the starting
point itself if there is none. So all starting points with one nearest marked directory have one
root, and looked for from the root, whatever the working directory, it is found again. -/
theorem detectRoot_nearest (hd : d.WellFormed) (hcwd : cwd.isAbsolute) (start : Path)
    (marker : String) :
    ∃ front, detectRoot d cwd start marker = ofMoves front ∧
      Found d marker (cwd.join start).moves front ∧
      (∀ home, Nearest d marker (cwd.join start).moves home → front = home) ∧
      ∀ here, detectRoot d here (ofMoves front) marker = ofMoves front := by
  obtain ⟨front, hroot, hfound⟩ := exists_found hd (Path.isAbsolute_join hcwd start) marker
  exact ⟨front, hroot, hfound, fun home hhome => hfound.eq_of_nearest hhome,
    fun here => detectRoot_of_found hd hfound here⟩

private def nestedDisk : Disk :=
  ⟨[(["p"], .directory), (["p", ".git"], .directory), (["p", "s"], .directory)]⟩

theorem detectRoot_nearest_nested :
    ∃ front, ofMoves front = ⟨"/p"⟩ ∧ Found nestedDisk "src/lib.rs" ["p", "s", "x"] front ∧
      ∀ here, detectRoot nestedDisk here ⟨"/p"⟩ "src/lib.rs" = ⟨"/p"⟩ := by
  have hmoves : ((Path.mk "/p").join ⟨"s//./x"⟩).moves = ["p", "s", "x"] := by decide +kernel
  have hgit : detectRoot nestedDisk ⟨"/p"⟩ ⟨"s//./x"⟩ "src/lib.rs" = ⟨"/p"⟩ := by decide +kernel
  obtain ⟨front, hroot, hfound, -, hagain⟩ :=
    @detectRoot_nearest nestedDisk ⟨"/p"⟩ ⟨by decide +kernel, by decide +kernel⟩
      (by decide +kernel) ⟨"s//./x"⟩ "src/lib.rs"
  rw [hmoves] at hfound
  rw [hgit] at hroot
  rw [← hroot] at hagain
  exact ⟨front, hroot.symm, hfound, hagain⟩

end LintLedger.Settings
