import LintLedger.Proofs.Disk.Places
import LintLedger.Proofs.Path.Moves

/-!
# Walks through a disk

A path leads where its moves lead: single dots and a slash at the end only ask for directories on
the way. Every beginning of a path that leads somewhere leads somewhere too, and what stands at a
name behind a path stands at the place to which the path leads.
-/

namespace LintLedger.Disk

open LintLedger.Path (IsPart IsStep ofMoves ofPlace)

variable {d : Disk} {place place' : Place} {p q : Path} {name : String} {names moves : List String}

/-! ## Following names -/

/-- The first names lead to a place from where the others lead on. -/
theorem exists_of_follow_append {front back : List String}
    (h : d.follow place (front ++ back) = .ok place') :
    ∃ middle, d.follow place front = .ok middle ∧ d.follow middle back = .ok place' := by
  rw [follow_append] at h
  cases hfront : d.follow place front with
  | error fault => simp [hfront, Except.bind] at h
  | ok middle =>
      rw [hfront] at h
      exact ⟨middle, rfl, h⟩

/-- A single dot leads nowhere else. -/
theorem follow_moves (h : d.follow place names = .ok place') :
    d.follow place (names.filter (· ≠ ".")) = .ok place' := by
  induction names generalizing place with
  | nil => exact h
  | cons name names ih =>
      obtain ⟨hdirectory, hshort, hrest⟩ := follow_cons_iff.1 h
      by_cases hhere : name = "."
      · rw [hhere, List.filter_cons_of_neg (by simp)]
        rw [hhere] at hrest
        exact ih hrest
      · rw [List.filter_cons_of_pos (by simpa using hhere)]
        exact follow_cons_iff.2 ⟨hdirectory, hshort, ih hrest⟩

/-! ## Paths and their names -/

theorem pieces_eq (p : Path) :
    pieces p = if p.text.toList.getLast? = some '/' then p.names ++ ["."] else p.names := rfl

theorem ne_empty_of_placeOf (h : d.placeOf p = .ok place) : p.text ≠ "" := by
  intro hempty
  simp [placeOf, hempty] at h

theorem zero_not_mem_of_placeOf (h : d.placeOf p = .ok place) : '\x00' ∉ p.text.toList := by
  intro hzero
  unfold placeOf at h
  split at h
  · cases h
  · cases h

/-- A slash at the end of a path does not lead on. -/
theorem follow_names (h : d.placeOf p = .ok place) : d.follow [] p.names = .ok place := by
  have hfollow := follow_of_placeOf h
  rw [pieces_eq] at hfollow
  split at hfollow
  · obtain ⟨middle, hnames, hlast⟩ := exists_of_follow_append hfollow
    obtain ⟨-, -, hhere⟩ := follow_cons_iff.1 hlast
    rw [hnames]
    exact hhere
  · exact hfollow

theorem placeOf_of_follow (hp : p.text ≠ "") (hzero : '\x00' ∉ p.text.toList)
    (h : d.follow [] p.names = .ok place) (hplace : d.get? place = some .directory) :
    d.placeOf p = .ok place := by
  rw [placeOf, if_neg hp, if_neg hzero, pieces_eq]
  split
  · rw [follow_append, h]
    simp [Except.bind, follow, hplace]
  · exact h

theorem follow_moves_of_placeOf (h : d.placeOf p = .ok place) :
    d.follow [] p.moves = .ok place :=
  follow_moves (follow_names h)

theorem zero_not_mem_of_mem_names (h : d.placeOf p = .ok place) (hname : name ∈ p.names) :
    '\x00' ∉ name.toList :=
  fun hzero => zero_not_mem_of_placeOf h (Path.of_mem_names hname hzero).1

theorem placeOf_ofMoves (h : d.follow [] moves = .ok place)
    (hparts : ∀ name ∈ moves, IsPart name) (hzero : ∀ name ∈ moves, '\x00' ∉ name.toList) :
    d.placeOf (ofMoves moves) = .ok place := by
  unfold Path.ofMoves
  by_cases hnil : moves = []
  · rw [hnil] at h
    rw [if_pos hnil, ← h]
    rfl
  · have htext : (ofPlace moves).text ≠ "" := by
      obtain ⟨first, rest, rfl⟩ := List.exists_cons_of_ne_nil hnil
      simp [ofPlace]
    rw [if_neg hnil, placeOf, if_neg htext, if_neg (zero_not_mem_ofPlace hzero),
      pieces_ofPlace hparts hnil, h]

/-! ## Paths behind paths -/

/-- What is asked for behind a directory; nothing asks for the directory itself. -/
def tailPieces (q : Path) : List String :=
  if q.text = "" then ["."] else pieces q

theorem getLast?_join (hp : p.text ≠ "") (hq : q.isAbsolute = false) :
    (p.join q).text.toList.getLast? =
      if q.text = "" then some '/' else q.text.toList.getLast? := by
  have hlast : p.text.toList.getLast? ≠ none := by simpa using hp
  obtain ⟨c, hc⟩ := Option.ne_none_iff_exists'.1 hlast
  unfold Path.join
  rw [hq, if_neg Bool.false_ne_true, hc, Option.all_some]
  by_cases hempty : q.text = ""
  · rw [if_pos hempty]
    by_cases hslash : c = '/'
    · simp [hslash, hempty, hc]
    · simp [hslash, hempty]
  · have hsome : q.text.toList ≠ [] := by simpa using hempty
    rw [if_neg hempty]
    split <;> simp only [String.toList_append, List.getLast?_append_of_ne_nil _ hsome]

theorem pieces_join (hp : p.text ≠ "") (hq : q.isAbsolute = false) :
    pieces (p.join q) = p.names ++ tailPieces q := by
  rw [pieces_eq, Path.names_join p hq, getLast?_join hp hq, tailPieces, pieces_eq]
  by_cases hempty : q.text = ""
  · have hnames : q.names = [] := by simp [Path.names, hempty, Path.namesIn_nil]
    rw [if_pos hempty, if_pos rfl, if_pos hempty, hnames, List.append_nil]
  · rw [if_neg hempty, if_neg hempty]
    split <;> simp

theorem zero_mem_join_iff (hq : q.isAbsolute = false) : '\x00' ∈ (p.join q).text.toList ↔
    '\x00' ∈ p.text.toList ∨ '\x00' ∈ q.text.toList := by
  unfold Path.join
  rw [hq, if_neg Bool.false_ne_true]
  split <;> simp

theorem placeOf_join (hp : d.placeOf p = .ok place) (hq : q.isAbsolute = false) :
    d.placeOf (p.join q) =
      if '\x00' ∈ q.text.toList then .error .zeroInName else d.follow place (tailPieces q) := by
  have htext : (p.join q).text ≠ "" := by
    unfold Path.join
    rw [hq, if_neg Bool.false_ne_true]
    split <;> simp [ne_empty_of_placeOf hp]
  simp only [placeOf, if_neg htext, zero_mem_join_iff hq, zero_not_mem_of_placeOf hp, false_or]
  rw [pieces_join (ne_empty_of_placeOf hp) hq, follow_append, follow_names hp]
  rfl

theorem tailPieces_name (h : IsPart name) : tailPieces ⟨name⟩ = [name] := by
  have hlast : name.toList.getLast? ≠ some '/' :=
    fun hslash => h.no_slash (List.mem_of_getLast? hslash)
  rw [tailPieces, if_neg h.ne_empty, pieces_eq, if_neg hlast]
  exact Path.namesIn_singleton h.ne_empty h.no_slash

/-- An entry at a name behind a path stands at the place to which the path leads. -/
theorem exists?_join_iff (hd : d.WellFormed) (hp : p.text ≠ "") (hname : isName name) :
    d.exists? (p.join ⟨name⟩) ↔
      ∃ place e, d.placeOf p = .ok place ∧ d.get? (place ++ [name]) = some e := by
  have hstep := isStep_of_isName hname
  have hrelative := Path.isAbsolute_name hstep.no_slash
  simp only [exists?_iff, lookup_eq_ok_iff]
  constructor
  · rintro ⟨e, place', hplace', hentry⟩
    have hzero : '\x00' ∉ p.text.toList :=
      fun hmem => zero_not_mem_of_placeOf hplace' ((zero_mem_join_iff hrelative).2 (.inl hmem))
    have hfollow := follow_of_placeOf hplace'
    rw [pieces_join hp hrelative, tailPieces_name hstep.isPart] at hfollow
    obtain ⟨place, hnames, hlast⟩ := exists_of_follow_append hfollow
    obtain ⟨hdirectory, -, hend⟩ := follow_cons_iff.1 hlast
    have hplace : place' = place ++ [name] := by
      rw [step, if_neg hstep.ne_here, if_neg hstep.ne_up] at hend
      exact (Except.ok.inj hend).symm
    rw [hplace] at hentry
    exact ⟨place, e, placeOf_of_follow hp hzero hnames hdirectory, hentry⟩
  · rintro ⟨place, e, hplace, hentry⟩
    refine ⟨e, place ++ [name], ?_, hentry⟩
    rw [placeOf_join hplace hrelative, tailPieces_name hstep.isPart,
      if_neg (zero_not_mem_of_isName hname)]
    exact follow_of_get? hd hentry

end LintLedger.Disk
