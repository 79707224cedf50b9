import LintLedger.Proofs.Disk.Walks
import LintLedger.Proofs.Path.Shown
import LintLedger.Proofs.Update.Forecast

/-!
# What is reported and what is on the disk

An update reports every pass, the file of each as it is shown from the root. Seen from the root,
what is shown leads to the file that the pass went over, and a place of the disk where something
else stands afterwards is that of a pass that is reported as having written.
-/

namespace LintLedger

/-! ## Shown paths on a disk -/

namespace Disk

open LintLedger.Path (ofSteps)

variable {d : Disk} {place place' : Place} {p base : Path} {names more : List String}

/-- Single dots in front of a name lead nowhere else. -/
theorem follow_of_moves (hne : more ≠ [])
    (h : d.follow place (names.filter (· ≠ ".") ++ more) = .ok place') :
    d.follow place (names ++ more) = .ok place' := by
  induction names generalizing place with
  | nil => exact h
  | cons name names ih =>
      by_cases hhere : name = "."
      · rw [hhere, List.filter_cons_of_neg (by simp)] at h
        obtain ⟨next, others, hcons⟩ := List.exists_cons_of_ne_nil
          (List.append_ne_nil_of_right_ne_nil (names.filter (· ≠ ".")) hne)
        have hdirectory : d.get? place = some .directory := by
          rw [hcons] at h
          exact (follow_cons_iff.1 h).1
        rw [hhere]
        exact follow_cons_iff.2 ⟨hdirectory, by decide, ih h⟩
      · rw [List.filter_cons_of_pos (by simpa using hhere)] at h
        obtain ⟨hdirectory, hshort, hrest⟩ := follow_cons_iff.1 h
        exact follow_cons_iff.2 ⟨hdirectory, hshort, ih hrest⟩

theorem zero_not_mem_of_names (h : ∀ name ∈ p.names, '\x00' ∉ name.toList) :
    '\x00' ∉ p.text.toList := by
  intro hzero
  obtain ⟨name, hname, hmem⟩ := Path.exists_name_of_mem hzero (by decide)
  exact h name hname hmem

/-- Seen from the base, what is shown of a path that leads somewhere leads there too. -/
theorem placeOf_join_shownFrom (hbase : base.isAbsolute) (hp : p.isAbsolute)
    (h : d.placeOf p = .ok place) :
    d.placeOf (base.join ⟨Path.shownFrom base p⟩) = .ok place := by
  by_cases hbelow : p.GoesBelow base
  · obtain ⟨more, hmoves, hne, hup⟩ := hbelow
    have hmem : ∀ name ∈ base.moves ++ more, name ∈ p.moves := fun name hname => hmoves ▸ hname
    have hparts := Path.isPart_of_mem_left hmoves
    have hzero : ∀ name ∈ base.moves ++ more, '\x00' ∉ name.toList := fun name hname =>
      zero_not_mem_of_mem_names h (Path.mem_moves.1 (hmem name hname)).1
    have hzero_base : '\x00' ∉ base.text.toList := by
      refine zero_not_mem_of_names fun name hname => ?_
      by_cases hhere : name = "."
      · rw [hhere]
        decide
      · exact hzero name (List.mem_append_left _ (Path.mem_moves.2 ⟨hname, hhere⟩))
    have hzero_more : '\x00' ∉ (ofSteps more).text.toList := by
      refine zero_not_mem_of_names fun name hname => ?_
      rw [Path.names_ofSteps hparts] at hname
      exact hzero name (List.mem_append_right _ hname)
    have hrelative := Path.isAbsolute_ofSteps hparts
    have hbase_text : base.text ≠ "" := by
      intro hempty
      simp [Path.isAbsolute, hempty] at hbase
    have htail : tailPieces (ofSteps more) = more := by
      have htext : (ofSteps more).text ≠ "" :=
        fun hempty => hne ((Path.text_ofSteps_eq_empty_iff hparts).1 hempty)
      rw [tailPieces, if_neg htext, pieces_eq, if_neg (Path.getLast?_ofSteps hparts),
        Path.names_ofSteps hparts]
    have hfollow : d.follow [] (base.names ++ more) = .ok place := by
      refine follow_of_moves hne ?_
      have hmoved := follow_moves_of_placeOf h
      rwa [hmoves] at hmoved
    have hjoin_text : (base.join (ofSteps more)).text ≠ "" := by
      have habsolute := Path.isAbsolute_join hbase (ofSteps more)
      intro hempty
      simp [Path.isAbsolute, hempty] at habsolute
    have hjoin_zero : '\x00' ∉ (base.join (ofSteps more)).text.toList := by
      rw [zero_mem_join_iff hrelative, not_or]
      exact ⟨hzero_base, hzero_more⟩
    rw [Path.shownFrom_of_below hp hbase hmoves hne hup]
    change d.placeOf (base.join (ofSteps more)) = _
    rw [placeOf, if_neg hjoin_text, if_neg hjoin_zero, pieces_join hbase_text hrelative, htail,
      hfollow]
  · rw [Path.shownFrom_of_not_below hp hbase hbelow, Path.join_of_isAbsolute base hp, h]

end Disk

namespace Update

variable {root : Path} {write : Bool} {d : Disk} {place : Place}

/-! ## Passes -/

/-- A pass leaves the disk as it is, or writes over its file and is reported as having written. -/
theorem Pass.overwritten_of_run {p : Pass} {saved : Revision.Saved}
    (h : p.run d write = .ok saved) :
    saved.disk = d ∨ (saved.changed && write) = true ∧
      ∃ own bytes, d.placeOf p.path = .ok own ∧ d.Overwritten own bytes saved.disk := by
  obtain ⟨region, text, out, -, htext, -, -, hdisk⟩ := exists_of_run h
  split at hdisk
  · next hwrite =>
      obtain ⟨own, d', hown, hwritten, hover⟩ := Disk.exists_overwritten htext (String.join out)
      obtain rfl := Except.ok.inj (hwritten.symm.trans hdisk)
      refine .inr ⟨?_, own, _, hown, hover⟩
      rwa [Bool.and_comm]
  · exact .inl hdisk

theorem Pass.placeOf_of_run {p : Pass} {saved : Revision.Saved} (h : p.run d write = .ok saved)
    (q : Path) : saved.disk.placeOf q = d.placeOf q := by
  rcases overwritten_of_run h with hsame | ⟨-, _, _, -, hover⟩
  · rw [hsame]
  · exact hover.placeOf_eq q

theorem Pass.placeOf_after (p : Pass) (d : Disk) (write : Bool) (q : Path) :
    (p.after d write).placeOf q = d.placeOf q := by
  unfold Pass.after
  split
  · rfl
  · next hrun => exact Pass.placeOf_of_run hrun q

theorem placeOf_runPasses (ps : List Pass) (q : Path) :
    (runPasses root write d ps).disk.placeOf q = d.placeOf q := by
  induction ps generalizing d with
  | nil => rfl
  | cons p ps ih =>
      cases hrun : p.run d write with
      | error failure => simp only [runPasses, hrun]
      | ok saved =>
          rw [runPasses_cons_of_run hrun]
          exact (ih (d := saved.disk)).trans (Pass.placeOf_of_run hrun q)

/-- Where something else stands after some passes, one of them is reported as having written to its
file there. -/
theorem exists_wrote_of_differs {ps : List Pass}
    (h : (runPasses root write d ps).disk.get? place ≠ d.get? place) :
    ∃ p ∈ ps, ∃ changed, p.report root changed write ∈ (runPasses root write d ps).updates ∧
      (changed && write) = true ∧ d.placeOf p.path = .ok place := by
  induction ps generalizing d with
  | nil => exact (h rfl).elim
  | cons p ps ih =>
      cases hrun : p.run d write with
      | error failure => simp [runPasses, hrun] at h
      | ok saved =>
          rw [runPasses_cons_of_run hrun] at h ⊢
          by_cases hfirst : saved.disk.get? place = d.get? place
          · -- The place is as it was behind the first pass, so a later one has written there.
            rw [← hfirst] at h
            obtain ⟨q, hq, changed, hreport, hwrote, hplace⟩ := ih h
            rw [Pass.placeOf_of_run hrun] at hplace
            exact ⟨q, List.mem_cons_of_mem p hq, changed, List.mem_cons_of_mem _ hreport, hwrote,
              hplace⟩
          · rcases Pass.overwritten_of_run hrun with hsame | ⟨hwrote, own, _, hown, hover⟩
            · exact (hfirst (by rw [hsame])).elim
            · have hplace : place = own := by
                by_contra hne
                exact hfirst (hover.other place hne)
              rw [hplace]
              exact ⟨p, List.mem_cons_self, saved.changed, List.mem_cons_self, hwrote, hown⟩

/-! ## Updates and checks -/

section

variable {s : Settings} {lints : List Lint}

theorem wrote_of_mem_reports {table count group : Bool} {u : RegionUpdate}
    (h : u ∈ reports s write table count group) : u.wrote = (u.changed && write) := by
  simp only [reports, List.mem_cons, List.not_mem_nil, or_false] at h
  rcases h with rfl | rfl | rfl <;> rfl

/-- The summary counts what is reported. -/
theorem updatesDocument_of_wrote {updates : List RegionUpdate} (n : Nat)
    (h : ∀ u ∈ updates, u.wrote = (u.changed && write)) :
    Report.updatesDocument updates n =
      .record [("results", .list (updates.map Report.updateRecord)),
        ("summary", .record [("lints", .number n), ("regions", .number updates.length),
          ("changed", .number (updates.countP (·.changed))),
          ("wrote", .number (if write then updates.countP (·.changed) else 0))])] := by
  have hcount : updates.countP (·.wrote) = updates.countP fun u => u.changed && write :=
    List.countP_congr fun u hu => by rw [h u hu]
  rw [Report.updatesDocument, hcount]
  cases write <;> simp

theorem path_of_mem_passes {p : Pass} (hp : p ∈ passes s lints) :
    p.path = s.readmePath ∨ p.path = s.entryPath := by
  rw [passes_eq] at hp
  simp only [List.mem_cons, List.not_mem_nil, or_false] at hp
  rcases hp with rfl | rfl | rfl
  exacts [.inl rfl, .inl rfl, .inr rfl]

/-- Elsewhere than at the two files, everything stands as it did. -/
theorem get?_run_of_elsewhere (hreadme : d.placeOf s.readmePath ≠ .ok place)
    (hentry : d.placeOf s.entryPath ≠ .ok place) :
    (run d s lints write).disk.get? place = d.get? place := by
  by_contra hdiffers
  obtain ⟨p, hp, -, -, -, hplace⟩ := exists_wrote_of_differs hdiffers
  rcases path_of_mem_passes hp with hpath | hpath
  · exact hreadme (hpath ▸ hplace)
  · exact hentry (hpath ▸ hplace)

variable (hroot : s.root.isAbsolute)

include hroot

/-- Where something else stands afterwards, a listing is reported as written. -/
theorem exists_shown_of_differs (h : (run d s lints write).disk.get? place ≠ d.get? place) :
    ∃ u ∈ (run d s lints write).updates, u.wrote = true ∧
      d.placeOf (s.root.join ⟨u.file⟩) = .ok place := by
  obtain ⟨p, hp, changed, hreport, hwrote, hplace⟩ := exists_wrote_of_differs h
  have habsolute : p.path.isAbsolute := by
    rcases path_of_mem_passes hp with hpath | hpath
    · rw [hpath]
      exact Path.isAbsolute_join hroot _
    · rw [hpath]
      exact Path.isAbsolute_join hroot _
  exact ⟨_, hreport, hwrote, Disk.placeOf_join_shownFrom hroot habsolute hplace⟩

/-- What is shown of a file that settings name leads to the file, before an update and after it. -/
theorem exists_place_of_shown {file : Path} (h : d.placeOf (s.root.join file) = .ok place) :
    ∃ place, d.placeOf (s.root.join file) = .ok place ∧
      d.placeOf (s.root.join ⟨Path.shownFrom s.root (s.root.join file)⟩) = .ok place ∧
      (run d s lints write).disk.placeOf
        (s.root.join ⟨Path.shownFrom s.root (s.root.join file)⟩) = .ok place := by
  have hthere := Disk.placeOf_join_shownFrom hroot (Path.isAbsolute_join hroot file) h
  exact ⟨place, h, hthere, (placeOf_runPasses _ _).trans hthere⟩

end

/-- An update or a check in which nothing fails reports the table, the sentence and the group, in
this order, and counts in its summary what it reports. What is shown of a file, seen from the root,
leads to the file that was gone over. No other file differs afterwards, and where one differs, a
listing is reported as written to it. -/
theorem run_reports_disk {s : Settings} {lints : List Lint} (hroot : s.root.isAbsolute)
    (hrun : (run d s lints write).failure = none) :
    let result := run d s lints write
    result.updates.map (·.region) = ["table", "count", "group"] ∧
      (∀ u ∈ result.updates, u.wrote = (u.changed && write)) ∧
      (∀ n, Report.updatesDocument result.updates n =
        .record [("results", .list (result.updates.map Report.updateRecord)),
          ("summary", .record [("lints", .number n), ("regions", .number 3),
            ("changed", .number (result.updates.countP (·.changed))),
            ("wrote", .number (if write then result.updates.countP (·.changed) else 0))])]) ∧
      List.Forall₂ (fun path u => ∃ place, d.placeOf path = .ok place ∧
          d.placeOf (s.root.join ⟨u.file⟩) = .ok place ∧
          result.disk.placeOf (s.root.join ⟨u.file⟩) = .ok place)
        [s.readmePath, s.readmePath, s.entryPath] result.updates ∧
      (∀ place, d.placeOf s.readmePath ≠ .ok place → d.placeOf s.entryPath ≠ .ok place →
        result.disk.get? place = d.get? place) ∧
      ∀ place, result.disk.get? place ≠ d.get? place →
        ∃ u ∈ result.updates, u.wrote = true ∧ d.placeOf (s.root.join ⟨u.file⟩) = .ok place := by
  intro result
  obtain ⟨table, count, group, hfinds⟩ := exists_finds hrun
  have hupdates : result.updates = reports s write table count group := hfinds.updates
  have hwrote : ∀ u ∈ result.updates, u.wrote = (u.changed && write) :=
    fun u hu => wrote_of_mem_reports (hupdates ▸ hu)
  obtain ⟨readme, hreadme⟩ := Pass.placeOf_of_verdict hfinds.table
  obtain ⟨entry, hentry⟩ := Pass.placeOf_of_verdict hfinds.group
  rw [Pass.placeOf_after, Pass.placeOf_after] at hentry
  refine ⟨?_, hwrote, ?_, ?_, ?_, ?_⟩
  · rw [hupdates]
    rfl
  · intro n
    have hlength : result.updates.length = 3 := by rw [hupdates]; rfl
    rw [updatesDocument_of_wrote n hwrote, hlength]
  · rw [hupdates]
    exact .cons (exists_place_of_shown hroot hreadme) (.cons (exists_place_of_shown hroot hreadme)
      (.cons (exists_place_of_shown hroot hentry) .nil))
  · exact fun place => get?_run_of_elsewhere
  · exact fun place => exists_shown_of_differs hroot

def aliasedDisk : Disk :=
  ⟨[(["p"], .directory), (["p", "README.md"], .file "name |\n\n".toUTF8)]⟩

/-- Settings that name the readme as the entry, seen from a root that goes up and down again. -/
def aliasedSettings : Settings :=
  { Settings.ofConfig ⟨"/p/../p"⟩ none none with entry := "/p/README.md" }

theorem run_reports_disk_aliased :
    let result := run aliasedDisk aliasedSettings [] true
    result.updates.map (·.file) = ["README.md", "README.md", "/p/README.md"] ∧
      result.updates.map (·.wrote) = [true, false, false] ∧
      result.disk.readText ⟨"/p/README.md"⟩ = .ok "name | default | meaning\n-|---------|-\n\n" ∧
      (∀ u ∈ result.updates,
        aliasedDisk.placeOf (aliasedSettings.root.join ⟨u.file⟩) = .ok ["p", "README.md"]) ∧
      ∀ place ≠ ["p", "README.md"], result.disk.get? place = aliasedDisk.get? place := by
  intro result
  have hreadme : aliasedDisk.placeOf aliasedSettings.readmePath = .ok ["p", "README.md"] := by
    decide +kernel
  have hentry : aliasedDisk.placeOf aliasedSettings.entryPath = .ok ["p", "README.md"] := by
    decide +kernel
  have hrun : result.failure = none ∧
      result.updates.map (·.file) = ["README.md", "README.md", "/p/README.md"] ∧
      result.updates.map (·.wrote) = [true, false, false] ∧
      result.disk.readText ⟨"/p/README.md"⟩ = .ok "name | default | meaning\n-|---------|-\n\n" := by
    decide +kernel
  obtain ⟨hnone, hshown, hwrote, htext⟩ := hrun
  obtain ⟨-, -, -, hfiles, hothers, -⟩ := run_reports_disk (by decide) hnone
  refine ⟨hshown, hwrote, htext, ?_, ?_⟩
  · intro u hu
    simp only [List.forall₂_cons_left_iff, List.forall₂_nil_left_iff, hreadme, hentry,
      Except.ok.injEq, exists_eq_left'] at hfiles
    obtain ⟨table, _, ⟨htable, -⟩, ⟨count, _, ⟨hcount, -⟩, ⟨group, _, ⟨hgroup, -⟩, rfl, rfl⟩,
      rfl⟩, hupdates⟩ := hfiles
    rw [hupdates] at hu
    simp only [List.mem_cons, List.not_mem_nil, or_false] at hu
    rcases hu with rfl | rfl | rfl <;> assumption
  · intro place hplace
    refine hothers place ?_ ?_
    · rw [hreadme]
      rintro ⟨⟩
      exact hplace rfl
    · rw [hentry]
      rintro ⟨⟩
      exact hplace rfl

end Update

end LintLedger
