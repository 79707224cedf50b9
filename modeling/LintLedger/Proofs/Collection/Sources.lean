import LintLedger.Proofs.Declaration.Expression
import LintLedger.Proofs.Disk.Writing
import LintLedger.Proofs.Glob.Below

/-!
# Collected sources

From which files lints are collected, and in which order: all files below the directory whose name
ends with a dot and the extension, each once, in the strict order of their places. Names that have a
meaning in file name patterns are taken as they are. The first file that is no text ends the
collection.
-/

namespace LintLedger

/-! ## Reading a file by its place -/

namespace Disk

variable {d : Disk} {place : Place} {bytes : ByteArray}

def textAt? (d : Disk) (place : Place) : Option String :=
  match d.get? place with
  | some (.file bytes) => String.fromUTF8? bytes
  | _ => none

theorem readText_ofPlace (hd : d.WellFormed) (h : d.get? place = some (.file bytes)) :
    d.readText (Path.ofPlace place) =
      match d.textAt? place with
      | some text => .ok text
      | none => .error .notText := by
  have hplace := placeOf_ofPlace hd h (ne_root_of_file h)
  rw [textAt?, h]
  dsimp only
  cases hbytes : String.fromUTF8? bytes with
  | some text => exact readText_of_file hplace h hbytes
  | none =>
      rw [readText, lookup_of_file hplace h]
      simp [hbytes, bind, Except.bind, throw, throwThe, MonadExceptOf.throw]

end Disk

namespace Collection

variable {d : Disk} {p : Pattern}

/-! ## Reading the files -/

/-- The lints of the file at a place; its module is named after it. -/
def lintsAt (d : Disk) (p : Pattern) (place : Place) : List Lint :=
  match d.textAt? place with
  | some text => Declaration.extract p (Path.stem (place.getLastD "")) text
  | none => []

theorem scanFile_ofPlace (hd : d.WellFormed) {place : Place} {bytes : ByteArray}
    (h : d.get? place = some (.file bytes)) :
    scanFile d p (Path.ofPlace place) =
      if (d.textAt? place).isNone then .error (.read (Path.ofPlace place) .notText)
      else .ok (lintsAt d p place) := by
  have hne := Disk.ne_root_of_file h
  obtain ⟨front, name, hfront⟩ := (List.eq_nil_or_concat' place).resolve_left hne
  have hname : Path.IsStep name := Disk.isStep_of_get? hd h name (by simp [hfront])
  have hstem : (Path.ofPlace place).fileStem = Path.stem (place.getLastD "") := by
    rw [Path.fileStem, hfront, Path.fileName?_ofPlace_concat front hname]
    simp
  rw [scanFile, Disk.readText_ofPlace hd h, hstem, lintsAt]
  cases d.textAt? place <;> simp

theorem result_cons (path : Path) (lints : List Lint) (h : Harvest) :
    Harvest.result ⟨(path, lints) :: h.files, h.failure⟩ = h.result.map (lints ++ ·) := by
  unfold Harvest.result Harvest.lints
  cases h.failure <;> simp [Except.map]

/-- Reading the files at some places gives all their lints, one file after the other, or ends at the
first file that is no text. -/
theorem result_scanFiles (hd : d.WellFormed) {files : List Place}
    (hfiles : ∀ place ∈ files, ∃ bytes, d.get? place = some (.file bytes)) :
    (scanFiles d p (files.map Path.ofPlace)).result =
      match files.find? fun place => (d.textAt? place).isNone with
      | some place => .error (.read (Path.ofPlace place) .notText)
      | none => .ok (files.flatMap (lintsAt d p)) := by
  induction files with
  | nil => rfl
  | cons place files ih =>
      obtain ⟨bytes, hfile⟩ := hfiles place List.mem_cons_self
      have hrest := ih fun other hother => hfiles other (List.mem_cons_of_mem place hother)
      rw [List.map_cons, scanFiles, scanFile_ofPlace hd hfile]
      by_cases hnone : (d.textAt? place).isNone
      · simp [hnone, Harvest.result]
      · have hfind : (place :: files).find? (fun place => (d.textAt? place).isNone) =
            files.find? fun place => (d.textAt? place).isNone := by
          simp [hnone]
        rw [if_neg hnone, hfind]
        dsimp only
        rw [result_cons, hrest]
        cases files.find? fun place => (d.textAt? place).isNone <;> simp [Except.map]

/-! ## The files -/

/-- A file at any depth below a base whose name ends with a dot and an extension. -/
def IsSource (d : Disk) (base : Place) (extension : String) (place : Place) : Prop :=
  ∃ directories front bytes, place = base ++ directories ++ [front ++ "." ++ extension] ∧
    d.get? place = some (.file bytes)

theorem isSource_entry_iff {extension : String} {e : Place × Entry} :
    Glob.isSource extension e ↔ ∃ directories front bytes,
      e = (directories ++ [front ++ "." ++ extension], .file bytes) := by
  obtain ⟨names, entry⟩ := e
  unfold Glob.isSource
  cases entry with
  | directory => simp
  | file bytes =>
      cases List.eq_nil_or_concat' names with
      | inl hnil => simp [hnil]
      | inr hconcat =>
          obtain ⟨front, name, rfl⟩ := hconcat
          rw [List.getLast?_concat]
          dsimp only
          rw [Glob.matchesName_suffixTokens]
          constructor
          · rintro ⟨cs, hcs⟩
            refine ⟨front, String.ofList cs, bytes, ?_⟩
            have hname : name = String.ofList cs ++ "." ++ extension := by
              apply String.toList_injective
              simp [hcs]
            rw [hname]
          · rintro ⟨directories, stem, bytes', heq⟩
            obtain ⟨-, hlast⟩ := List.append_inj' (Prod.mk.inj heq).1 rfl
            refine ⟨stem.toList, ?_⟩
            rw [(List.cons.inj hlast).1]
            simp

def sourcesBelow (d : Disk) (base : Place) (extension : String) : List Place :=
  ((d.below base).filter (Glob.isSource extension)).map fun e => base ++ e.1

theorem mem_sourcesBelow_iff (hd : d.WellFormed) {base place : Place} {extension : String} :
    place ∈ sourcesBelow d base extension ↔ IsSource d base extension place := by
  simp only [sourcesBelow, List.mem_map, List.mem_filter, isSource_entry_iff]
  constructor
  · rintro ⟨e, ⟨hbelow, directories, front, bytes, rfl⟩, rfl⟩
    obtain ⟨-, hentry⟩ := (Disk.mem_below_iff hd).1 hbelow
    exact ⟨directories, front, bytes, by rw [List.append_assoc], hentry⟩
  · rintro ⟨directories, front, bytes, rfl, hentry⟩
    rw [List.append_assoc] at hentry
    refine ⟨(directories ++ [front ++ "." ++ extension], .file bytes),
      ⟨(Disk.mem_below_iff hd).2 ⟨by simp, hentry⟩, directories, front, bytes, rfl⟩, ?_⟩
    rw [List.append_assoc]

theorem pairwise_sourcesBelow (hd : d.WellFormed) (base : Place) (extension : String) :
    (sourcesBelow d base extension).Pairwise (· < ·) := by
  rw [sourcesBelow, List.pairwise_map]
  exact (Disk.pairwise_below hd base).filter _

/-- The lints are collected from all files with the extension at any depth below the directory,
each once and in the ascending order of their places, whatever characters the names have. If all
these files are texts, the result is their lints one file after the other; otherwise it is a failure
to read the first that is none. -/
theorem harvest_sources (hd : d.WellFormed) {root : Path} {scope : Scope}
    (habsolute : root.isAbsolute) (hroot : root.Descends)
    (hrelative : (Path.mk scope.sourceDir).isAbsolute = false)
    (hdirectory : (Path.mk scope.sourceDir).Descends)
    (hextension : ∀ c ∈ scope.extension.toList, c ∉ ['*', '?', '[', '/']) :
    ∃ (p : Pattern) (files : List Place), Declaration.pattern scope.macroName = .ok p ∧
      files.Pairwise (· < ·) ∧
      (∀ place, place ∈ files ↔
        IsSource d (root.names ++ (Path.mk scope.sourceDir).names) scope.extension place) ∧
      (harvest d root scope).result =
        match files.find? fun place => (d.textAt? place).isNone with
        | some place => .error (.read (Path.ofPlace place) .notText)
        | none => .ok (files.flatMap (lintsAt d p)) := by
  have hpattern := Declaration.pattern_eq scope.macroName
  have hnames := Path.names_join root hrelative
  have hbase := Path.isAbsolute_join habsolute ⟨scope.sourceDir⟩
  have hdescends : (root.join ⟨scope.sourceDir⟩).Descends := by
    intro name hname
    rw [hnames] at hname
    rcases List.mem_append.1 hname with hmem | hmem
    · exact hroot name hmem
    · exact hdirectory name hmem
  have hsources := Glob.sources_eq hd hbase hdescends hextension
  rw [hnames] at hsources
  refine ⟨_, sourcesBelow d (root.names ++ (Path.mk scope.sourceDir).names) scope.extension,
    hpattern, pairwise_sourcesBelow hd _ _, fun place => mem_sourcesBelow_iff hd, ?_⟩
  rw [← result_scanFiles hd]
  · rw [harvest, hpattern]
    dsimp only
    rw [hsources, sourcesBelow, List.map_map]
    rfl
  · intro place hplace
    obtain ⟨_, _, bytes, -, hfile⟩ := (mem_sourcesBelow_iff hd).1 hplace
    exact ⟨bytes, hfile⟩

/-- A tree with names that would mean something in a pattern, with a hidden file, a directory named
like a source, and a file in it that is no text. The sources beside it are all texts. -/
def starredDisk : Disk :=
  ⟨[(["p[1]"], .directory), (["p[1]", "s*c"], .directory), (["p[1]", "sc"], .directory),
    (["p[1]", "sc", "b.rs"], .file "declare_lint!(pub B, Deny, \"y\")".toUTF8),
    (["p[1]", "s*c", ".a.rs"], .file "declare_lint!(pub A, Warn, \"x\")".toUTF8),
    (["p[1]", "s*c", "d.rs"], .directory),
    (["p[1]", "s*c", "d.rs", "e.x.rs"], .file ⟨#[0xff]⟩),
    (["p[1]", "sc", "a"], .directory),
    (["p[1]", "sc", "a", "c.rs"], .file "declare_lint!(pub C_C, Allow, \"z\")".toUTF8)]⟩

private theorem wellFormed_starredDisk : starredDisk.WellFormed :=
  ⟨by decide +kernel, by decide +kernel⟩

section

variable {place : Place} {bytes : ByteArray} (h : starredDisk.get? place = some (.file bytes))

include h

/-- What holds of every place with a file holds of those that the disk lists. -/
private theorem of_starredDisk (q : Place → Bool)
    (hall : ∀ e ∈ starredDisk.entries, starredDisk.isFile (Path.ofPlace e.1) → q e.1) : q place := by
  have hmem := Disk.mem_of_get? h (Disk.ne_root_of_file h)
  have hsteps := Disk.isStep_of_get? wellFormed_starredDisk h
  exact hall _ hmem
    ((Disk.isFile_ofPlace_iff wellFormed_starredDisk hsteps (Disk.ne_root_of_file h)).2 ⟨bytes, h⟩)

private theorem eq_of_starredDisk (hnone : (starredDisk.textAt? place).isNone) :
    place = ["p[1]", "s*c", "d.rs", "e.x.rs"] := by
  have hall := of_starredDisk h
    (fun place => !(starredDisk.textAt? place).isNone || place = ["p[1]", "s*c", "d.rs", "e.x.rs"])
    (by decide +kernel)
  simpa [hnone] using hall

private theorem mem_of_starredDisk (hbelow : ["p[1]", "sc"].isPrefixOf place) :
    place ∈ [["p[1]", "sc", "a", "c.rs"], ["p[1]", "sc", "b.rs"]] := by
  have hall := of_starredDisk h
    (fun place => !(["p[1]", "sc"].isPrefixOf place) ||
      place ∈ [["p[1]", "sc", "a", "c.rs"], ["p[1]", "sc", "b.rs"]])
    (by decide +kernel)
  simpa [hbelow] using hall

end

/-- The sources beside the ones with the strange names. -/
private theorem eq_of_mem_starredDisk {files : List Place} (hsorted : files.Pairwise (· < ·))
    (hfiles : ∀ place, place ∈ files ↔ IsSource starredDisk ["p[1]", "sc"] "rs" place) :
    files = [["p[1]", "sc", "a", "c.rs"], ["p[1]", "sc", "b.rs"]] := by
  have hinner := @Disk.get?_of_mem starredDisk ["p[1]", "sc", "a", "c.rs"] _
    wellFormed_starredDisk (.tail _ (.tail _ (.tail _ (.tail _ (.tail _ (.tail _ (.tail _
      (.tail _ (.head _)))))))))
  have houter := @Disk.get?_of_mem starredDisk ["p[1]", "sc", "b.rs"] _
    wellFormed_starredDisk (.tail _ (.tail _ (.tail _ (.head _))))
  refine hsorted.eq_of_mem_iff (by decide) fun place => ?_
  rw [hfiles]
  constructor
  · rintro ⟨directories, front, bytes, rfl, hfile⟩
    exact mem_of_starredDisk hfile (by simp)
  · intro hplace
    rcases List.mem_pair.1 hplace with rfl | rfl
    · exact ⟨["a"], "c", _, by decide +kernel, hinner⟩
    · exact ⟨[], "b", _, by decide +kernel, houter⟩

theorem harvest_sources_starred :
    (∃ files : List Place, ["p[1]", "s*c", ".a.rs"] ∈ files ∧
      ["p[1]", "s*c", "d.rs"] ∉ files ∧ ["p[1]", "sc", "b.rs"] ∉ files ∧
      (harvest starredDisk ⟨"/p[1]"⟩ ⟨"s*c", "rs", "declare_lint"⟩).result =
        .error (.read ⟨"/p[1]/s*c/d.rs/e.x.rs"⟩ .notText)) ∧
    (harvest starredDisk ⟨"/p[1]"⟩ ⟨"sc", "rs", "declare_lint"⟩).result =
      .ok [⟨"c", "c_c", .allow, "z"⟩, ⟨"b", "b", .deny, "y"⟩] := by
  have hroot : (Path.mk "/p[1]").Descends := by
    unfold Path.Descends
    decide +kernel
  have hdirectories : (Path.mk "s*c").Descends ∧ (Path.mk "sc").Descends := by
    unfold Path.Descends
    decide +kernel
  constructor
  · have hbase : (Path.mk "/p[1]").names ++ (Path.mk "s*c").names = ["p[1]", "s*c"] := by
      decide +kernel
    obtain ⟨p, files, -, -, hfiles, hresult⟩ :=
      @harvest_sources starredDisk wellFormed_starredDisk ⟨"/p[1]"⟩ ⟨"s*c", "rs", "declare_lint"⟩
        (by decide +kernel) hroot (by decide +kernel) hdirectories.1 (by simp)
    rw [hbase] at hfiles
    have hhidden := @Disk.get?_of_mem starredDisk ["p[1]", "s*c", ".a.rs"] _ wellFormed_starredDisk
      (.tail _ (.tail _ (.tail _ (.tail _ (.head _)))))
    have hlast := @Disk.get?_of_mem starredDisk ["p[1]", "s*c", "d.rs", "e.x.rs"] _
      wellFormed_starredDisk (.tail _ (.tail _ (.tail _ (.tail _ (.tail _ (.tail _ (.head _)))))))
    refine ⟨files, (hfiles _).2 ⟨[], ".a", _, by decide +kernel, hhidden⟩, fun hmem => ?_,
      fun hmem => ?_, ?_⟩
    · obtain ⟨_, _, bytes, -, hfile⟩ := (hfiles _).1 hmem
      simp [Disk.get?, starredDisk] at hfile
    · obtain ⟨directories, front, bytes, hplace, -⟩ := (hfiles _).1 hmem
      simp at hplace
    · rw [hresult]
      split
      · next place hfind =>
          obtain ⟨_, _, bytes, -, hfile⟩ := (hfiles _).1 (List.mem_of_find?_eq_some hfind)
          have hnone := List.find?_some hfind
          rw [eq_of_starredDisk hfile hnone]
          rfl
      · next hfind =>
          have hmem := (hfiles _).2 ⟨["d.rs"], "e.x", _, by decide +kernel, hlast⟩
          exact absurd (by decide +kernel) (List.find?_eq_none.1 hfind _ hmem)
  · have hbase : (Path.mk "/p[1]").names ++ (Path.mk "sc").names = ["p[1]", "sc"] := by
      decide +kernel
    obtain ⟨p, files, hp, hsorted, hfiles, hresult⟩ :=
      @harvest_sources starredDisk wellFormed_starredDisk ⟨"/p[1]"⟩ ⟨"sc", "rs", "declare_lint"⟩
        (by decide +kernel) hroot (by decide +kernel) hdirectories.2 (by simp)
    rw [hbase] at hfiles
    have hall := eq_of_mem_starredDisk hsorted hfiles
    have htexts : files.find? (fun place => (starredDisk.textAt? place).isNone) = none := by
      rw [hall]
      decide +kernel
    have hlints : (Declaration.pattern "declare_lint").toOption.map (fun p =>
          [["p[1]", "sc", "a", "c.rs"], ["p[1]", "sc", "b.rs"]].flatMap (lintsAt starredDisk p)) =
        some [⟨"c", "c_c", .allow, "z"⟩, ⟨"b", "b", .deny, "y"⟩] := by
      decide +kernel
    rw [hp, ← hall] at hlints
    rw [hresult, htexts]
    exact congrArg Except.ok (Option.some.inj hlints)

end Collection

end LintLedger
