import LintLedger.Disk

/-!
# Writing over a file

A file that can be read can be written over. That moves no path: every path leads where it led
before. The path that was written reads as the new text, and a path that leads elsewhere reads
as it did.
-/

namespace LintLedger

def Entry.isFile : Entry → Bool
  | .directory => false
  | .file _ => true

namespace Disk

/-- Whether two disks differ at most in what the file that a path leads to holds. -/
structure AgreesBut (d : Disk) (p : Path) (d' : Disk) : Prop where
  placeOf : ∀ q, d'.placeOf q = d.placeOf q
  isFile : ∀ q, d'.isFile q = d.isFile q
  readText : ∀ q, d.placeOf q ≠ d.placeOf p → d'.readText q = d.readText q

theorem AgreesBut.refl (d : Disk) (p : Path) : d.AgreesBut p d :=
  ⟨fun _ => rfl, fun _ => rfl, fun _ _ => rfl⟩

theorem AgreesBut.trans {d d₁ d₂ : Disk} {p : Path} (h₁ : d.AgreesBut p d₁)
    (h₂ : d₁.AgreesBut p d₂) : d.AgreesBut p d₂ where
  placeOf q := (h₂.placeOf q).trans (h₁.placeOf q)
  isFile q := (h₂.isFile q).trans (h₁.isFile q)
  readText q hq := by
    have hq₁ : d₁.placeOf q ≠ d₁.placeOf p := by rwa [h₁.placeOf, h₁.placeOf]
    rw [h₂.readText q hq₁, h₁.readText q hq]

variable {d d' : Disk} {p : Path} {text : String}

theorem readText_eq_ok (h : d.readText p = .ok text) :
    ∃ place bytes, d.placeOf p = .ok place ∧ d.get? place = some (.file bytes) ∧
      String.fromUTF8? bytes = some text := by
  unfold readText lookup at h
  cases hplace : d.placeOf p with
  | error fault => simp [hplace, bind, Except.bind] at h
  | ok place =>
      cases hentry : d.get? place with
      | none => simp [hplace, hentry, bind, Except.bind, throw, throwThe, MonadExceptOf.throw] at h
      | some entry =>
          cases entry with
          | directory =>
              simp [hplace, hentry, bind, Except.bind, pure, Except.pure, throw, throwThe,
                MonadExceptOf.throw] at h
          | file bytes =>
              refine ⟨place, bytes, rfl, hentry, ?_⟩
              cases hbytes : String.fromUTF8? bytes with
              | none =>
                  simp [hplace, hentry, hbytes, bind, Except.bind, pure, Except.pure, throw,
                    throwThe, MonadExceptOf.throw] at h
              | some found =>
                  simp only [hplace, hentry, hbytes, bind, Except.bind, pure, Except.pure,
                    Except.ok.injEq] at h
                  rw [h]

theorem lookup_of_file {place : Place} {bytes : ByteArray} (hplace : d.placeOf p = .ok place)
    (hentry : d.get? place = some (.file bytes)) : d.lookup p = .ok (.file bytes) := by
  simp [lookup, hplace, hentry, bind, Except.bind, pure, Except.pure]

theorem readText_of_file {place : Place} {bytes : ByteArray} (hplace : d.placeOf p = .ok place)
    (hentry : d.get? place = some (.file bytes)) (hbytes : String.fromUTF8? bytes = some text) :
    d.readText p = .ok text := by
  simp [readText, lookup_of_file hplace hentry, hbytes, bind, Except.bind, pure, Except.pure]

theorem ne_root_of_file {place : Place} {bytes : ByteArray}
    (h : d.get? place = some (.file bytes)) : place ≠ [] := by
  rintro rfl
  simp [get?] at h

/-! ## Disks of one shape -/

/-- Whether two disks have directories at the same places, and files at the same places, whatever
the files hold. -/
def SameShape (d d' : Disk) : Prop :=
  ∀ place, (d'.get? place).map Entry.isFile = (d.get? place).map Entry.isFile

theorem exists?_eq_isOk (d : Disk) (q : Path) :
    d.exists? q = ((d.lookup q).map Entry.isFile).isOk := by
  unfold exists?
  cases d.lookup q <;> rfl

theorem isFile_eq_getD (d : Disk) (q : Path) :
    d.isFile q = ((d.lookup q).map Entry.isFile).toOption.getD false := by
  unfold isFile
  cases d.lookup q with
  | error fault => rfl
  | ok e => cases e <;> rfl

namespace SameShape

theorem follow_eq (h : d.SameShape d') (start : Place) (names : List String) :
    d'.follow start names = d.follow start names := by
  induction names generalizing start with
  | nil => rfl
  | cons name names ih =>
      -- A file is no place to go on from, whatever it holds.
      have hstart := h start
      unfold follow
      cases hnew : d'.get? start with
      | none =>
          have hold : d.get? start = none := by simpa [hnew] using hstart.symm
          rw [hold]
      | some e =>
          obtain ⟨old, hold, hsame⟩ : ∃ old, d.get? start = some old ∧ old.isFile = e.isFile := by
            simpa [hnew] using hstart.symm
          rw [hold]
          cases e with
          | directory =>
              cases old with
              | directory => simp only [ih]
              | file bytes => cases hsame
          | file bytes =>
              cases old with
              | directory => cases hsame
              | file old => rfl

theorem placeOf_eq (h : d.SameShape d') (q : Path) : d'.placeOf q = d.placeOf q := by
  simp only [placeOf, h.follow_eq]

theorem lookup_eq (h : d.SameShape d') (q : Path) :
    (d'.lookup q).map Entry.isFile = (d.lookup q).map Entry.isFile := by
  unfold lookup
  rw [h.placeOf_eq]
  cases hplace : d.placeOf q with
  | error fault => rfl
  | ok place =>
      have hentry := h place
      cases hnew : d'.get? place with
      | none =>
          have hold : d.get? place = none := by simpa [hnew] using hentry.symm
          simp [hnew, hold, bind, Except.bind]
      | some e =>
          obtain ⟨old, hold, hsame⟩ : ∃ old, d.get? place = some old ∧ old.isFile = e.isFile := by
            simpa [hnew] using hentry.symm
          simp [hnew, hold, hsame, bind, Except.bind, Except.map, pure, Except.pure]

theorem exists?_eq (h : d.SameShape d') (q : Path) : d'.exists? q = d.exists? q := by
  rw [exists?_eq_isOk, h.lookup_eq, exists?_eq_isOk]

theorem isFile_eq (h : d.SameShape d') (q : Path) : d'.isFile q = d.isFile q := by
  rw [isFile_eq_getD, h.lookup_eq, isFile_eq_getD]

end SameShape

/-! ## Other bytes in a file -/

/-- Whether a disk is as it was but for a file, which holds the given bytes. -/
structure Overwritten (d : Disk) (place : Place) (bytes : ByteArray) (d' : Disk) : Prop where
  file : ∃ old, d.get? place = some (.file old)
  self : d'.get? place = some (.file bytes)
  other : ∀ q, q ≠ place → d'.get? q = d.get? q

namespace Overwritten

variable {place : Place} {bytes : ByteArray}

theorem sameShape (h : d.Overwritten place bytes d') : d.SameShape d' := by
  intro q
  by_cases hq : q = place
  · obtain ⟨old, hold⟩ := h.file
    rw [hq, h.self, hold]
    rfl
  · rw [h.other q hq]

theorem placeOf_eq (h : d.Overwritten place bytes d') (q : Path) :
    d'.placeOf q = d.placeOf q :=
  h.sameShape.placeOf_eq q

theorem lookup_eq_of_ne (h : d.Overwritten place bytes d') {q : Path}
    (hq : d.placeOf q ≠ .ok place) : d'.lookup q = d.lookup q := by
  unfold lookup
  rw [h.placeOf_eq]
  cases hother : d.placeOf q with
  | error fault => rfl
  | ok other =>
      have hne : other ≠ place := by
        rintro rfl
        exact hq hother
      simp only [bind, Except.bind, h.other other hne]

theorem agreesBut (h : d.Overwritten place bytes d') (hp : d.placeOf p = .ok place) :
    d.AgreesBut p d' where
  placeOf := h.placeOf_eq
  isFile := h.sameShape.isFile_eq
  readText q hq := by
    rw [hp] at hq
    rw [readText, h.lookup_eq_of_ne hq, readText]

end Overwritten

theorem overwritten_set {place : Place} {old : ByteArray} (h : d.get? place = some (.file old))
    (bytes : ByteArray) : d.Overwritten place bytes (d.set place (.file bytes)) where
  file := ⟨old, h⟩
  self := get?_set_self d _ (ne_root_of_file h)
  other _ hq := get?_set_of_ne d _ hq

theorem fromUTF8?_toUTF8 (s : String) : String.fromUTF8? s.toUTF8 = some s := by
  rw [String.fromUTF8?, String.toUTF8_eq_toByteArray, dif_pos s.isValidUTF8]
  rfl

theorem eq_toUTF8_of_fromUTF8? {bytes : ByteArray} (h : String.fromUTF8? bytes = some text) :
    bytes = text.toUTF8 := by
  unfold String.fromUTF8? at h
  split at h
  · rw [← Option.some.inj h, String.toUTF8_eq_toByteArray]
    rfl
  · cases h

/-- A file that is not written holds the text that is read from it. -/
theorem overwritten_of_readText (h : d.readText p = .ok text) :
    ∃ place, d.placeOf p = .ok place ∧ d.Overwritten place text.toUTF8 d := by
  obtain ⟨place, bytes, hplace, hentry, hbytes⟩ := readText_eq_ok h
  rw [eq_toUTF8_of_fromUTF8? hbytes] at hentry
  exact ⟨place, hplace, ⟨_, hentry⟩, hentry, fun _ _ => rfl⟩

/-- Writing over a file that can be read. -/
theorem exists_overwritten {old : String} (h : d.readText p = .ok old) (text : String) :
    ∃ place d', d.placeOf p = .ok place ∧ d.writeText p text = .ok d' ∧
      d.Overwritten place text.toUTF8 d' := by
  obtain ⟨place, bytes, hplace, hentry, -⟩ := readText_eq_ok h
  refine ⟨place, d.set place (.file text.toUTF8), hplace, ?_, overwritten_set hentry _⟩
  simp [writeText, hplace, hentry, bind, Except.bind, pure, Except.pure]

theorem writeText_of_readText {old : String} (h : d.readText p = .ok old) (text : String) :
    ∃ d', d.writeText p text = .ok d' ∧ d.AgreesBut p d' ∧ d'.readText p = .ok text := by
  obtain ⟨place, d', hplace, hwritten, hover⟩ := exists_overwritten h text
  refine ⟨d', hwritten, hover.agreesBut hplace, ?_⟩
  exact readText_of_file ((hover.placeOf_eq p).trans hplace) hover.self (fromUTF8?_toUTF8 text)

end Disk

end LintLedger
