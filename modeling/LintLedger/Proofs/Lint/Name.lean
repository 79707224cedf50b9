import LintLedger.Lint
import LintLedger.Text.Case

/-!
# Names of lints

A lint is declared with a name in capital letters. It is kept and listed in lower case, and it is
registered in upper case again.
-/

namespace LintLedger.Lint

/-- A character of a name as it is declared and registered. -/
def isCapital (c : Char) : Bool :=
  ('A' ≤ c && c ≤ 'Z') || c == '_'

/-- A character of a name as it is kept and listed. -/
def isNameChar (c : Char) : Bool :=
  ('a' ≤ c && c ≤ 'z') || c == '_'

def IsName (name : String) : Prop :=
  name ≠ "" ∧ ∀ c ∈ name.toList, isNameChar c

instance (name : String) : Decidable (IsName name) :=
  decidable_of_iff (name ≠ "" ∧ name.toList.all isNameChar = true)
    (and_congr_right fun _ => List.all_eq_true)

theorem toNat_of_isCapital {c : Char} (h : isCapital c) : 65 ≤ c.toNat ∧ c.toNat ≤ 95 := by
  simp only [isCapital, Bool.or_eq_true, Bool.and_eq_true, decide_eq_true_eq, beq_iff_eq] at h
  rcases h with ⟨hlow, hhigh⟩ | rfl
  · exact ⟨hlow, Nat.le_trans hhigh (by decide)⟩
  · decide

theorem toNat_of_isNameChar {c : Char} (h : isNameChar c) : 95 ≤ c.toNat ∧ c.toNat ≤ 122 := by
  simp only [isNameChar, Bool.or_eq_true, Bool.and_eq_true, decide_eq_true_eq, beq_iff_eq] at h
  rcases h with ⟨hlow, hhigh⟩ | rfl
  · exact ⟨Nat.le_trans (by decide) hlow, hhigh⟩
  · decide

/-- What holds of all characters up to some code holds of a character with such a code. -/
private theorem of_codes (p : Char → Prop) {last : Nat} (hall : ∀ n < last + 1, p (Char.ofNat n))
    {c : Char} (hc : c.toNat ≤ last) : p c := by
  have hcode := hall c.toNat (Nat.lt_succ_of_le hc)
  rwa [Char.ofNat_toNat] at hcode

/-- The lower-case form of a declared character. -/
theorem isNameChar_toLower {c : Char} (h : isCapital c) : isNameChar c.toLower :=
  of_codes (fun c => isCapital c → isNameChar c.toLower) (by decide +kernel)
    (toNat_of_isCapital h).2 h

theorem toUpper_toLower {c : Char} (h : isCapital c) : c.toLower.toUpper = c :=
  of_codes (fun c => isCapital c → c.toLower.toUpper = c) (by decide +kernel)
    (toNat_of_isCapital h).2 h

theorem isName_lowered {name : List Char} (hne : name ≠ []) (h : ∀ c ∈ name, isCapital c) :
    IsName (String.ofList (name.map Char.toLower)) := by
  constructor
  · intro hempty
    have hlist := congrArg String.toList hempty
    rw [String.toList_ofList] at hlist
    exact hne (List.map_eq_nil_iff.1 hlist)
  · intro c hc
    rw [String.toList_ofList] at hc
    obtain ⟨d, hd, rfl⟩ := List.mem_map.1 hc
    exact isNameChar_toLower (h d hd)

/-- The upper-case form of a character of a name. -/
theorem upperChar_eq {c : Char} (h : isNameChar c) : Text.upperChar c = [c.toUpper] :=
  of_codes (fun c => isNameChar c → Text.upperChar c = [c.toUpper]) (by decide +kernel)
    (toNat_of_isNameChar h).2 h

theorem isCapital_toUpper {c : Char} (h : isNameChar c) : isCapital c.toUpper :=
  of_codes (fun c => isNameChar c → isCapital c.toUpper) (by decide +kernel)
    (toNat_of_isNameChar h).2 h

theorem toList_upper {name : String} (h : ∀ c ∈ name.toList, isNameChar c) :
    (Text.upper name).toList = name.toList.map Char.toUpper := by
  rw [Text.upper, String.toList_ofList]
  generalize name.toList = cs at h ⊢
  induction cs with
  | nil => rfl
  | cons c cs ih =>
      have hrest := ih fun d hd => h d (List.mem_cons_of_mem c hd)
      rw [List.flatMap_cons, upperChar_eq (h c List.mem_cons_self), hrest]
      rfl

/-- The upper-case form of a name. -/
theorem isCapital_of_mem_upper {name : String} (h : IsName name) {d : Char}
    (hd : d ∈ (Text.upper name).toList) : isCapital d := by
  rw [toList_upper h.2] at hd
  obtain ⟨c, hc, rfl⟩ := List.mem_map.1 hd
  exact isCapital_toUpper (h.2 c hc)

end LintLedger.Lint
