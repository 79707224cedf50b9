import LintLedger.Proofs.Declaration.Grammar

/-!
# Scanning a text for declarations

From left to right, the first declaration is taken that begins at or behind the end of the one
before. The scan of a text has one result, and a declaration that it leaves out begins inside one
that it takes.
-/

namespace LintLedger.Declaration

variable {macroName : String}

def Begins (macroName : String) (cs : List Char) : Prop :=
  ∃ (s : Spelling) (rest : List Char), s.Valid ∧ cs = s.text macroName ++ rest

/-- Whether no declaration begins in the first characters of a text, which goes on with `rest`. -/
def Quiet (macroName : String) (stretch rest : List Char) : Prop :=
  ∀ front c back, stretch = front ++ c :: back → ¬ Begins macroName (c :: back ++ rest)

/-- A declaration in a text, and the characters between it and the one before. -/
structure Sighting where
  skipped : List Char
  spelling : Spelling

/-- The declarations that a scan of a text takes. -/
inductive Scan (macroName : String) : List Char → List Sighting → Prop
  | done {cs : List Char} : Quiet macroName cs [] → Scan macroName cs []
  | next {skipped rest : List Char} {s : Spelling} {found : List Sighting} :
      Quiet macroName skipped (s.text macroName ++ rest) → s.Valid → Scan macroName rest found →
      Scan macroName (skipped ++ (s.text macroName ++ rest)) (⟨skipped, s⟩ :: found)

/-! ## One result -/

private theorem not_quiet_of_longer {front back rest cs : List Char} (hback : back ≠ [])
    (hquiet : Quiet macroName (front ++ back) rest) (hcs : cs = back ++ rest) :
    ¬ Begins macroName cs := by
  obtain ⟨c, back', rfl⟩ := List.exists_cons_of_ne_nil hback
  rw [hcs]
  exact hquiet front c back' rfl

/-- The first declaration of a text begins at one place. -/
theorem first_unique {front front' cs cs' : List Char} (hquiet : Quiet macroName front cs)
    (hquiet' : Quiet macroName front' cs') (hbegins : Begins macroName cs)
    (hbegins' : Begins macroName cs') (heq : front ++ cs = front' ++ cs') :
    front = front' ∧ cs = cs' := by
  rcases List.append_eq_append_iff.1 heq with ⟨back, rfl, hcs⟩ | ⟨back, rfl, hcs⟩
  · by_cases hback : back = []
    · subst hback
      exact ⟨(List.append_nil _).symm, hcs⟩
    · exact (not_quiet_of_longer hback hquiet' hcs hbegins).elim
  · by_cases hback : back = []
    · subst hback
      exact ⟨List.append_nil _, hcs.symm⟩
    · exact (not_quiet_of_longer hback hquiet hcs hbegins').elim

theorem not_scan_done {front cs : List Char} (hbegins : Begins macroName cs)
    (hquiet : Quiet macroName (front ++ cs) []) : False := by
  obtain ⟨s, rest, -, hcs⟩ := id hbegins
  have hne : cs ≠ [] := by
    rw [hcs]
    exact List.append_ne_nil_of_left_ne_nil (s.text_ne_nil macroName) rest
  exact not_quiet_of_longer hne hquiet (List.append_nil cs).symm hbegins

theorem Scan.unique {cs : List Char} {found other : List Sighting} (h : Scan macroName cs found)
    (h' : Scan macroName cs other) : other = found := by
  induction h generalizing other with
  | @done cs hquiet =>
      cases h' with
      | done _ => rfl
      | next _ hvalid _ => exact (not_scan_done ⟨_, _, hvalid, rfl⟩ hquiet).elim
  | @next skipped rest s found hquiet hvalid _ ih =>
      generalize hcs : skipped ++ (s.text macroName ++ rest) = cs at h'
      cases h' with
      | done hquiet' =>
          rw [← hcs] at hquiet'
          exact (not_scan_done ⟨_, _, hvalid, rfl⟩ hquiet').elim
      | @next skipped' rest' s' found' hquiet' hvalid' hscan =>
          obtain ⟨rfl, htexts⟩ := first_unique hquiet hquiet' ⟨_, _, hvalid, rfl⟩
            ⟨_, _, hvalid', rfl⟩ hcs
          obtain ⟨rfl, rfl⟩ := Spelling.unique hvalid hvalid' htexts
          rw [ih hscan]

theorem Scan.valid {cs : List Char} {found : List Sighting} (h : Scan macroName cs found) :
    ∀ x ∈ found, x.spelling.Valid := by
  induction h with
  | done _ => simp
  | next _ hvalid _ ih =>
      intro x hx
      rcases List.mem_cons.1 hx with rfl | hx
      · exact hvalid
      · exact ih x hx

/-! ## What is left out -/

/-- The declarations of a scan with the numbers of the characters in front of them. -/
def placed (macroName : String) (start : Nat) : List Sighting → List (Nat × Spelling)
  | [] => []
  | x :: xs =>
    let place := start + x.skipped.length
    (place, x.spelling) :: placed macroName (place + (x.spelling.text macroName).length) xs

/-- Whether a declaration at some place is one of those of a scan, or begins inside one. -/
def Covered (macroName : String) (placed : List (Nat × Spelling)) (place : Nat) (s : Spelling) :
    Prop :=
  (place, s) ∈ placed ∨
    ∃ q ∈ placed, q.1 < place ∧ place < q.1 + (q.2.text macroName).length

theorem Covered.cons {later : List (Nat × Spelling)} {place : Nat} {s : Spelling}
    (h : Covered macroName later place s) (first : Nat × Spelling) :
    Covered macroName (first :: later) place s := by
  rcases h with h | ⟨q, hq, hinside⟩
  · exact .inl (List.mem_cons_of_mem _ h)
  · exact .inr ⟨q, List.mem_cons_of_mem _ hq, hinside⟩

/-- Every declaration in a text is taken by the scan or begins inside one that is. -/
theorem Scan.covers {cs : List Char} {found : List Sighting} (h : Scan macroName cs found)
    {front rest : List Char} {s : Spelling} (hvalid : s.Valid)
    (hcs : cs = front ++ (s.text macroName ++ rest)) (start : Nat) :
    Covered macroName (placed macroName start found) (start + front.length) s := by
  induction h generalizing front start with
  | done hquiet =>
      rw [hcs] at hquiet
      exact (not_scan_done ⟨_, _, hvalid, rfl⟩ hquiet).elim
  | @next skipped after t found hquiet hvalid' _ ih =>
      rcases List.append_eq_append_iff.1 hcs with ⟨behind, rfl, hback⟩ | ⟨between, rfl, hback⟩
      · -- Behind what is skipped it begins with the first one, inside it, or behind its end.
        by_cases hbehind : behind = []
        · subst hbehind
          obtain ⟨rfl, -⟩ := Spelling.unique hvalid' hvalid hback
          left
          simp [placed]
        have hlater : ∀ later, behind = t.text macroName ++ later →
            after = later ++ (s.text macroName ++ rest) →
            Covered macroName (placed macroName start (⟨skipped, t⟩ :: found))
              (start + (skipped ++ behind).length) s := by
          rintro later rfl hafter
          have hplace : start + (skipped ++ (t.text macroName ++ later)).length =
              start + skipped.length + (t.text macroName).length + later.length := by
            simp only [List.length_append]
            omega
          rw [hplace]
          exact (ih hafter _).cons _
        rcases List.append_eq_append_iff.1 hback with ⟨later, hend, hafter⟩ | ⟨tail, htext, hrest⟩
        · exact hlater later hend hafter
        · by_cases htail : tail = []
          · subst htail
            exact hlater [] (by simpa using htext.symm) (by simpa using hrest.symm)
          · right
            have hpos := List.length_pos_iff.2 hbehind
            have hpos' := List.length_pos_iff.2 htail
            refine ⟨(start + skipped.length, t), by simp [placed], ?_, ?_⟩
            · simp only [List.length_append]
              omega
            · simp only [htext, List.length_append]
              omega
      · by_cases hbetween : between = []
        · subst hbetween
          obtain ⟨rfl, -⟩ := Spelling.unique hvalid hvalid' hback
          left
          simp [placed]
        · exact (not_quiet_of_longer hbetween hquiet hback ⟨_, _, hvalid, rfl⟩).elim

end LintLedger.Declaration
