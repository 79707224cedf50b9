import LintLedger.Report

/-!
# Interrupted output

Texts that are written to a sink one after the other arrive as if they were written at once,
wherever the sink stops: what it takes depends on the bytes alone, and not on how they were cut
into texts. So a sink with a limit takes the beginning of the table that a sink without limit
takes, up to any byte, and the failure is told exactly if something is missing.
-/

namespace LintLedger

namespace Sink

/-! ## Beginnings of bytes -/

theorem extract_of_size_le {bytes : ByteArray} {n : Nat} (h : bytes.size ≤ n) :
    bytes.extract 0 n = bytes := by
  rw [← Nat.max_eq_left h, ByteArray.extract_zero_max_size]

theorem extract_min_size (bytes : ByteArray) (n : Nat) :
    bytes.extract 0 (min n bytes.size) = bytes.extract 0 n := by
  rcases Nat.le_total n bytes.size with hle | hle
  · rw [Nat.min_eq_left hle]
  · rw [Nat.min_eq_right hle, extract_of_size_le hle, ByteArray.extract_zero_size]

theorem extract_append_of_size_le {front : ByteArray} {n : Nat} (h : front.size ≤ n)
    (back : ByteArray) :
    (front ++ back).extract 0 n = front ++ back.extract 0 (n - front.size) := by
  rw [ByteArray.extract_append, extract_of_size_le h, Nat.zero_sub]

theorem extract_append_of_lt_size {front : ByteArray} {n : Nat} (h : n < front.size)
    (back : ByteArray) : (front ++ back).extract 0 n = front.extract 0 n := by
  rw [ByteArray.extract_append, Nat.zero_sub, Nat.sub_eq_zero_of_le (Nat.le_of_lt h),
    ByteArray.extract_same, ByteArray.append_empty]

/-! ## Writing in parts -/

theorem write_unlimited (text : String) :
    unlimited.write text = (⟨none, .closed, text.toUTF8⟩, true) := by
  simp only [write, unlimited, ByteArray.empty_append]

theorem write_limited (n : Nat) (fault : Fault) (text : String) :
    (limited n fault).write text =
      (⟨some (n - text.toUTF8.size), fault, text.toUTF8.extract 0 n⟩,
        decide (text.toUTF8.size ≤ n)) := by
  simp only [write, limited, ByteArray.empty_append]

/-- Writing two texts at once is writing the first one and, if that is wholly taken, the second. -/
theorem write_append (s : Sink) (text rest : String) :
    s.write (text ++ rest) =
      if (s.write text).2 then (s.write text).1.write rest else s.write text := by
  obtain ⟨room, fault, taken⟩ := s
  cases room with
  | none => simp [write, ByteArray.append_assoc]
  | some n =>
      simp only [write, String.toUTF8_eq_toByteArray, String.toByteArray_append,
        ByteArray.size_append, decide_eq_true_eq]
      by_cases hfits : text.toByteArray.size ≤ n
      · -- The second text finds the room that the first one leaves.
        have hroom : n - (text.toByteArray.size + rest.toByteArray.size) =
            n - text.toByteArray.size - rest.toByteArray.size := by
          omega
        have hwhole : text.toByteArray.size + rest.toByteArray.size ≤ n ↔
            rest.toByteArray.size ≤ n - text.toByteArray.size := by
          omega
        rw [if_pos hfits, extract_append_of_size_le hfits, extract_of_size_le hfits, hroom,
          ByteArray.append_assoc]
        simp only [hwhole]
      · -- The room is used up within the first text.
        have hcut : n < text.toByteArray.size := Nat.lt_of_not_le hfits
        have hroom : n - (text.toByteArray.size + rest.toByteArray.size) =
            n - text.toByteArray.size := by
          omega
        have hwhole : ¬ text.toByteArray.size + rest.toByteArray.size ≤ n := by
          omega
        rw [if_neg hfits, extract_append_of_lt_size hcut, hroom]
        simp only [hfits, hwhole]

theorem write_empty (s : Sink) : s.write "" = (s, true) := by
  obtain ⟨room, fault, taken⟩ := s
  cases room with
  | none => simp [write]
  | some n =>
      have hnone : ByteArray.empty.extract 0 n = ByteArray.empty :=
        extract_of_size_le (Nat.zero_le n)
      simp [write, hnone]

/-- Texts one after the other arrive as their concatenation does. -/
theorem writeAll_eq_write_join (s : Sink) (texts : List String) :
    s.writeAll texts = s.write (String.join texts) := by
  induction texts generalizing s with
  | nil => rw [writeAll, String.join_nil, write_empty]
  | cons text texts ih =>
      rw [String.join_cons, write_append, writeAll]
      rcases s.write text with ⟨next, whole⟩
      cases whole with
      | true => exact ih next
      | false => rfl

end Sink

namespace Report

theorem writeTable_eq (s : Sink) (lints : List Lint) (mode : String) :
    writeTable s lints mode = s.write (String.join (tableTexts lints mode)) :=
  s.writeAll_eq_write_join (tableTexts lints mode)

theorem join_tableTexts (lints : List Lint) (mode : String) :
    String.join (tableTexts lints mode) =
      if mode = "json" then (tableDocument lints).pretty ++ "\n"
      else String.join (Listing.table lints) := by
  by_cases hjson : mode = "json"
  · simp [tableTexts, isJson, hjson]
  · simp [tableTexts, isJson, hjson]

/-- A table that is written to a sink with a limit arrives up to the limit: the sink takes as many
of the first bytes of the table as it has room for, whatever stands there, and the failure is told
exactly if these are not all of them. A sink without limit takes the whole table, which is for
readers its lines one after the other. -/
theorem writeTable_limited (lints : List Lint) (mode : String) :
    let full := (writeTable .unlimited lints mode).1.taken
    (writeTable .unlimited lints mode).2 = true ∧
      full = (if mode = "json" then (tableDocument lints).pretty ++ "\n"
        else String.join (Listing.table lints)).toUTF8 ∧
      ∀ (k : Nat) (fault : Fault),
        (writeTable (.limited k fault) lints mode).1.taken = full.extract 0 (min k full.size) ∧
          ((writeTable (.limited k fault) lints mode).2 = false ↔ k < full.size) := by
  intro full
  have hunlimited := writeTable_eq .unlimited lints mode
  rw [Sink.write_unlimited] at hunlimited
  have hfull : full = (String.join (tableTexts lints mode)).toUTF8 := by
    simp only [full, hunlimited]
  refine ⟨?_, ?_, ?_⟩
  · rw [hunlimited]
  · rw [hfull, join_tableTexts]
  · intro k fault
    rw [writeTable_eq, Sink.write_limited, hfull, Sink.extract_min_size]
    exact ⟨rfl, by rw [decide_eq_false_iff_not, Nat.not_le]⟩

end Report

end LintLedger
