import LintLedger.Listing.Region
import LintLedger.Proofs.Pattern.Quoted

/-!
# The delimiters of the listings

What the delimiters of the three regions ask of a line. They are given as the expressions that
the pattern texts stand for, and by the look of the lines that they match.
-/

namespace LintLedger.Listing

open Pattern

/-! ## The table -/

/-- The region of the table, as its delimiters are read. -/
def tableBounds : Region where
  opening := ⟨"^name +\\|", .seq (.anchor .textStart)
    (.between "name".toList (.plus true (Expr.literal ' ')) ['|'])⟩
  closing := ⟨"^$", .chain [.anchor .textStart, .anchor .textEnd]⟩
  replacesOpening := true

theorem tableRegion_eq : tableRegion = .ok tableBounds := rfl

theorem tableBounds_opens_iff (line : String) :
    tableBounds.opens line ↔ ∃ gap rest, gap ≠ [] ∧ (∀ c ∈ gap, c = ' ') ∧
      Text.content line = "name".toList ++ gap ++ ['|'] ++ rest := by
  have hplain : (Expr.between "name".toList (.plus true (Expr.literal ' ')) ['|']).isPlain := rfl
  change (Expr.seq _ _).occursIn _ ↔ _
  rw [occursIn_textStart_iff hplain]
  constructor
  · rintro ⟨s, hs, rest, hrest⟩
    obtain ⟨gap, hgap, rfl⟩ := Expr.mem_language_between.1 hs
    obtain ⟨hne, hblank⟩ := Expr.mem_language_plus_char.1 hgap
    refine ⟨gap, rest, hne, fun c hc => ?_, hrest.symm⟩
    have hc' : ' ' = c := by simpa using hblank c hc
    exact hc'.symm
  · rintro ⟨gap, rest, hne, hblank, hcontent⟩
    have hgap : gap ∈ (Expr.plus true (Expr.literal ' ')).language :=
      Expr.mem_language_plus_char.2 ⟨hne, fun c hc => by simp [hblank c hc]⟩
    exact ⟨_, Expr.mem_language_between.2 ⟨gap, hgap, rfl⟩, rest, hcontent.symm⟩

theorem tableBounds_closes_iff (line : String) :
    tableBounds.closes line ↔ Text.content line = [] := by
  change (Expr.chain [.anchor .textStart, .anchor .textEnd]).occursIn _ ↔ _
  rw [occursIn_iff]
  constructor
  · rintro ⟨front, rest, k', u, hparts, hread⟩
    cases hread with
    | seq hstart hread =>
        cases hstart with
        | anchor hstart =>
            cases hread with
            | seq hend _ =>
                cases hend with
                | anchor hend =>
                    have hfront : front = [] := by simpa [Anchor.holds] using hstart
                    have hrest : rest = [] := by simpa [Anchor.holds] using hend
                    rw [hparts, hfront, hrest, List.nil_append]
  · intro hnil
    refine ⟨[], [], ⟨none, 0, []⟩, [], by simpa using hnil, ?_⟩
    exact .seq (t := []) (.anchor rfl) (.seq (t := []) (.anchor rfl) .empty)

/-! ## The number of lints -/

/-- The region of the sentence with the number of lints, as its delimiters are read. -/
def countBounds : Region where
  opening := ⟨"^There are \\d+ lints included in this crate:", .seq (.anchor .textStart)
    (.between "There are ".toList (.plus true (.char .digit))
      " lints included in this crate:".toList)⟩
  closing := ⟨"", .empty⟩
  replacesOpening := true

theorem countRegion_eq : countRegion = .ok countBounds := rfl

theorem countBounds_opens_iff (line : String) :
    countBounds.opens line ↔ ∃ digits rest, digits ≠ [] ∧ (∀ c ∈ digits, Text.isDigit c) ∧
      Text.content line = "There are ".toList ++ digits
        ++ " lints included in this crate:".toList ++ rest := by
  have hplain : (Expr.between "There are ".toList (.plus true (.char .digit))
      " lints included in this crate:".toList).isPlain := rfl
  change (Expr.seq _ _).occursIn _ ↔ _
  rw [occursIn_textStart_iff hplain]
  constructor
  · rintro ⟨s, hs, rest, hrest⟩
    obtain ⟨digits, hdigits, rfl⟩ := Expr.mem_language_between.1 hs
    obtain ⟨hne, hall⟩ := Expr.mem_language_plus_char.1 hdigits
    exact ⟨digits, rest, hne, hall, hrest.symm⟩
  · rintro ⟨digits, rest, hne, hall, hcontent⟩
    have hdigits : digits ∈ (Expr.plus true (.char .digit)).language :=
      Expr.mem_language_plus_char.2 ⟨hne, hall⟩
    exact ⟨_, Expr.mem_language_between.2 ⟨digits, hdigits, rfl⟩, rest, hcontent.symm⟩

/-- Whatever line follows ends the region of the sentence. -/
theorem countBounds_closes (line : String) : countBounds.closes line := by
  change Expr.empty.occursIn _
  rw [occursIn_iff]
  exact ⟨[], _, _, [], rfl, .empty⟩

/-! ## The group -/

/-- The region of the registration of a group, as its delimiters are read. -/
def groupBounds (group : String) : Region where
  opening := ⟨groupOpening group, .between "reg".toList (.char .withinLine)
    ("register_lint_group(\"".toList ++ group.toList ++ ['"'])⟩
  closing := ⟨"\\]\\);", .ofText "]);".toList⟩
  replacesOpening := false

/-- What follows the dot in the pattern that opens the region of a group. -/
def groupCall (group : String) : List Char :=
  "register_lint_group(\"".toList ++ group.toList ++ ['"']

private theorem groupOpening_toList (group : String) :
    (groupOpening group).toList = quote "reg".toList ++ '.' :: (quote (groupCall group) ++ []) := by
  have hfront : "reg.register_lint_group\\(\"".toList =
      quote "reg".toList ++ '.' :: quote "register_lint_group(\"".toList := by decide +kernel
  have hback : quote ['"'] = "\"".toList := by decide +kernel
  have hcall : quote (groupCall group) =
      quote "register_lint_group(\"".toList ++ quote group.toList ++ quote ['"'] := by
    change quote (_ ++ _ ++ _) = _
    rw [quote_append, quote_append]
  have hparts : groupOpening group = "reg.register_lint_group\\(\"" ++
      String.ofList (quote group.toList) ++ "\"" := rfl
  have hname : (String.ofList (quote group.toList)).toList = quote group.toList :=
    String.toList_ofList
  rw [hparts, String.toList_append, String.toList_append, hname, hfront, hcall, hback,
    List.append_nil, List.append_assoc, List.append_assoc, List.append_assoc, List.cons_append]

private theorem parse_groupOpening (group : String) :
    Expr.parse (groupOpening group).toList = .ok (groupBounds group).opening.expr := by
  let front := State.start.pushText "reg".toList
  let dotted := front.push (.char .withinLine)
  let all := dotted.pushText (groupCall group)
  have hfront : State.start.readOn 0 (groupOpening group).toList =
      front.readOn 0 ('.' :: (quote (groupCall group) ++ [])) := by
    rw [groupOpening_toList, readOn_quote]
    rfl
  have hdot : front.readOn 0 ('.' :: (quote (groupCall group) ++ [])) =
      dotted.readOn 0 (quote (groupCall group) ++ []) := by
    have hflags : front.flags = .none := by
      simp only [front]
      rw [State.pushText_eq]
      rfl
    exact readOn_dot hflags _
  have hall : dotted.readOn 0 (quote (groupCall group) ++ []) = .ok all := by
    rw [readOn_quote]
    rfl
  have hitems : all.items = ((groupCall group).map Expr.literal).reverse ++ dotted.items :=
    State.pushText_items rfl _
  have hothers : all.alternatives = [] ∧ all.suspended = [] := by
    simp only [all]
    rw [State.pushText_eq]
    exact ⟨rfl, rfl⟩
  have hresult : all.result = (groupBounds group).opening.expr := by
    have hfrontItems : front.items = ("reg".toList.map Expr.literal).reverse ++ [] :=
      State.pushText_items rfl _
    have hdottedItems : dotted.items = .char .withinLine :: front.items := rfl
    change _ = Expr.chain ("reg".toList.map Expr.literal
      ++ .char .withinLine :: (groupCall group).map Expr.literal)
    rw [State.result, hothers.1, hitems, hdottedItems, hfrontItems]
    simp only [List.reverse_nil, List.nil_append, Expr.oneOf, List.append_nil,
      List.reverse_append, List.reverse_reverse, List.reverse_cons, List.append_assoc,
      List.cons_append]
  rw [Expr.parse, hfront, hdot, hall]
  simp [bind, Except.bind, hothers.2, hresult, pure, Except.pure]

theorem groupRegion_eq (group : String) : groupRegion group = .ok (groupBounds group) := by
  have hopening : compile (groupOpening group) = .ok (groupBounds group).opening := by
    rw [compile, parse_groupOpening]
    rfl
  have hclosing : compile "\\]\\);" = .ok (groupBounds group).closing := rfl
  rw [groupRegion, Region.ofTexts, hopening, hclosing]
  rfl

private theorem mem_withinLine {c : Char} : CharSet.withinLine.mem c ↔ c ≠ '\n' := by
  rw [CharSet.withinLine, CharSet.mem, CharSet.mem_single, Bool.not_eq_true', beq_eq_false_iff_ne]
  exact ne_comm

/-- The dot in the pattern stands for any character of a line. -/
theorem groupBounds_isMatch_iff (group : String) (text : List Char) :
    (groupBounds group).opening.isMatch text ↔
      ∃ c, c ≠ '\n' ∧ "reg".toList ++ c :: groupCall group <:+: text := by
  change (Expr.between "reg".toList (.char .withinLine) (groupCall group)).occursIn _ ↔ _
  rw [occursIn_iff_of_isPlain (Expr.isPlain_between rfl)]
  constructor
  · rintro ⟨s, hs, hinfix⟩
    obtain ⟨word, ⟨c, hc, rfl⟩, rfl⟩ := Expr.mem_language_between.1 hs
    exact ⟨c, mem_withinLine.1 hc, by simpa using hinfix⟩
  · rintro ⟨c, hc, hinfix⟩
    have hword : [c] ∈ (Expr.char .withinLine).language := ⟨c, mem_withinLine.2 hc, rfl⟩
    exact ⟨_, Expr.mem_language_between.2 ⟨[c], hword, rfl⟩, by simpa using hinfix⟩

theorem groupBounds_opens_iff (group line : String) :
    (groupBounds group).opens line ↔
      ∃ c, c ≠ '\n' ∧ "reg".toList ++ c :: groupCall group <:+: Text.content line :=
  groupBounds_isMatch_iff group (Text.content line)

theorem groupBounds_closes_iff (group line : String) :
    (groupBounds group).closes line ↔ "]);".toList <:+: Text.content line := by
  change (Expr.ofText "]);".toList).occursIn _ ↔ _
  rw [occursIn_iff_of_isPlain (Expr.isPlain_ofText _)]
  constructor
  · rintro ⟨s, hs, hinfix⟩
    rwa [← Expr.mem_language_ofText.1 hs]
  · intro hinfix
    exact ⟨_, Expr.mem_language_ofText.2 rfl, hinfix⟩

end LintLedger.Listing
