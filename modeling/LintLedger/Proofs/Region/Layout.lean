import LintLedger.Proofs.Text.Cut
import LintLedger.Region

/-!
# The layout of regions

A list of lines has one layout: lines that open nothing, an opening line, lines that do not close
it, a closing line, and so on; at the end there may be a region that is never closed. An opening
line is not asked whether it closes, nor a closing line whether it opens. Generating the regions
anew is a function of this layout: it fails if a region is left open, at the number of the line
that opens it, and replaces what stands between the delimiters otherwise.
-/

namespace LintLedger.Region

theorem eq_of_mem_kept {r : Region} {line opening : String} (h : line ∈ r.kept opening) :
    line = opening := by
  by_cases hreplaces : r.replacesOpening
  · simp [kept, hreplaces] at h
  · simpa [kept, hreplaces] using h

/-- A closed region, and the lines between it and the region before it. -/
structure Closed where
  before : List String
  opening : String
  body : List String
  closing : String

namespace Closed

def lines (c : Closed) : List String :=
  c.before ++ c.opening :: c.body ++ [c.closing]

/-- Whether the lines are what the delimiters make of them. -/
structure Fits (c : Closed) (r : Region) : Prop where
  before : ∀ line ∈ c.before, ¬ r.opens line
  opening : r.opens c.opening
  body : ∀ line ∈ c.body, ¬ r.closes line
  closing : r.closes c.closing

/-- The region with other lines between its delimiters. -/
def filled (r : Region) (generated : List String) (c : Closed) : List String :=
  c.before ++ r.kept c.opening ++ generated ++ [c.closing]

end Closed

/-- Lines as regions divide them. -/
structure Layout where
  closed : List Closed
  /-- The lines after the last closed region that open nothing. -/
  rest : List String
  /-- The line that opens a region that is never closed, and all lines after it. -/
  unclosed : Option (String × List String)

namespace Layout

/-- The lines up to an unclosed region. -/
def complete (f : Layout) : List String :=
  f.closed.flatMap Closed.lines ++ f.rest

def lines (f : Layout) : List String :=
  f.complete ++ match f.unclosed with
    | none => []
    | some (opening, body) => opening :: body

/-- Whether the layout is what the delimiters make of some lines. -/
structure Fits (f : Layout) (r : Region) (lines : List String) : Prop where
  lines_eq : f.lines = lines
  closed : ∀ c ∈ f.closed, c.Fits r
  rest : ∀ line ∈ f.rest, ¬ r.opens line
  opening : ∀ opening body, f.unclosed = some (opening, body) → r.opens opening
  unclosed : ∀ opening body, f.unclosed = some (opening, body) → ∀ line ∈ body, ¬ r.closes line

/-- The lines with every closed region filled anew, region `k` with `generate k`. -/
def filled (f : Layout) (r : Region) (generate : Nat → List String) : List String :=
  (f.closed.zipIdx.flatMap fun (c, k) => c.filled r (generate k)) ++ f.rest

theorem filled_same (f : Layout) (r : Region) (generated : List String) :
    f.filled r (fun _ => generated) =
      f.closed.flatMap (Closed.filled r generated) ++ f.rest := by
  have hindices := List.flatMap_map Prod.fst (Closed.filled r generated) f.closed.zipIdx
  rw [List.zipIdx_map_fst] at hindices
  rw [filled, hindices]

def outcome (f : Layout) (r : Region) (generate : Nat → List String) : Outcome :=
  ⟨f.closed.length,
    match f.unclosed with
    | none => .ok (f.filled r generate)
    | some _ => .error (f.complete.length + 1)⟩

/-- A closed region, and the lines in front of its opening line and behind its closing line. -/
def Holds (f : Layout) (front : List String) (c : Closed) (back : List String) : Prop :=
  ∃ cs ds, f.closed = cs ++ c :: ds ∧ front = cs.flatMap Closed.lines ++ c.before ∧
    back = lines ⟨ds, f.rest, f.unclosed⟩

/-- A line between the delimiters of a closed region, and the lines in front of it and behind it.
These are the lines that are dropped when the closed regions are generated anew. -/
def Drops (f : Layout) (front : List String) (line : String) (back : List String) : Prop :=
  ∃ before c after inner rest, f.Holds before c after ∧ c.body = inner ++ line :: rest ∧
    front = before ++ c.opening :: inner ∧ back = rest ++ c.closing :: after

theorem Holds.lines_eq {f : Layout} {front : List String} {c : Closed} {back : List String}
    (h : f.Holds front c back) :
    f.lines = front ++ c.opening :: c.body ++ c.closing :: back := by
  obtain ⟨cs, ds, hclosed, rfl, rfl⟩ := h
  simp [Layout.lines, complete, hclosed, Closed.lines]

theorem Holds.fits {f : Layout} {front : List String} {c : Closed} {back : List String} {r : Region}
    {lines : List String} (h : f.Holds front c back) (hf : f.Fits r lines) : c.Fits r := by
  obtain ⟨cs, ds, hclosed, -, -⟩ := h
  exact hf.closed c (by simp [hclosed])

end Layout

/-! ## Existence -/

def Layout.cons (c : Closed) (f : Layout) : Layout :=
  { f with closed := c :: f.closed }

theorem Layout.lines_cons (c : Closed) (f : Layout) :
    (f.cons c).lines = c.lines ++ f.lines := by
  simp [Layout.lines, Layout.complete, Layout.cons, List.append_assoc]

theorem Layout.fits_cons {r : Region} {c : Closed} {f : Layout} {lines : List String}
    (hc : c.Fits r) (hf : f.Fits r lines) : (f.cons c).Fits r (c.lines ++ lines) where
  lines_eq := by rw [Layout.lines_cons, hf.lines_eq]
  closed := by
    intro d hd
    rcases List.mem_cons.1 hd with rfl | hd
    · exact hc
    · exact hf.closed d hd
  rest := hf.rest
  opening := hf.opening
  unclosed := hf.unclosed

theorem exists_fits (r : Region) (lines : List String) : ∃ f : Layout, f.Fits r lines := by
  -- The lines are cut at the first opening line and then at the first line that closes it.
  induction hn : lines.length using Nat.strongRecOn generalizing lines with
  | ind n ih =>
      rcases Text.exists_cut (r.opens · = true) lines with
        hnone | ⟨before, opening, inner, rfl, hbefore, hopening⟩
      · exact ⟨⟨[], lines, none⟩, by simp [Layout.lines, Layout.complete], by simp, hnone,
          by simp, by simp⟩
      rcases Text.exists_cut (r.closes · = true) inner with
        hnone | ⟨body, closing, after, rfl, hbody, hclosing⟩
      · refine ⟨⟨[], before, some (opening, inner)⟩, by simp [Layout.lines, Layout.complete],
          by simp, hbefore, ?_, ?_⟩
        · rintro _ _ ⟨⟩
          exact hopening
        · rintro _ _ ⟨⟩
          exact hnone
      obtain ⟨f, hf⟩ := ih after.length (by simp at hn; omega) after rfl
      let c : Closed := ⟨before, opening, body, closing⟩
      have hc : c.Fits r := ⟨hbefore, hopening, hbody, hclosing⟩
      refine ⟨f.cons c, ?_⟩
      simpa [Closed.lines, c] using Layout.fits_cons hc hf

/-! ## Uniqueness -/

private theorem closed_eq_nil {r : Region} {f g : Layout} {lines : List String}
    (hf : f.Fits r lines) (hg : g.Fits r lines) (hnil : f.closed = []) : g.closed = [] := by
  rcases f with ⟨_, rest, unclosed⟩
  subst hnil
  cases hclosed : g.closed with
  | nil => rfl
  | cons c cs =>
      have hc := hg.closed c (by simp [hclosed])
      have heq := hf.lines_eq.trans hg.lines_eq.symm
      cases unclosed with
      | none =>
          -- No line opens a region on the left, but `c` does on the right.
          have hmem : c.opening ∈ rest := by
            have hlines : rest = g.lines := by simpa [Layout.lines, Layout.complete] using heq
            simp [hlines, Layout.lines, Layout.complete, hclosed, Closed.lines]
          exact (hf.rest _ hmem hc.opening).elim
      | some pair =>
          -- The region that stays open on the left holds the line that closes `c`.
          rcases pair with ⟨opening, body⟩
          have hcut : rest ++ opening :: body = c.before ++ c.opening :: (c.body ++ c.closing ::
              (cs.flatMap Closed.lines ++ g.rest ++ match g.unclosed with
                | none => []
                | some (opening, body) => opening :: body)) := by
            simpa [Layout.lines, Layout.complete, hclosed, Closed.lines] using heq
          obtain ⟨-, -, rfl⟩ := Text.cut_unique (p := (r.opens · = true)) hf.rest hc.before
            (hf.opening _ _ rfl) hc.opening hcut
          exact (hf.unclosed _ _ rfl c.closing (by simp) hc.closing).elim

private theorem eq_of_closed_nil {r : Region} {f g : Layout} {lines : List String}
    (hf : f.Fits r lines) (hg : g.Fits r lines) (hfnil : f.closed = []) (hgnil : g.closed = []) :
    f = g := by
  rcases f with ⟨_, rest, unclosed⟩
  rcases g with ⟨_, rest', unclosed'⟩
  subst hfnil hgnil
  have heq := hf.lines_eq.trans hg.lines_eq.symm
  cases unclosed with
  | none =>
      cases unclosed' with
      | none => simpa [Layout.lines, Layout.complete] using heq
      | some pair =>
          have hmem : pair.1 ∈ rest := by
            have hlines : rest = rest' ++ pair.1 :: pair.2 := by
              simpa [Layout.lines, Layout.complete] using heq
            simp [hlines]
          exact (hf.rest _ hmem (hg.opening _ _ rfl)).elim
  | some pair =>
      cases unclosed' with
      | none =>
          have hmem : pair.1 ∈ rest' := by
            have hlines : rest ++ pair.1 :: pair.2 = rest' := by
              simpa [Layout.lines, Layout.complete] using heq
            simp [← hlines]
          exact (hg.rest _ hmem (hf.opening _ _ rfl)).elim
      | some pair' =>
          have hcut : rest ++ pair.1 :: pair.2 = rest' ++ pair'.1 :: pair'.2 := by
            simpa [Layout.lines, Layout.complete] using heq
          obtain ⟨rfl, hopening, hbody⟩ := Text.cut_unique (p := (r.opens · = true)) hf.rest
            hg.rest (hf.opening _ _ rfl) (hg.opening _ _ rfl) hcut
          rw [Prod.ext hopening hbody]

/-- Takes the first closed region off a layout. -/
private theorem fits_tail {r : Region} {c : Closed} {cs : List Closed} {rest : List String}
    {unclosed : Option (String × List String)} {lines : List String}
    (hf : Layout.Fits ⟨c :: cs, rest, unclosed⟩ r lines) :
    Layout.Fits ⟨cs, rest, unclosed⟩ r (Layout.lines ⟨cs, rest, unclosed⟩) where
  lines_eq := rfl
  closed := fun d hd => hf.closed d (List.mem_cons_of_mem c hd)
  rest := hf.rest
  opening := hf.opening
  unclosed := hf.unclosed

theorem fits_unique {r : Region} {f g : Layout} {lines : List String} (hf : f.Fits r lines)
    (hg : g.Fits r lines) : f = g := by
  rcases f with ⟨cs, rest, unclosed⟩
  induction cs generalizing g lines with
  | nil => exact eq_of_closed_nil hf hg rfl (closed_eq_nil hf hg rfl)
  | cons c cs ih =>
      rcases g with ⟨ds, rest', unclosed'⟩
      cases ds with
      | nil =>
          have hnil := closed_eq_nil hg hf rfl
          simp at hnil
      | cons d ds =>
          have hc := hf.closed c List.mem_cons_self
          have hd := hg.closed d List.mem_cons_self
          let f' : Layout := ⟨cs, rest, unclosed⟩
          let g' : Layout := ⟨ds, rest', unclosed'⟩
          have hcut : c.before ++ c.opening :: (c.body ++ c.closing :: f'.lines) =
              d.before ++ d.opening :: (d.body ++ d.closing :: g'.lines) := by
            have heq := hf.lines_eq.trans hg.lines_eq.symm
            simpa [Layout.lines, Layout.complete, Closed.lines, f', g'] using heq
          obtain ⟨hbefore, hopening, hinner⟩ := Text.cut_unique (p := (r.opens · = true))
            hc.before hd.before hc.opening hd.opening hcut
          obtain ⟨hbody, hclosing, hlines⟩ := Text.cut_unique (p := (r.closes · = true))
            hc.body hd.body hc.closing hd.closing hinner
          have hcd : c = d := by
            rcases c with ⟨_, _, _, _⟩
            rcases d with ⟨_, _, _, _⟩
            simp_all
          have hfg : f' = g' := ih (fits_tail hg) (by rw [← hlines]; exact fits_tail hf)
          simp only [Layout.mk.injEq, f', g'] at hfg
          simp [hcd, hfg]

/-! ## Generating anew -/

namespace Outcome

@[simp]
theorem after_nil (o : Outcome) : o.after [] = o := by
  rcases o with ⟨_, result⟩
  cases result <;> simp [after, Except.map]

theorem after_after (o : Outcome) (front back : List String) :
    (o.after back).after front = o.after (front ++ back) := by
  rcases o with ⟨_, result⟩
  cases result <;> simp [after, Except.map]

end Outcome

section

variable (r : Region) (generate : Nat → List String)

theorem regenerateFrom_append_of_not_opens {front : List String}
    (h : ∀ line ∈ front, ¬ r.opens line) (number closed : Nat) (lines : List String) :
    r.regenerateFrom generate number closed none (front ++ lines) =
      (r.regenerateFrom generate (number + front.length) closed none lines).after front := by
  induction front generalizing number with
  | nil => simp
  | cons line front ih =>
      have hfront := ih (fun other hmem => h other (List.mem_cons_of_mem line hmem)) (number + 1)
      rw [List.cons_append, regenerateFrom]
      simp only [h line List.mem_cons_self, Bool.false_eq_true, if_false]
      rw [hfront, Outcome.after_after, List.length_cons, List.singleton_append]
      congr 2
      omega

theorem regenerateFrom_append_of_not_closes {body : List String}
    (h : ∀ line ∈ body, ¬ r.closes line) (number closed opening : Nat) (lines : List String) :
    r.regenerateFrom generate number closed (some opening) (body ++ lines) =
      r.regenerateFrom generate (number + body.length) closed (some opening) lines := by
  induction body generalizing number with
  | nil => simp
  | cons line body ih =>
      have hbody := ih (fun other hmem => h other (List.mem_cons_of_mem line hmem)) (number + 1)
      rw [List.cons_append, regenerateFrom]
      simp only [h line List.mem_cons_self, Bool.false_eq_true, if_false]
      rw [hbody, List.length_cons]
      congr 1
      omega

/-- What a closed region contributes, wherever the next lines lead. -/
theorem regenerateFrom_append_closed {c : Closed} (hc : c.Fits r) (number closed : Nat)
    (lines : List String) :
    r.regenerateFrom generate number closed none (c.lines ++ lines) =
      (r.regenerateFrom generate (number + c.lines.length) (closed + 1) none lines).after
        (c.filled r (generate closed)) := by
  have hlines : c.lines ++ lines = c.before ++ c.opening :: (c.body ++ c.closing :: lines) := by
    simp [Closed.lines]
  rw [hlines, regenerateFrom_append_of_not_opens r generate hc.before, regenerateFrom]
  simp only [hc.opening, if_true]
  rw [regenerateFrom_append_of_not_closes r generate hc.body, regenerateFrom]
  simp only [hc.closing, if_true]
  have hnumber : number + c.before.length + 1 + c.body.length + 1 = number + c.lines.length := by
    simp only [Closed.lines, List.length_append, List.length_cons, List.length_nil]
    omega
  have hfilled : c.before ++ (r.kept c.opening ++ (generate closed ++ [c.closing])) =
      c.filled r (generate closed) := by
    simp [Closed.filled]
  rw [Outcome.after_after, Outcome.after_after, List.append_assoc, hnumber, hfilled]

theorem regenerateFrom_layout {f : Layout} {lines : List String} (hf : f.Fits r lines)
    (number closed : Nat) :
    r.regenerateFrom generate number closed none lines =
      ⟨closed + f.closed.length,
        match f.unclosed with
        | none => .ok ((f.closed.zipIdx closed).flatMap
            (fun (c, k) => c.filled r (generate k)) ++ f.rest)
        | some _ => .error (number + f.complete.length)⟩ := by
  rcases f with ⟨cs, rest, unclosed⟩
  induction cs generalizing lines number closed with
  | nil =>
      rw [← hf.lines_eq]
      simp only [Layout.lines, Layout.complete, List.flatMap_nil, List.nil_append]
      rw [regenerateFrom_append_of_not_opens r generate hf.rest]
      cases unclosed with
      | none => simp [regenerateFrom, Outcome.after, Except.map]
      | some pair =>
          rcases pair with ⟨opening, body⟩
          have hbody := regenerateFrom_append_of_not_closes r generate (hf.unclosed _ _ rfl)
            (number + rest.length + 1) closed (number + rest.length) []
          rw [List.append_nil] at hbody
          simp only [regenerateFrom, hf.opening _ _ rfl, if_true]
          rw [hbody]
          simp [regenerateFrom, Outcome.after, Except.map]
  | cons c cs ih =>
      have hc := hf.closed c List.mem_cons_self
      have hrest := ih (number + c.lines.length) (closed + 1) (fits_tail hf)
      have hlines : lines = c.lines ++ Layout.lines ⟨cs, rest, unclosed⟩ := by
        rw [← hf.lines_eq]
        exact Layout.lines_cons c ⟨cs, rest, unclosed⟩
      rw [hlines, regenerateFrom_append_closed r generate hc, hrest]
      cases unclosed with
      | none =>
          simp only [Outcome.after, Except.map, List.zipIdx_cons, List.flatMap_cons,
            List.length_cons, List.append_assoc, Outcome.mk.injEq, and_true]
          omega
      | some _ =>
          simp only [Outcome.after, Except.map, Layout.complete, List.flatMap_cons,
            List.length_cons, List.length_append, Outcome.mk.injEq, Except.error.injEq]
          omega

theorem regenerate_layout {f : Layout} {lines : List String} (hf : f.Fits r lines) :
    r.regenerate generate lines = f.outcome r generate := by
  rw [regenerate, regenerateFrom_layout r generate hf, Layout.outcome, Layout.filled,
    Nat.zero_add, Nat.add_comm 1]

/-- A successful run fills the closed regions of a layout without an open one. -/
theorem exists_layout {lines out : List String}
    (h : (r.regenerate generate lines).result = .ok out) :
    ∃ f : Layout, f.Fits r lines ∧ f.unclosed = none ∧ f.filled r generate = out := by
  obtain ⟨f, hf⟩ := exists_fits r lines
  rw [regenerate_layout r generate hf, Layout.outcome] at h
  cases hunclosed : f.unclosed with
  | some pair => simp [hunclosed] at h
  | none => exact ⟨f, hf, hunclosed, by simpa [hunclosed] using h⟩

/-- Lines have one layout, and generating their regions anew follows it: with a region left open
there are no lines but the number of the line that opens it, otherwise every closed region is
filled with the lines generated for it, and the generator runs once for each closed region. -/
theorem regenerate_follows_layout (lines : List String) :
    ∃ f : Layout, (f.Fits r lines ∧ ∀ g : Layout, g.Fits r lines → g = f) ∧
      r.regenerate generate lines =
        ⟨f.closed.length,
          match f.unclosed with
          | none => .ok ((f.closed.zipIdx.flatMap fun (c, k) =>
              c.before ++ r.kept c.opening ++ generate k ++ [c.closing]) ++ f.rest)
          | some _ => .error ((f.closed.flatMap Closed.lines ++ f.rest).length + 1)⟩ := by
  obtain ⟨f, hf⟩ := exists_fits r lines
  refine ⟨f, ⟨hf, fun g hg => fits_unique hg hf⟩, ?_⟩
  exact regenerate_layout r generate hf

end

/-- Both delimiters stand at the front of a line here. The line `a BEGIN` is in the body. -/
example :
    let lines := ["a END\n", "BEGIN x\n", "a BEGIN\n", "END\n", "b"]
    let renewed (replacesOpening : Bool) :=
      (ofTexts "^BEGIN" "^END" replacesOpening).toOption.bind fun r =>
        (r.regenerate (fun _ => ["new\n"]) lines).result.toOption
    renewed false = some ["a END\n", "BEGIN x\n", "new\n", "END\n", "b"] ∧
      renewed true = some ["a END\n", "new\n", "END\n", "b"] := by
  decide +kernel

end LintLedger.Region
