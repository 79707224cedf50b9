import LintLedger.Proofs.Listing.Registration
import LintLedger.Proofs.Update.Order

/-!
# What the pass of the group drops

The pass of the group keeps every line outside of its regions. A region starts behind its opening
line, whatever that line holds. So the lines of a region lie in a registration of the group if its
opening line leaves one open, or if it goes on with one. A registration that ends on the line that
opens it is no reason not to drop what follows it.
-/

namespace LintLedger

open Listing Region Text

/-! ## One region -/

namespace Listing

variable {group text : String} {f : Layout} {front back : List String} {c : Closed}

private theorem terminated_of_holds {r : Region} (hf : f.Fits r (splitLines text))
    (hc : f.Holds front c back) : ∀ line ∈ front ++ c.opening :: c.body, Terminated line := by
  have hsplit := wellSplit_splitLines text
  rw [← hf.lines_eq, hc.lines_eq] at hsplit
  exact (hsplit.of_append (List.cons_ne_nil _ _)).1

/-- The lines of a region lie in registrations as soon as the first of them does. -/
theorem registered_body_iff (hf : f.Fits (groupBounds group) (splitLines text))
    (hc : f.Holds front c back) :
    (∀ inner line rest, c.body = inner ++ line :: rest →
        Registered group (String.join (front ++ c.opening :: inner)) line
          (String.join (rest ++ c.closing :: back))) ↔
      (c.body ≠ [] → LeavesOpen group (String.join front ++ c.opening)) := by
  have hterminated := terminated_of_holds hf hc
  have hcomplete : ∀ lines, lines ⊆ front ++ c.opening :: c.body → Complete (String.join lines) :=
    fun lines hlines => complete_join fun line hmem => (hterminated line (hlines hmem)).complete
  have hfits := hc.fits hf
  have hnot : ∀ line ∈ c.body, ¬ registrationEnd <:+: line.toList :=
    fun line hline h => hfits.body line hline (groupBounds_closes_iff_end.2 h)
  have hopening : String.join front ++ c.opening = String.join (front ++ [c.opening]) := by simp
  have hfront : Complete (String.join (front ++ [c.opening])) := hcomplete _ (by simp)
  rw [hopening]
  constructor
  · intro hall hbody
    obtain ⟨line, rest, hbody⟩ := List.exists_cons_of_ne_nil hbody
    have hline : Complete line := (hterminated line (by simp [hbody])).complete
    exact ((registered_iff hfront hline).1 (hall [] line rest hbody)).1
  · intro hopen inner line rest hbody
    have hline : Complete line := (hterminated line (by simp [hbody])).complete
    have hinner : inner ⊆ c.body := by simp [hbody]
    have hend : ¬ registrationEnd <:+: (String.join inner).toList :=
      not_registrationEnd_join
        (fun other hmem => (hterminated other (by simp [hinner hmem])).complete)
        fun other hmem => hnot other (hinner hmem)
    have hleaves := (hopen (by simp [hbody])).append hfront hend
    rw [← String.join_append, List.append_assoc, List.singleton_append] at hleaves
    have hbefore : Complete (String.join (front ++ c.opening :: inner)) :=
      hcomplete _ (List.append_subset.2 ⟨List.subset_append_left _ _,
        List.Subset.trans (List.cons_subset_cons c.opening hinner)
          (List.subset_append_right _ _)⟩)
    have hclosing : c.closing.toList <:+: (String.join (rest ++ c.closing :: back)).toList := by
      rw [String.join_append, String.join_cons, String.toList_append, String.toList_append,
        ← List.append_assoc]
      exact List.infix_append _ _ _
    exact (registered_iff hbefore hline).2 ⟨hleaves, hnot line (by simp [hbody]),
      (groupBounds_closes_iff_end.1 hfits.closing).trans hclosing⟩

/-- Where the opening line of a region has a registration open at its end. -/
theorem leavesOpen_opening_iff (hf : f.Fits (groupBounds group) (splitLines text))
    (hc : f.Holds front c back) :
    LeavesOpen group (String.join front ++ c.opening) ↔ LeavesOpen group c.opening ∨
      LeavesOpen group (String.join front) ∧ ¬ registrationEnd <:+: c.opening.toList := by
  have hterminated := terminated_of_holds hf hc
  have hfront : Complete (String.join front) :=
    complete_join fun line hmem => (hterminated line (by simp [hmem])).complete
  have hgroup : '\n' ∉ group.toList :=
    newline_not_mem_of_opens (hterminated c.opening (by simp)) (hc.fits hf).opening
  exact leavesOpen_append_iff hgroup hfront

end Listing

/-! ## The pass -/

namespace Update

variable {d : Disk} {s : Settings} {lints : List Lint} {saved : Revision.Saved}

/-- A pass of the group that succeeds leaves all lines outside of its regions as they are, with the
entries of the group in each region. What it drops lies in registrations of the group exactly if
every region that holds something starts within one: its opening line leaves a registration open,
or does not end one that the lines before it leave open. -/
theorem group_drops_registered_iff (h : (groupPass s lints).run d true = .ok saved) :
    ∃ (r : Region) (text : String) (f : Layout), groupRegion s.group = .ok r ∧
      d.readText s.entryPath = .ok text ∧ f.Fits r (splitLines text) ∧ f.unclosed = none ∧
      saved.disk.readText s.entryPath = .ok (String.join ((f.closed.flatMap fun c =>
        c.before ++ c.opening :: group lints ++ [c.closing]) ++ f.rest)) ∧
      ((∀ front line back, f.Drops front line back →
          Registered s.group (String.join front) line (String.join back)) ↔
        ∀ front (c : Closed) back, f.Holds front c back → c.body ≠ [] →
          LeavesOpen s.group c.opening ∨
            LeavesOpen s.group (String.join front) ∧ ¬ registrationEnd <:+: c.opening.toList) := by
  obtain ⟨r, text, out, hregion, htext, hrenewal, -, hwritten⟩ := Pass.written_of_run h
  obtain rfl : groupBounds s.group = r := Except.ok.inj ((groupRegion_eq s.group).symm.trans hregion)
  obtain ⟨f, hf, hunclosed, hout⟩ := exists_layout _ _ (renewal_iff.1 hrenewal)
  refine ⟨_, text, f, hregion, htext, hf, hunclosed, ?_, ?_⟩
  · have hfilled : Closed.filled (groupBounds s.group) (groupPass s lints).lines =
        fun c => c.before ++ c.opening :: group lints ++ [c.closing] := by
      funext c
      simp [Closed.filled, kept, groupBounds, groupPass]
    refine hwritten.trans ?_
    rw [← hout, Layout.filled_same, hfilled]
  constructor
  · intro hdrops front c back hc hbody
    refine (leavesOpen_opening_iff hf hc).1 ((registered_body_iff hf hc).1 ?_ hbody)
    intro inner line rest hinner
    exact hdrops _ line _ ⟨front, c, back, inner, rest, hc, hinner, rfl, rfl⟩
  · rintro hopens _ line _ ⟨front, c, back, inner, rest, hc, hbody, rfl, rfl⟩
    have hopening := hopens front c back hc
    refine (registered_body_iff hf hc).2 (fun hne => ?_) inner line rest hbody
    exact (leavesOpen_opening_iff hf hc).2 (hopening hne)

/-- A checkout whose entry registers the group twice. The second list opens on the line that closes
the first, so the region of its entries starts at a later line that calls something else. -/
def chainedDisk : Disk :=
  ⟨[(["p"], .directory), (["p", "src"], .directory), (["p", "src", "lib.rs"],
    .file ("reg.register_lint_group(\"clippy\", vec![\n    a::OLD,\n" ++
      "]); reg.register_lint_group(\"clippy\", vec![\n    a::KEPT,\n" ++
      "// reg_register_lint_group(\"clippy\"\n    b::OLD,\n]);\n").toUTF8)]⟩

def chainedLayout : Layout where
  closed := [⟨[], "reg.register_lint_group(\"clippy\", vec![\n", ["    a::OLD,\n"],
      "]); reg.register_lint_group(\"clippy\", vec![\n"⟩,
    ⟨["    a::KEPT,\n"], "// reg_register_lint_group(\"clippy\"\n", ["    b::OLD,\n"], "]);\n"⟩]
  rest := []
  unclosed := none

theorem chainedLayout_fits :
    chainedLayout.Fits (groupBounds "clippy") (splitLines (String.join chainedLayout.lines)) where
  lines_eq := by decide +kernel
  closed := by
    intro c hc
    rcases List.mem_cons.1 hc with rfl | hc
    · exact ⟨by decide +kernel, by decide +kernel, by decide +kernel, by decide +kernel⟩
    · rw [List.mem_singleton.1 hc]
      exact ⟨by decide +kernel, by decide +kernel, by decide +kernel, by decide +kernel⟩
  rest := by simp [chainedLayout]
  opening := by simp [chainedLayout]
  unclosed := by simp [chainedLayout]

/-- All that is dropped there lies in one of the lists. -/
theorem group_drops_registered_iff_chained :
    let s := Settings.ofConfig ⟨"/p"⟩ none none
    (∃ saved, (groupPass s []).run chainedDisk true = .ok saved ∧
      saved.disk.readText s.entryPath = .ok (String.join
        ["reg.register_lint_group(\"clippy\", vec![\n",
          "]); reg.register_lint_group(\"clippy\", vec![\n", "    a::KEPT,\n",
          "// reg_register_lint_group(\"clippy\"\n", "]);\n"])) ∧
      ∀ front line back, chainedLayout.Drops front line back →
        Registered s.group (String.join front) line (String.join back) := by
  intro s
  have hread : chainedDisk.readText s.entryPath = .ok (String.join chainedLayout.lines) := by
    decide +kernel
  have hresult := regenerate_layout (groupBounds "clippy") (fun _ => group []) chainedLayout_fits
  have hrewrites : (groupPass s []).Rewrites (String.join chainedLayout.lines) _ :=
    ⟨_, _, groupRegion_eq "clippy", renewal_iff.2 (congrArg Outcome.result hresult), rfl⟩
  obtain ⟨saved, hrun, -⟩ := Pass.exists_run_of_rewrites hread hrewrites
  obtain ⟨r, text, f, hregion, htext, hf, -, hwritten, hiff⟩ := group_drops_registered_iff hrun
  obtain rfl : groupBounds "clippy" = r :=
    Except.ok.inj ((groupRegion_eq "clippy").symm.trans hregion)
  obtain rfl : text = String.join chainedLayout.lines := Except.ok.inj (htext.symm.trans hread)
  obtain rfl : f = chainedLayout := fits_unique hf chainedLayout_fits
  have hgroup : group [] = [] := by simp [group]
  rw [hgroup] at hwritten
  refine ⟨⟨saved, hrun, hwritten⟩, hiff.2 ?_⟩
  rintro _ c _ ⟨cs, ds, hclosed, rfl, -⟩ -
  rcases cs with _ | ⟨first, _ | ⟨second, cs⟩⟩
  · obtain ⟨rfl, -⟩ := List.cons.inj hclosed
    exact .inl (by decide +kernel)
  · obtain ⟨rfl, hrest⟩ := List.cons.inj hclosed
    obtain ⟨rfl, -⟩ := List.cons.inj hrest
    exact .inr (by decide +kernel)
  · simp [chainedLayout] at hclosed

/-- An entry that registers the group on one line. -/
def briefDisk : Disk :=
  ⟨[(["p"], .directory), (["p", "README.md"], .file "".toUTF8), (["p", "src"], .directory),
    (["p", "src", "lib.rs"],
      .file ("reg.register_lint_group(\"clippy\", vec![]);\nmod kept;\n" ++
        "reg.register_lint_group(\"other\", vec![\n    o::P,\n]);\n").toUTF8)]⟩

/-- There, a module and another group are dropped. -/
theorem group_can_drop_unregistered :
    let s := Settings.ofConfig ⟨"/p"⟩ none none
    let front := "reg.register_lint_group(\"clippy\", vec![]);\n"
    let line := "mod kept;\n"
    let back := "reg.register_lint_group(\"other\", vec![\n    o::P,\n]);\n"
    briefDisk.readText s.entryPath = .ok (front ++ line ++ back) ∧
      (Update.run briefDisk s [] true).failure = none ∧
      (Update.run briefDisk s [] true).disk.readText s.entryPath = .ok (front ++ "]);\n") ∧
      ¬ Registered s.group front line back := by
  intro s front line back
  have hrun : (Update.run briefDisk s [] true).failure = none ∧
      (Update.run briefDisk s [] true).disk.readText s.entryPath = .ok (front ++ "]);\n") := by
    decide +kernel
  have hopen : ¬ LeavesOpen s.group front := by decide +kernel
  exact ⟨by decide +kernel, hrun.1, hrun.2, fun h => hopen h.leavesOpen⟩

end Update

end LintLedger
