import LintLedger.Proofs.Program.Status
import LintLedger.Proofs.Update.Completed

/-!
# What failures leave behind

An update that fails leaves what its completed passes have made of the readme and the entry, which
may be one file, and a run that gets no lints leaves everything as it is.
-/

namespace LintLedger.Program

open Update

/-- An update that fails leaves the disk that the passes before the failing one have made, each of
them carried out in full. The failing pass has not touched it: it fails of what this disk holds,
and regions that are closed before the one that is not are as they were. Only the places of the
readme and the entry differ. A run that fails to collect its lints leaves the disk alone. -/
theorem failure_keeps_completed :
    (∀ (d : Disk) (s : Settings) (lints : List Lint) (failure : Failure),
      (Update.run d s lints true).failure = some failure →
      let left := (Update.run d s lints true).disk
      ∃ completed p rest, passes s lints = completed ++ p :: rest ∧
        Completed d completed left ∧ p.Fails left failure ∧
        ∀ place, d.placeOf s.readmePath ≠ .ok place → d.placeOf s.entryPath ≠ .ok place →
          left.get? place = d.get? place) ∧
    ∀ (st : Start) (args : List String) (request : CommandLine.Request) (failure : Failure),
      CommandLine.read args = .ok request → st.lints (st.settings request) = .error failure →
      (run st args).disk = st.disk := by
  constructor
  · intro d s lints failure hfailure left
    obtain ⟨completed, hcompleted, hend⟩ := exists_completed s.root d (passes s lints)
    have hrun : (runPasses s.root true d (passes s lints)).failure = some failure := hfailure
    rw [hrun] at hend
    obtain ⟨p, rest, hpasses, hfails⟩ := hend
    refine ⟨completed, p, rest, hpasses, hcompleted, hfails, ?_⟩
    intro place hreadme hentry
    refine hcompleted.get?_eq fun q hq => ?_
    have hmem : q ∈ passes s lints := hpasses ▸ List.mem_append_left _ hq
    rcases List.mem_cons.1 hmem with rfl | hmem
    · exact hreadme
    rcases List.mem_cons.1 hmem with rfl | hmem
    · exact hreadme
    · obtain rfl := List.mem_singleton.1 hmem
      exact hentry
  · intro st args request failure hread hlints
    have hending : Ending st request (run st args).toOutcome := (ending_iff hread).2 rfl
    exact disk_ending hending (.inr (.inr (.inr ⟨failure, hlints⟩)))

/-- A checkout with a source that is no text. Its readme has a closed registration before one that
is never closed. -/
def crackedDisk : Disk :=
  ⟨[(["p"], .directory), (["p", "src"], .directory),
    (["p", "src", "lib.rs"], .file ⟨#[0xFF]⟩), (["p", "README.md"],
    .file ("name |\n\nThere are 0 lints included in this crate:\n\n" ++
      "reg.register_lint_group(\"clippy\", [\n    old::OLD,\n]);\n" ++
      "reg.register_lint_group(\"clippy\", [\n").toUTF8)]⟩

def cracked : Start where
  disk := crackedDisk
  cwd := ⟨"/p"⟩
  colors := false

/-- With the readme as the entry, the table and the sentence are brought in step there, and neither
registration is. A run as it stands cannot read the source. -/
theorem failure_keeps_completed_cracked :
    let s := { Settings.ofConfig ⟨"/p"⟩ none none with entry := "README.md" }
    let lints : List Lint := [⟨"lib", "a", .warn, "about"⟩]
    let left := (Update.run crackedDisk s lints true).disk
    (left.readText ⟨"/p/README.md"⟩ = .ok
        ("name | default | meaning\n--|---------|------\na | warn    | about\n\n" ++
          "There are 1 lints included in this crate:\n\n" ++
          "reg.register_lint_group(\"clippy\", [\n    old::OLD,\n]);\n" ++
          "reg.register_lint_group(\"clippy\", [\n") ∧
      ∃ completed p rest, passes s lints = completed ++ p :: rest ∧
        Completed crackedDisk completed left ∧
        p.Fails left (.unclosed ⟨"/p/README.md"⟩ 10 "\\]\\);")) ∧
      (run cracked []).disk = crackedDisk := by
  intro s lints left
  have hrun : (Update.run crackedDisk s lints true).failure =
        some (.unclosed ⟨"/p/README.md"⟩ 10 "\\]\\);") ∧
      left.readText ⟨"/p/README.md"⟩ = .ok
        ("name | default | meaning\n--|---------|------\na | warn    | about\n\n" ++
          "There are 1 lints included in this crate:\n\n" ++
          "reg.register_lint_group(\"clippy\", [\n    old::OLD,\n]);\n" ++
          "reg.register_lint_group(\"clippy\", [\n") := by
    decide +kernel
  have hlints : cracked.lints (.ofConfig ⟨"/p"⟩ none none) =
      .error (.read ⟨"/p/src/lib.rs"⟩ .notText) := by
    decide +kernel
  obtain ⟨hupdate, hcollect⟩ := failure_keeps_completed
  obtain ⟨completed, p, rest, hpasses, hcompleted, hfails, -⟩ :=
    hupdate crackedDisk s lints _ hrun.1
  refine ⟨⟨hrun.2, completed, p, rest, hpasses, hcompleted, hfails⟩, ?_⟩
  exact hcollect cracked [] .plain _ rfl hlints

end LintLedger.Program
