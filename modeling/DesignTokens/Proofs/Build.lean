import DesignTokens.Build
import DesignTokens.Proofs.FileTree.Replacement

/-!
# A build is all or nothing

A build generates a stylesheet without touching a file and then replaces the output file
(`replaceFile_outcome`). So it ends in one of two ways: with a stylesheet that is the content of the
output file, or with an error; in both, no other file has come, gone or changed
(`build_all_or_nothing`).
-/

namespace DesignTokens

open FileTree

variable {env : Environment} {t files : FileTree} {o : Options} {sheet : Stylesheet}

/-- A build whose generation fails ends there. -/
theorem build_of_error {g : GenerationError} (failed : (generate t o).result = .error g) :
    build env t o = ⟨⟨(generate t o).log, .error (.generation g)⟩, t⟩ := by
  simp only [build, failed]

/-- A build whose stylesheet is not written fails as the writing does. -/
theorem build_of_unwritten {e : FileError} (generated : (generate t o).result = .ok sheet)
    (failed : (replaceFile env o.outputFile sheet.css.toUTF8).run t = .error e files) :
    build env t o = ⟨⟨(generate t o).log, .error (.write e)⟩, files⟩ := by
  unfold EStateM.run at failed
  simp only [build, generated, failed]

/-- A build whose stylesheet is written returns it. -/
theorem build_of_written (generated : (generate t o).result = .ok sheet)
    (written : (replaceFile env o.outputFile sheet.css.toUTF8).run t = .ok () files) :
    build env t o =
      ⟨⟨(generate t o).log ++ writtenEvents o sheet (diagnostics (generate t o).log).length,
        .ok sheet⟩, files⟩ := by
  unfold EStateM.run at written
  simp only [build, generated, written]

/-- A build returns a stylesheet exactly if that is what was generated, and it could be written. -/
theorem build_eq_ok_iff :
    (build env t o).run.result = .ok sheet ↔
      (generate t o).result = .ok sheet ∧
        (replaceFile env o.outputFile sheet.css.toUTF8).run t = .ok () (build env t o).files := by
  refine ⟨?_, ?_⟩
  · intro returned
    cases generated : (generate t o).result with
    | error g =>
      rw [build_of_error generated] at returned
      cases returned
    | ok sheet' =>
      cases written : (replaceFile env o.outputFile sheet'.css.toUTF8).run t with
      | error e files =>
        rw [build_of_unwritten generated written] at returned
        cases returned
      | ok _ files =>
        rw [build_of_written generated written] at returned ⊢
        obtain rfl := Except.ok.inj returned
        exact ⟨rfl, written⟩
  · rintro ⟨generated, written⟩
    rw [build_of_written generated written]

/-- **A build is all or nothing.** Whatever the files are and whatever the environment refuses,
either the build returns the stylesheet that was generated, the output file holds it, and every
other file is as it was; or the build fails and every file is as it was, so that no temporary file
is left either. A failure of the generation touches nothing at all, not even a directory; any other
failure is one of the replacement, of a stylesheet that was generated. -/
theorem build_all_or_nothing (env : Environment) (t : FileTree) (o : Options) :
    let outcome := build env t o
    (∃ sheet path, outcome.run.result = .ok sheet ∧ (generate t o).result = .ok sheet ∧
      outcome.files.follow o.outputFile = .ok path ∧
      outcome.files.fileAt? path = some sheet.css.toUTF8 ∧
      ∀ other, other ≠ path → outcome.files.fileAt? other = t.fileAt? other) ∨
    (∃ e, outcome.run.result = .error e ∧
      (∀ path, outcome.files.fileAt? path = t.fileAt? path) ∧
      (∀ g, e = .generation g → (generate t o).result = .error g ∧ outcome.files = t) ∧
      ∀ w, e = .write w → ∃ sheet, (generate t o).result = .ok sheet ∧
        (replaceFile env o.outputFile sheet.css.toUTF8).run t = .error w outcome.files) := by
  intro outcome
  cases generated : (generate t o).result with
  | error g =>
    have ends : outcome = _ := build_of_error generated
    refine Or.inr ⟨.generation g, by rw [ends], fun _ => by rw [ends], ?_, nofun⟩
    rintro g' ⟨⟩
    exact ⟨rfl, by rw [ends]⟩
  | ok sheet =>
    rcases replaceFile_outcome env t o.outputFile sheet.css.toUTF8 with
      ⟨e, files, failed, grown⟩ | ⟨files, written, path, found, holds, kept⟩
    · have ends : outcome = _ := build_of_unwritten generated failed
      refine Or.inr ⟨.write e, by rw [ends], fun p => ?_, nofun, ?_⟩
      · rw [ends]
        exact (grown.keeps p).fileAt?_eq
      · rintro w ⟨⟩
        exact ⟨sheet, rfl, by rw [ends]; exact failed⟩
    · have ends : outcome = _ := build_of_written generated written
      rw [ends]
      exact Or.inl ⟨sheet, path, rfl, rfl, found, holds,
        fun other different => (kept other different).fileAt?_eq⟩

/-- Writing is refused after ten bytes: the old stylesheet is still there, and nothing beside it. -/
example :
    let old := ("\n").toUTF8
    let t : FileTree :=
      { nodes := [(["tokens"], .directory),
          (["tokens", "a.tokens.json"], .file "\x7b\x7d".toUTF8), (["tokens.css"], .file old)]
        workingDirectory := [] }
    let o : Options := { outputFile := Location.ofString "tokens.css" }
    let full : Environment :=
      { temporaryName := ".tokens.css.tmp", bytesBeforeRefusal := 10
        refuses := fun step => if step = .writeTemporary then some .refused else none }
    let outcome := build full t o
    outcome.run.result.toOption = none ∧ outcome.files.nodes = t.nodes ∧
      (build (.willing t o.outputFile) t o).run.result.toOption.isSome := by
  decide +kernel

end DesignTokens
