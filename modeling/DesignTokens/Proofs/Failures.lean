import DesignTokens.CommandLine.Run
import DesignTokens.Proofs.Build
import DesignTokens.Proofs.Color.Conversion
import DesignTokens.Proofs.Generation
import DesignTokens.Proofs.Source.Loading

/-!
# How a run fails

A run fails while its source is loaded, or because an alias leads back to itself. Loading fails at
the **first faulty file**, the first one in the order of reading that does not hold an object
(`loadSource_fails_iff`). What is wrong with that file decides the kind of the failure:

* `documented_unless_noText` — every failure is of a documented kind, and the command puts it into
  words, unless the first faulty file is there and is no text. Such a failure has no kind and no
  report.
* `misses_input_iff` — the failure is a missing input exactly if the root of the source is no
  directory, or if the source has the legacy layout and its first faulty file is no file at all.

The conversion of colours is no stage that fails, as far as the curves that the machine computes
stay in range (`CurvesInRange`). Files in which half of a pair of escapes stands by itself are not
described (`Json.loneHalf`).

Layouts with token files never miss an input: their files are found by listing directories, so that
each of them is there when it is read (`isFile_of_mem_files`).
-/

namespace DesignTokens

open FileTree

variable {t : FileTree} {o : Options} {root file : Location} {layout : Layout} {e : LoadError}
  {echo : String → String} {env : Environment} {verbose : Bool}

/-- The **first faulty file** of a source: it does not hold an object, and all files that are read
before it do. -/
def FirstFaulty (t : FileTree) (root file : Location) : Prop :=
  ∃ layout front back, detectLayout t root = .ok layout ∧
    layout.files t root = front ++ file :: back ∧ (∀ f ∈ front, HoldsObject t f) ∧
    ¬ HoldsObject t file

/-- **Loading fails** without a directory, or at the first faulty file. -/
theorem loadSource_fails_iff :
    (loadSource t root).result = .error e ↔
      (t.isDirectory root = false ∧ e = .rootMissing root) ∨
        ∃ file, FirstFaulty t root file ∧ HasFault t file e := by
  rw [loadSource_eq_error_iff]
  refine or_congr_right ⟨?_, ?_⟩
  · rintro ⟨layout, detected, failed⟩
    obtain ⟨front, file, back, files, fault, before⟩ := List.findSome?_eq_some_iff.1 failed
    refine ⟨file, ⟨layout, front, back, detected, files, ?_, ?_⟩, fault?_eq_some_iff.1 fault⟩
    · exact fun f mem => fault?_eq_none_iff.1 (before f mem)
    · rw [← fault?_eq_none_iff, fault]
      exact nofun
  · rintro ⟨file, ⟨layout, front, back, detected, files, before, -⟩, fault⟩
    refine ⟨layout, detected, List.findSome?_eq_some_iff.2 ?_⟩
    refine ⟨front, file, back, files, fault?_eq_some_iff.2 fault, ?_⟩
    exact fun f mem => fault?_eq_none_iff.2 (before f mem)

/-- A run that fails with a fault of the loading fails with it. -/
theorem generate_eq_load_error_iff :
    (generate t o).result = .error (.load e) ↔ (loadSource t o.tokensDir).result = .error e := by
  rw [generate_eq_error_iff]
  simp

/-- **A run fails at its first faulty file**, with what is wrong with it. -/
theorem FirstFaulty.exists_fault (first : FirstFaulty t o.tokensDir file) :
    ∃ e, HasFault t file e ∧ (generate t o).result = .error (.load e) := by
  have faulty : ¬ HoldsObject t file := by
    obtain ⟨layout, front, back, -, -, -, faulty⟩ := first
    exact faulty
  obtain ⟨e, fault⟩ := Option.ne_none_iff_exists'.1 (mt fault?_eq_none_iff.1 faulty)
  have fault := fault?_eq_some_iff.1 fault
  refine ⟨e, fault, generate_eq_load_error_iff.2 ?_⟩
  exact loadSource_fails_iff.2 (.inr ⟨file, first, fault⟩)

/-! ### Failures without a report -/

/-- Exactly the documented failures have a report. -/
theorem GenerationError.isSome_report? (g : GenerationError) :
    g.report?.isSome = g.kind?.isSome := by
  cases g with
  | load e => exact e.isSome_report?
  | cycle chain => rfl

/-- A run fails with no documented kind exactly if the first faulty file is no text. -/
theorem undocumented_iff :
    (∃ g, (generate t o).result = .error g ∧ g.kind? = none) ↔
      ∃ file bytes, FirstFaulty t o.tokensDir file ∧ t.read? file = some bytes ∧
        IsNoText bytes := by
  refine ⟨?_, ?_⟩
  · rintro ⟨g, failed, undocumented⟩
    rcases generate_eq_error_iff.1 failed with ⟨e, loading, rfl⟩ | ⟨set, cycle, -, -, rfl⟩
    · rcases loadSource_fails_iff.1 loading with ⟨-, rfl⟩ | ⟨file, first, fault⟩
      · cases undocumented
      · obtain ⟨bytes, read, noText⟩ := fault.kind?_eq_none_iff.1 undocumented
        exact ⟨file, bytes, first, read, noText⟩
    · cases undocumented
  · rintro ⟨file, bytes, first, read, noText⟩
    obtain ⟨e, fault, failed⟩ := first.exists_fault
    exact ⟨.load e, failed, fault.kind?_eq_none_iff.2 ⟨bytes, read, noText⟩⟩

/-- What the command prints before a failure: its records if it is verbose. -/
def recordLines (t : FileTree) (o : Options) (verbose : Bool) : List String :=
  if verbose then (generate t o).log.flatMap CommandLine.logLines else []

/-- The command ends with code 1 when the generation fails, and prints the report of the failure,
if there is one, after its records. -/
theorem runGenerate_of_error {g : GenerationError} (failed : (generate t o).result = .error g) :
    CommandLine.runGenerate echo env t o verbose =
      { exitCode := 1
        output := ""
        errors := CommandLine.printLines
          (recordLines t o verbose ++ CommandLine.errorLines echo (.generation g))
        files := t
        unreported := CommandLine.unreported? (.generation g) } := by
  simp only [CommandLine.runGenerate, build_of_error failed, recordLines]

/-- **Only a file that is no text makes a run fail without a report.** A run ends with a stylesheet
or with a failure of a documented kind, unless the first faulty file of the source is there and is
no text. Nor does the conversion of a colour fail, of any colour that a source can hold, if the
curves of the machine stay in range; so the text that stands in for a failure is never written. The
command answers a failure of a documented kind with its report as the last line, in the form in
which the console shows it; of any other it says nothing. -/
theorem documented_unless_noText (echo : String → String) (env : Environment) (t : FileTree)
    (o : Options) (verbose : Bool) :
    (((∃ sheet, (generate t o).result = .ok sheet) ∨
        ∃ g kind, (generate t o).result = .error g ∧ g.kind? = some kind) ↔
      ¬ ∃ file bytes, FirstFaulty t o.tokensDir file ∧ t.read? file = some bytes ∧
        IsNoText bytes) ∧
    (CurvesInRange Float.pow Float.cbrt Float.atan2 → ∀ c : Rgba, c.oklch = .ok c.oklchText) ∧
    ∀ g, (generate t o).result = .error g →
      let outcome := CommandLine.runGenerate echo env t o verbose
      outcome.exitCode = 1 ∧
      (∀ kind, g.kind? = some kind → outcome.unreported = none ∧
        ∃ report, g.report? = some report ∧ outcome.errors =
          CommandLine.printLines (recordLines t o verbose ++ [echo ("Error: " ++ report.text)])) ∧
      (g.kind? = none → outcome.unreported = some (.generation g) ∧
        outcome.errors = CommandLine.printLines (recordLines t o verbose)) := by
  refine ⟨?_, fun curves c => c.oklch_eq_ok curves, ?_⟩
  · rw [← undocumented_iff]
    cases ended : (generate t o).result with
    | ok sheet => simp
    | error g => cases documented : g.kind? <;> simp [documented]
  · intro g failed outcome
    have ends : outcome = _ := runGenerate_of_error failed
    rw [ends]
    have reports := g.isSome_report?
    refine ⟨rfl, ?_, ?_⟩
    · intro kind documented
      rw [documented] at reports
      obtain ⟨report, reported⟩ := Option.isSome_iff_exists.1 reports
      have build : BuildError.report? (.generation g) = some report := reported
      simp [CommandLine.unreported?, CommandLine.errorLines, build, reported]
    · intro undocumented
      rw [undocumented] at reports
      have build : BuildError.report? (.generation g) = none :=
        Option.not_isSome_iff_eq_none.1 (by simp [BuildError.report?, reports])
      simp [CommandLine.unreported?, CommandLine.errorLines, build]

/-- A token file with a byte that begins no character: the run fails without a kind and without a
report, and the command prints nothing. -/
theorem stray_byte_is_not_reported :
    let t : FileTree :=
      { nodes := [(["tokens"], .directory), (["tokens", "a.tokens.json"], .file ⟨#[0xff]⟩)]
        workingDirectory := [] }
    let o : Options := {}
    (¬ ∃ sheet, (generate t o).result = .ok sheet) ∧
    (∀ g, (generate t o).result = .error g → g.kind? = none ∧ g.report? = none) ∧
    ∀ echo, (CommandLine.runGenerate echo (.willing t o.outputFile) t o false).errors = "" := by
  intro t o
  have failed : (generate t o).result =
      .error (.load (.notText (o.tokensDir.child "a.tokens.json"))) :=
    failure?_eq_some_iff.1 (by decide +kernel)
  refine ⟨?_, ?_, ?_⟩
  · rintro ⟨sheet, ended⟩
    rw [failed] at ended
    cases ended
  · intro g failed'
    rw [failed] at failed'
    obtain rfl := Except.error.inj failed'
    exact ⟨rfl, rfl⟩
  · intro echo
    rw [runGenerate_of_error failed]
    rfl

/-! ### Missing input -/

/-- The files of a source with token files are there. -/
theorem isFile_of_mem_files (trees : layout ≠ .legacy) (mem : file ∈ layout.files t root) :
    t.isFile file = true := by
  have listed : ∀ directory, file ∈ tokenFiles t directory → t.isFile file = true := by
    intro directory mem
    obtain ⟨name, listed, rfl⟩ := List.mem_map.1 mem
    exact (mem_tokenFileNames_iff.1 listed).2
  cases layout with
  | legacy => exact absurd rfl trees
  | flatAlias => exact listed _ mem
  | threeTier =>
    rcases List.mem_append.1 mem with mem | mem
    · exact listed _ mem
    · rcases List.mem_append.1 mem with mem | mem
      · exact listed _ mem
      · exact listed _ mem

/-- A file that is missing belongs to the legacy layout. -/
theorem FirstFaulty.of_missing (first : FirstFaulty t root file) (missing : t.isFile file = false) :
    detectLayout t root = .ok .legacy ∧ ∃ front back, legacyFiles root = front ++ file :: back ∧
      ∀ f ∈ front, HoldsObject t f := by
  obtain ⟨layout, front, back, detected, files, before, -⟩ := first
  obtain rfl : layout = .legacy := by
    by_contra trees
    have mem : file ∈ layout.files t root := by simp [files]
    rw [isFile_of_mem_files trees mem] at missing
    cases missing
  exact ⟨detected, front, back, files, before⟩

theorem not_holdsObject_of_missing (missing : t.isFile file = false) : ¬ HoldsObject t file := by
  rw [← fault?_eq_none_iff, fault?_of_missing missing]
  exact nofun

/-- What a run that misses its input has come across. -/
theorem cases_of_missingInput {g : GenerationError} (failed : (generate t o).result = .error g)
    (kind : g.kind? = some .missingInput) :
    t.isDirectory o.tokensDir = false ∨
      ∃ file, FirstFaulty t o.tokensDir file ∧ t.isFile file = false := by
  rcases generate_eq_error_iff.1 failed with ⟨e, loading, rfl⟩ | ⟨set, cycle, -, -, rfl⟩
  · rcases loadSource_fails_iff.1 loading with ⟨missing, -⟩ | ⟨file, first, fault⟩
    · exact .inl missing
    · exact .inr ⟨file, first, fault.kind?_eq_missing_iff.1 kind⟩
  · -- an alias that leads back to itself is a failure of another kind
    cases kind

/-- **When a run misses its input.** The root of the source is no directory; or neither the tier of
primitives nor the root directly holds a token file, and the first of the legacy files, in their
fixed order, that does not hold an object is not even a file. Where there are token files, an input
is never missed, whatever the other tiers are. And of the legacy files, one that is there but does
not hold an object comes before any that is missing later on: the run fails with what is wrong with
that one. -/
theorem misses_input_iff (t : FileTree) (o : Options) :
    ((∃ g, (generate t o).result = .error g ∧ g.kind? = some .missingInput) ↔
      t.isDirectory o.tokensDir = false ∨
      ¬ HoldsTokenFile t (tierDirectory o.tokensDir .primitives) ∧ ¬ HoldsTokenFile t o.tokensDir ∧
        ∃ front file back, legacyFiles o.tokensDir = front ++ file :: back ∧
          (∀ f ∈ front, HoldsObject t f) ∧ t.isFile file = false) ∧
    (∀ layout, detectLayout t o.tokensDir = .ok layout → layout ≠ .legacy →
      ∀ g, (generate t o).result = .error g → g.kind? ≠ some .missingInput) ∧
    ∀ front file back, detectLayout t o.tokensDir = .ok .legacy →
      legacyFiles o.tokensDir = front ++ file :: back → (∀ f ∈ front, HoldsObject t f) →
      t.isFile file = true → ¬ HoldsObject t file →
      ∃ e, HasFault t file e ∧ (generate t o).result = .error (.load e) ∧
        e.kind? ≠ some .missingInput := by
  refine ⟨⟨?_, ?_⟩, ?_, ?_⟩
  · rintro ⟨g, failed, kind⟩
    refine (cases_of_missingInput failed kind).imp_right ?_
    rintro ⟨file, first, missing⟩
    obtain ⟨detected, front, back, files, before⟩ := first.of_missing missing
    obtain ⟨-, noTiers, noTrees⟩ := detectLayout_eq_ok_iff.1 detected
    exact ⟨noTiers, noTrees, front, file, back, files, before, missing⟩
  · intro missing
    -- without a directory the layout is not even looked for
    cases there : t.isDirectory o.tokensDir with
    | false =>
      exact ⟨.load (.rootMissing o.tokensDir),
        generate_eq_load_error_iff.2 (loadSource_fails_iff.2 (.inl ⟨there, rfl⟩)), rfl⟩
    | true =>
      obtain ⟨noTiers, noTrees, front, file, back, files, before, missing⟩ :=
        missing.resolve_left (by simp [there])
      have first : FirstFaulty t o.tokensDir file :=
        ⟨.legacy, front, back, detectLayout_eq_ok_iff.2 ⟨there, noTiers, noTrees⟩, files, before,
          not_holdsObject_of_missing missing⟩
      obtain ⟨e, fault, failed⟩ := first.exists_fault
      exact ⟨.load e, failed, fault.kind?_eq_missing_iff.2 missing⟩
  · intro layout detected trees g failed kind
    rcases cases_of_missingInput failed kind with missing | ⟨file, first, missing⟩
    · rw [(detectLayout_eq_ok_iff.1 detected).1] at missing
      cases missing
    · -- only the legacy layout names files that may be missing
      obtain ⟨detected', -⟩ := first.of_missing missing
      rw [detected] at detected'
      exact trees (Except.ok.inj detected')
  · intro front file back detected files before there faulty
    have first : FirstFaulty t o.tokensDir file :=
      ⟨.legacy, front, back, detected, files, before, faulty⟩
    obtain ⟨e, fault, failed⟩ := first.exists_fault
    refine ⟨e, fault, failed, ?_⟩
    rw [Ne, fault.kind?_eq_missing_iff, there]
    exact nofun

/-- A directory named like a token file makes no layout, and one named like a legacy file is missing
as a file. -/
example :
    let t : FileTree :=
      { nodes := [(["tokens"], .directory), (["tokens", "a.tokens.json"], .directory),
          (["tokens", "colors.json"], .file "\x7b\x7d".toUTF8),
          (["tokens", "sizing.json"], .directory)]
        workingDirectory := [] }
    failure? (generate t {}).result =
      some (.load (.fileMissing (Location.ofString "tokens/sizing.json"))) := by
  decide +kernel

end DesignTokens
