import DesignTokens.Proofs.Build
import DesignTokens.Proofs.FileTree.Repetition
import DesignTokens.Proofs.Source.Loading

/-!
# A build can be repeated

A build changes the file tree that the next one reads: the output may stand beside token files, and
directories may have been made for it, even one that is a tier of the source. The next build finds
the same input all the same (`SameInput.of_replaced`), provided that the output is **apart** from
the input: it is none of the files that a source may be read from (`IsApart`). So it generates the
same stylesheet and puts it where it is already (`build_repeatable`).

Whether the output is apart from the input is asked after the first build, because before it the
output may have no place yet. An output whose name is that of no input is apart in any case
(`isApart_of_name`).
-/

namespace DesignTokens

open FileTree

variable {t t' : FileTree} {root directory l target : Location} {path : FilePath} {name : String}
  {env : Environment} {o : Options} {sheet : Stylesheet}

/-! ### Where the input is -/

/-- The output is **apart** from the input when no location of an input leads to it. -/
def IsApart (t : FileTree) (root output : Location) : Prop :=
  ∀ input, IsInput root input → t.follow input ≠ t.follow output

/-- The names that inputs have. -/
def IsInputName (name : String) : Prop :=
  isTokenFileName name = true ∨ name ∈ Legacy.files.map Legacy.File.name

instance (name : String) : Decidable (IsInputName name) :=
  inferInstanceAs (Decidable (_ ∨ _))

theorem IsInputName.ne_empty (h : IsInputName name) : name ≠ "" := by
  rintro rfl
  exact absurd h (by decide)

theorem IsInputName.ne_up (h : IsInputName name) : name ≠ ".." := by
  rintro rfl
  exact absurd h (by decide)

/-- An input is a name in a directory of the source. -/
theorem IsInput.exists_child (h : IsInput root l) :
    ∃ directory name, directory ∈ sourceDirectories root ∧ IsInputName name ∧
      l = directory.child name := by
  cases h with
  | tokenFile mem named => exact ⟨_, _, mem, .inl named, rfl⟩
  | legacyFile mem =>
    exact ⟨root, _, List.mem_cons_self, .inr (List.mem_map_of_mem mem), rfl⟩

/-- A location with a name of its own leads to a path that ends with this name. -/
theorem getLast?_of_follow (named : l.name ≠ "") (down : l.name ≠ "..")
    (found : t.follow l = .ok path) : path.getLast? = some l.name := by
  rw [← l.child_parent named] at found
  obtain ⟨directory, -, -, rfl⟩ := (follow_child_eq_ok_iff down).1 found
  exact List.getLast?_concat

theorem tierText_ne_up (tier : Tier) : tier.text ≠ ".." := by
  cases tier <;> decide

/-- As soon as its root is a directory, the directories of a source have their places, and they
keep them. -/
theorem follow_sourceDirectory (evolves : t.Evolves t') (there : t.isDirectory root = true)
    (mem : directory ∈ sourceDirectories root) :
    ∃ path, t.follow directory = .ok path ∧ t'.follow directory = .ok path := by
  obtain ⟨path, found, here⟩ := isDirectory_eq_true_iff.1 there
  have found' := follow_of_directories evolves.directories evolves.workingDirectory found
  have here' := evolves.directories path here
  rcases List.mem_cons.1 mem with rfl | tiers
  · exact ⟨path, found, found'⟩
  · -- a tier is one step further than the root, whether anything is there or not
    obtain ⟨tier, -, rfl⟩ := List.mem_map.1 tiers
    have step := tierText_ne_up tier
    exact ⟨path ++ [tier.text], (follow_child_eq_ok_iff step).2 ⟨path, found, here, rfl⟩,
      (follow_child_eq_ok_iff step).2 ⟨path, found', here', rfl⟩⟩

/-! ### The input after a replacement -/

/-- A file that is not the one that was replaced has the same content as before, also when its
directory has only been made since. -/
theorem read?_child_of_replaced (formed : t.WellFormed) (evolves : t.Evolves t')
    (kept : ∀ other, other ≠ path → t.Keeps t' other) (down : name ≠ "..")
    (follow : t'.follow directory = t.follow directory)
    (apart : t'.follow (directory.child name) ≠ .ok path) :
    t'.read? (directory.child name) = t.read? (directory.child name) := by
  apply Option.ext
  intro bytes
  rw [read?_child_eq_some_iff down, read?_child_eq_some_iff down, follow]
  refine exists_congr fun place => and_congr_right fun found => ?_
  -- where the directory is there by now, the file is not the one that was replaced
  have keeps : t'.node? place = some .directory → t.Keeps t' (place ++ [name]) := by
    intro here'
    apply kept
    rintro rfl
    exact apart ((follow_child_eq_ok_iff down).2 ⟨place, follow.trans found, here', rfl⟩)
  refine ⟨?_, ?_⟩
  · rintro ⟨here', file'⟩
    have file : t.node? (place ++ [name]) = some (.file bytes) := by
      rcases keeps here' with same | ⟨-, directory'⟩
      · exact same.symm.trans file'
      · rw [directory'] at file'
        cases file'
    -- so the directory was there before
    have here := formed.parent file
    rw [List.dropLast_concat] at here
    exact ⟨here, file⟩
  · rintro ⟨here, file⟩
    have here' := evolves.directories place here
    rcases keeps here' with same | ⟨nothing, -⟩
    · exact ⟨here', same.trans file⟩
    · rw [nothing] at file
      cases file

/-- **The input is the same** after a file that is apart from it has been replaced. -/
theorem SameInput.of_replaced (formed : t.WellFormed) (evolves : t.Evolves t')
    (there : t.isDirectory root = true) (place : t'.follow target = .ok path)
    (kept : ∀ other, other ≠ path → t.Keeps t' other) (apart : IsApart t' root target) :
    SameInput root t t' := by
  have content : ∀ file, IsInput root file → t'.read? file = t.read? file := by
    intro file input
    have apart := apart file input
    obtain ⟨directory, name, mem, named, rfl⟩ := input.exists_child
    obtain ⟨p, found, found'⟩ := follow_sourceDirectory evolves there mem
    rw [place] at apart
    exact read?_child_of_replaced formed evolves kept named.ne_up (found'.trans found.symm) apart
  refine ⟨?_, fun directory mem => ?_, content⟩
  · obtain ⟨p, found, here⟩ := isDirectory_eq_true_iff.1 there
    rw [there, isDirectory_eq_true_iff]
    exact ⟨p, follow_of_directories evolves.directories evolves.workingDirectory found,
      evolves.directories p here⟩
  · -- which token files there are shows in what is read
    apply tokenFileNames_congr formed (evolves.wellFormed formed)
    intro name named
    rw [isFile, isFile, content _ (.tokenFile mem named)]

/-- The same input gives the same stylesheet and the same warnings. -/
theorem SameInput.generate (same : SameInput o.tokensDir t t') :
    SameOutcome (generate t' o) (generate t o) :=
  (same.loadSource.mapError _).bind fun _ _ => .refl _

/-! ### One build after another -/

/-- Writing the output adds no warnings. -/
theorem diagnostics_writtenEvents (o : Options) (sheet : Stylesheet) (warnings : Nat) :
    diagnostics (writtenEvents o sheet warnings) = [] := by
  rw [writtenEvents, diagnostics_append]
  split <;> rfl

theorem diagnostics_build (returned : (build env t o).run.result = .ok sheet) :
    diagnostics (build env t o).run.log = diagnostics (generate t o).log := by
  obtain ⟨generated, written⟩ := build_eq_ok_iff.1 returned
  rw [build_of_written generated written, diagnostics_append, diagnostics_writtenEvents,
    List.append_nil]

/-- A run with a result has found its root. -/
theorem isDirectory_of_generate (generated : (generate t o).result = .ok sheet) :
    t.isDirectory o.tokensDir = true := by
  by_contra missing
  have failed : (generate t o).result = .error (.load (.rootMissing o.tokensDir)) := by
    rw [generate, loadSource, detectLayout, if_neg missing]
    rfl
  rw [failed] at generated
  cases generated

/-- **An output with a name that no input has is apart** from the input, wherever it stands. -/
theorem isApart_of_name (returned : (build env t o).run.result = .ok sheet)
    (other : ¬ IsInputName o.outputFile.name) :
    IsApart (build env t o).files o.tokensDir o.outputFile := by
  obtain ⟨-, written⟩ := build_eq_ok_iff.1 returned
  obtain ⟨named, down⟩ := named_of_replaceFile written
  obtain ⟨path, place, -⟩ := hasReplaced_of_replaceFile written
  intro input isInput same
  obtain ⟨directory, name, -, isName, rfl⟩ := isInput.exists_child
  rw [place] at same
  -- the last name of the path is that of the output and that of the input
  have ofOutput := getLast?_of_follow named down place
  have ofInput := getLast?_of_follow (l := directory.child name) (by simp [isName.ne_empty])
    (by simp [isName.ne_up]) same
  rw [ofOutput, Location.name_child] at ofInput
  rw [Option.some.inj ofInput] at other
  exact other isName

/-- **A build can be repeated.** Where a build has returned and its output is apart from the input,
the next build returns the same stylesheet with the same warnings, and every path holds what it
held. All that this asks of the environment is that it permits the writing; an environment that does
always exists. -/
theorem build_repeatable (formed : t.WellFormed) (returned : (build env t o).run.result = .ok sheet)
    (apart : IsApart (build env t o).files o.tokensDir o.outputFile) :
    let first := build env t o
    (Environment.willing first.files o.outputFile).Permits first.files o.outputFile ∧
    ∀ env' : Environment, env'.Permits first.files o.outputFile →
      let second := build env' first.files o
      second.run.result = .ok sheet ∧
      diagnostics second.run.log = diagnostics first.run.log ∧
      ∀ path, second.files.node? path = first.files.node? path := by
  intro first
  obtain ⟨generated, written⟩ := build_eq_ok_iff.1 returned
  -- all that the first build has done is to replace the output
  have evolves := evolves_replaceFile env o.outputFile sheet.css.toUTF8 t
  rw [FileAction.left, written] at evolves
  obtain ⟨path, place, -, kept⟩ := hasReplaced_of_replaceFile written
  have same : SameInput o.tokensDir t first.files :=
    .of_replaced formed evolves (isDirectory_of_generate generated) place kept apart
  refine ⟨permits_willing (isDirectory_of_replaceFile written place), ?_⟩
  intro env' permits second
  -- so the second build generates what the first did, and replaces the output by what it holds
  have generated' : (generate first.files o).result = .ok sheet :=
    same.generate.result.trans generated
  obtain ⟨files', written', held⟩ := replaceFile_again written permits
  have ends : second = _ := build_of_written generated' written'
  have returned' : second.run.result = .ok sheet := by rw [ends]
  refine ⟨returned', ?_, ?_⟩
  · rw [diagnostics_build returned', diagnostics_build returned, same.generate.warnings]
  · rw [ends]
    exact held

/-- The first build makes the directory of the output, which is a tier of the source. The source
still counts as flat, and the second build returns what the first did. -/
theorem output_in_a_new_tier_is_repeatable :
    let t : FileTree :=
      { nodes := [(["tokens"], .directory),
          (["tokens", "a.tokens.json"],
            .file "\x7b\"gap\":\x7b\"$value\":\"4px\"\x7d\x7d".toUTF8)]
        workingDirectory := [] }
    let o : Options := { outputFile := Location.ofString "tokens/primitives/site.css" }
    let first := build (.willing t o.outputFile) t o
    let second := build (.willing first.files o.outputFile) first.files o
    t.isDirectory (tierDirectory o.tokensDir .primitives) = false ∧
    first.files.isDirectory (tierDirectory o.tokensDir .primitives) = true ∧
    t.WellFormed ∧ IsApart first.files o.tokensDir o.outputFile ∧
    ∃ sheet, first.run.result = .ok sheet ∧ sheet.layout = .flatAlias ∧
      second.run.result = .ok sheet ∧
      ∀ path, second.files.node? path = first.files.node? path := by
  intro t o first second
  have formed : t.WellFormed := ⟨by decide, by decide, rfl⟩
  have layout : first.run.result.toOption.map Stylesheet.layout = some .flatAlias := by
    decide +kernel
  obtain ⟨sheet, returned, flat⟩ := Option.map_eq_some_iff.1 layout
  have returned := Traced.toOption_eq_some_iff.1 returned
  have apart : IsApart first.files o.tokensDir o.outputFile :=
    isApart_of_name returned (by decide +kernel)
  obtain ⟨permits, repeats⟩ := build_repeatable formed returned apart
  obtain ⟨returned', -, held⟩ := repeats _ permits
  refine ⟨by decide +kernel, by decide +kernel, formed, apart, ?_⟩
  exact ⟨sheet, returned, flat, returned', held⟩

end DesignTokens
