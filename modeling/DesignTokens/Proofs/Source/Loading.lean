import DesignTokens.Proofs.Source.TokenFiles
import DesignTokens.Generation

/-!
# What the loading of a source depends on

The layout of a source says which files are read, and in which order (`Layout.files`). Loading fails
as the first of these that does not hold an object (`loadSource_eq_error_iff`): a file of tokens
that can be read is loaded, whatever it says.

Beyond the bytes of these files, loading depends on which token files the directories of the source
hold, and on nothing else. `SameInput` says that two file trees agree on that much, and
`loadSource_congr` that a source is then loaded with the same outcome from both: the same result
and the same warnings. The other records may differ, as a tier that is missing in one tree may be an
empty directory in the other.
-/

namespace DesignTokens

open FileTree

variable {t t' : FileTree} {root directory file : Location} {layout : Layout} {e : LoadError}

/-! ### The layout -/

/-- What the directories of a source must hold for it to have a layout. -/
def Layout.Fits (t : FileTree) (root : Location) : Layout → Prop
  | .threeTier => HoldsTokenFile t (tierDirectory root .primitives)
  | .flatAlias => ¬ HoldsTokenFile t (tierDirectory root .primitives) ∧ HoldsTokenFile t root
  | .legacy => ¬ HoldsTokenFile t (tierDirectory root .primitives) ∧ ¬ HoldsTokenFile t root

theorem detectLayout_eq_error_iff :
    detectLayout t root = .error e ↔ t.isDirectory root = false ∧ e = .rootMissing root := by
  rw [detectLayout]
  cases t.isDirectory root with
  | false => simp [eq_comm]
  | true =>
    rw [if_pos rfl]
    split
    · simp
    · split <;> simp

/-- A layout is detected exactly if it fits. -/
theorem detectLayout_eq_ok_iff :
    detectLayout t root = .ok layout ↔ t.isDirectory root = true ∧ layout.Fits t root := by
  rw [detectLayout]
  cases t.isDirectory root with
  | false => simp
  | true =>
    rw [if_pos rfl]
    split
    next tiers =>
      rw [tokenFileNames_ne_nil_iff] at tiers
      cases layout <;> simp [Layout.Fits, tiers]
    next noTiers =>
      rw [tokenFileNames_ne_nil_iff] at noTiers
      split
      next trees =>
        rw [tokenFileNames_ne_nil_iff] at trees
        cases layout <;> simp [Layout.Fits, noTiers, trees]
      next noTrees =>
        rw [tokenFileNames_ne_nil_iff] at noTrees
        cases layout <;> simp [Layout.Fits, noTiers, noTrees]

/-! ### The first file that cannot be read -/

/-- The token files of a directory. -/
def tokenFiles (t : FileTree) (directory : Location) : List Location :=
  (tokenFileNames t directory).map directory.child

/-- The files of the legacy layout. -/
def legacyFiles (root : Location) : List Location :=
  Legacy.files.map fun file => root.child file.name

/-- The files that a source with a given layout is loaded from, in the order in which they are
read. -/
def Layout.files (t : FileTree) (root : Location) : Layout → List Location
  | .threeTier =>
    tokenFiles t (tierDirectory root .primitives) ++
      (tokenFiles t (tierDirectory root .semantic) ++ tokenFiles t (tierDirectory root .component))
  | .flatAlias => tokenFiles t root
  | .legacy => legacyFiles root

theorem failure?_loadFiles (t : FileTree) (directory : Location) (names : List String) :
    failure? (loadFiles t directory names) =
      (names.map directory.child).findSome? (fault? t) := by
  induction names with
  | nil => rfl
  | cons name rest ih =>
    rw [List.map_cons, List.findSome?_cons, ← ih, loadFiles, fault?]
    cases readTokenFile t (directory.child name) with
    | error e => rfl
    | ok tree => cases loadFiles t directory rest <;> rfl

theorem failure?_loadDirectory (t : FileTree) (directory : Location) :
    failure? (loadDirectory t directory) = (tokenFiles t directory).findSome? (fault? t) :=
  failure?_loadFiles t directory _

/-- Where there is no directory, there is nothing to load. -/
theorem loadDirectory_of_missing (missing : t.isDirectory directory = false) :
    loadDirectory t directory = .ok [] := by
  have none : tokenFileNames t directory = [] := by
    by_contra some
    rw [(tokenFileNames_ne_nil_iff.1 some).isDirectory] at missing
    cases missing
  rw [loadDirectory, none, loadFiles]

/-- A tier is loaded from its directory; only the primitives must be there. -/
theorem result_loadTier {tier : Tier}
    (there : tier = .primitives → t.isDirectory (tierDirectory root tier) = true) :
    (loadTier t root tier).result = loadDirectory t (tierDirectory root tier) := by
  unfold loadTier
  dsimp only
  split
  · rfl
  next missing =>
    rw [loadDirectory_of_missing (by simpa using missing), if_neg]
    · rfl
    · exact fun first => missing (there first)

theorem failure?_loadLegacyFiles (t : FileTree) (root : Location) (files : List Legacy.File) :
    failure? (loadLegacyFiles t root files).result =
      (files.map fun file => root.child file.name).findSome? (fault? t) := by
  induction files with
  | nil => rfl
  | cons file rest ih =>
    -- the warnings about a file and the tokens of it have no part in whether the loading fails
    have later : ∀ data, failure? (do
        (⟨(file.warnings data).map .warned, .ok ()⟩ : Loading Unit)
        let more ← loadLegacyFiles t root rest
        return file.tokens data ++ more : Loading (List Token)).result =
          (rest.map fun file => root.child file.name).findSome? (fault? t) := by
      intro data
      rw [Traced.bind_of_ok rfl, ← ih]
      exact Traced.failure?_bind_pure _ _
    rw [loadLegacyFiles, Traced.failure?_bind later, List.map_cons, List.findSome?_cons]
    rw [Traced.result_ofExcept, ← fault?]
    cases fault? t (root.child file.name) <;> rfl

/-- A source with a layout that fits is loaded unless one of its files cannot be read. -/
theorem failure?_loadLayout (fits : layout.Fits t root) :
    failure? (loadLayout t root layout).result = (layout.files t root).findSome? (fault? t) := by
  cases layout with
  | legacy =>
    rw [loadLayout, Traced.failure?_bind_pure]
    exact failure?_loadLegacyFiles t root _
  | flatAlias =>
    rw [loadLayout, Traced.failure?_bind_pure]
    exact failure?_loadDirectory t root
  | threeTier =>
    have ofTier : ∀ tier, failure? (loadTier t root tier).result =
        (tokenFiles t (tierDirectory root tier)).findSome? (fault? t) := by
      intro tier
      rw [result_loadTier, failure?_loadDirectory]
      rintro rfl
      exact HoldsTokenFile.isDirectory fits
    -- one tier after the other, from the last to the first
    have component : ∀ primitives semantic, failure? (do
        let component ← loadTier t root .component
        return {
          layout := .threeTier
          primitives := primitives
          semantic := semantic
          component := component } : Loading TokenSet).result =
        (tokenFiles t (tierDirectory root .component)).findSome? (fault? t) := by
      intro primitives semantic
      rw [Traced.failure?_bind_pure, ofTier]
    rw [loadLayout, loadTiers, Layout.files, List.findSome?_append, List.findSome?_append,
      ← ofTier .primitives, ← ofTier .semantic]
    refine Traced.failure?_bind fun primitives => ?_
    exact Traced.failure?_bind fun semantic => component primitives semantic

/-- **The loading of a source fails** if there is no directory, or else as the first of its files
that cannot be read does. -/
theorem loadSource_eq_error_iff :
    (loadSource t root).result = .error e ↔
      (t.isDirectory root = false ∧ e = .rootMissing root) ∨
        ∃ layout, detectLayout t root = .ok layout ∧
          (layout.files t root).findSome? (fault? t) = some e := by
  rw [loadSource]
  cases detected : detectLayout t root with
  | error e' =>
    obtain ⟨missing, rfl⟩ := detectLayout_eq_error_iff.1 detected
    rw [Traced.bind_of_error rfl]
    simp [missing, eq_comm]
  | ok layout =>
    obtain ⟨there, fits⟩ := detectLayout_eq_ok_iff.1 detected
    -- once the layout is known, nothing but the loading can fail
    have loading : failure? (loadTokens t root layout).result =
        (layout.files t root).findSome? (fault? t) := by
      rw [loadTokens, Traced.failure?_bind_of_none fun _ => rfl]
      exact failure?_loadLayout fits
    rw [Traced.bind_of_ok rfl, Traced.bind_of_ok rfl]
    simp only [← failure?_eq_some_iff, loading, there, Except.ok.injEq, exists_eq_left']
    simp

/-! ### Nothing else matters -/

/-- The directories that a source with the given root may be read from. -/
def sourceDirectories (root : Location) : List Location :=
  root :: [Tier.primitives, .semantic, .component].map (tierDirectory root)

/-- The locations of files that a source may be read from, whatever its layout. -/
inductive IsInput (root : Location) : Location → Prop
  | tokenFile {directory : Location} {name : String} (mem : directory ∈ sourceDirectories root)
    (named : isTokenFileName name = true) : IsInput root (directory.child name)
  | legacyFile {file : Legacy.File} (mem : file ∈ Legacy.files) :
    IsInput root (root.child file.name)

/-- Two file trees have the **same input** for a source. -/
structure SameInput (root : Location) (t t' : FileTree) : Prop where
  isDirectory : t'.isDirectory root = t.isDirectory root
  names : ∀ directory ∈ sourceDirectories root,
    tokenFileNames t' directory = tokenFileNames t directory
  content : ∀ file, IsInput root file → t'.read? file = t.read? file

/-- Two runs have the **same outcome** when they end alike and warn of the same. -/
structure SameOutcome {ε α : Type} (x y : Traced Event ε α) : Prop where
  result : x.result = y.result
  warnings : diagnostics x.log = diagnostics y.log

namespace SameOutcome

variable {ε δ α β : Type} {x y : Traced Event ε α} {f g : α → Traced Event ε β}

theorem refl (x : Traced Event ε α) : SameOutcome x x :=
  ⟨rfl, rfl⟩

/-- A run goes on as another one does, from whatever the first part of it ended with. -/
theorem bind (h : SameOutcome x y) (hf : ∀ a, y.result = .ok a → SameOutcome (f a) (g a)) :
    SameOutcome (x >>= f) (y >>= g) := by
  refine ⟨Traced.result_bind_congr h.result fun a ended => ?_, ?_⟩
  · exact (hf a (h.result.symm.trans ended)).result
  cases result : y.result with
  | ok a =>
    rw [Traced.log_bind_of_ok (h.result.trans result), Traced.log_bind_of_ok result,
      diagnostics_append, diagnostics_append, h.warnings, (hf a result).warnings]
  | error e =>
    rw [Traced.bind_of_error (h.result.trans result), Traced.bind_of_error result]
    exact h.warnings

theorem mapError (h : SameOutcome x y) (f : ε → δ) : SameOutcome (x.mapError f) (y.mapError f) :=
  ⟨congrArg (Except.mapError f) h.result, h.warnings⟩

end SameOutcome

theorem readTokenFile_congr (same : t'.read? file = t.read? file) :
    readTokenFile t' file = readTokenFile t file := by
  rw [readTokenFile, readTokenFile, same]

theorem loadFiles_congr {names : List String}
    (same : ∀ name ∈ names, t'.read? (directory.child name) = t.read? (directory.child name)) :
    loadFiles t' directory names = loadFiles t directory names := by
  induction names with
  | nil => rfl
  | cons name rest ih =>
    rw [List.forall_mem_cons] at same
    rw [loadFiles, loadFiles, readTokenFile_congr same.1, ih same.2]

theorem loadLegacyFiles_congr {files : List Legacy.File}
    (same : ∀ file ∈ files, t'.read? (root.child file.name) = t.read? (root.child file.name)) :
    loadLegacyFiles t' root files = loadLegacyFiles t root files := by
  induction files with
  | nil => rfl
  | cons file rest ih =>
    rw [List.forall_mem_cons] at same
    rw [loadLegacyFiles, loadLegacyFiles, readTokenFile_congr same.1, ih same.2]

/-- Loading a tier warns of nothing. -/
theorem diagnostics_loadTier (t : FileTree) (root : Location) (tier : Tier) :
    diagnostics (loadTier t root tier).log = [] := by
  unfold loadTier
  dsimp only
  split
  · rfl
  · split <;> rfl

namespace SameInput

variable (same : SameInput root t t')

include same

theorem holdsTokenFile_iff (mem : directory ∈ sourceDirectories root) :
    HoldsTokenFile t' directory ↔ HoldsTokenFile t directory := by
  rw [← tokenFileNames_ne_nil_iff, ← tokenFileNames_ne_nil_iff, same.names directory mem]

theorem detectLayout_eq : detectLayout t' root = detectLayout t root := by
  rw [detectLayout, detectLayout, same.isDirectory, same.names root (by simp [sourceDirectories]),
    same.names (tierDirectory root .primitives) (by simp [sourceDirectories])]

theorem loadDirectory_eq (mem : directory ∈ sourceDirectories root) :
    loadDirectory t' directory = loadDirectory t directory := by
  rw [loadDirectory, loadDirectory, same.names directory mem]
  apply loadFiles_congr
  intro name listed
  exact same.content _ (.tokenFile mem (mem_tokenFileNames_iff.1 listed).1)

/-- A source with a layout that fits is loaded with the same outcome from both trees. -/
theorem loadLayout (fits : layout.Fits t root) :
    SameOutcome (loadLayout t' root layout) (loadLayout t root layout) := by
  cases layout with
  | legacy =>
    refine SameOutcome.bind ?_ fun _ _ => .refl _
    rw [loadLegacyFiles_congr fun file mem => same.content _ (.legacyFile mem)]
    exact .refl _
  | flatAlias =>
    refine SameOutcome.bind ?_ fun _ _ => .refl _
    rw [same.loadDirectory_eq (by simp [sourceDirectories])]
    exact .refl _
  | threeTier =>
    have tier : ∀ tier, SameOutcome (loadTier t' root tier) (loadTier t root tier) := by
      intro tier
      have mem : tierDirectory root tier ∈ sourceDirectories root := by
        cases tier <;> simp [sourceDirectories]
      refine ⟨?_, by rw [diagnostics_loadTier, diagnostics_loadTier]⟩
      rw [result_loadTier, result_loadTier, same.loadDirectory_eq mem]
      -- the primitives are there in both trees
      · rintro rfl
        exact HoldsTokenFile.isDirectory fits
      · rintro rfl
        exact HoldsTokenFile.isDirectory ((same.holdsTokenFile_iff mem).2 fits)
    exact (tier _).bind fun _ _ => (tier _).bind fun _ _ => (tier _).bind fun _ _ => .refl _

/-- **The same input is loaded with the same outcome.** -/
theorem loadSource : SameOutcome (loadSource t' root) (loadSource t root) := by
  rw [DesignTokens.loadSource, DesignTokens.loadSource, same.detectLayout_eq]
  refine SameOutcome.bind (.refl _) fun layout detected => ?_
  have fits := (detectLayout_eq_ok_iff.1 detected).2
  refine SameOutcome.bind (.refl _) fun _ _ => ?_
  exact SameOutcome.bind (same.loadLayout fits) fun _ _ => .refl _

end SameInput

end DesignTokens
