import Mathlib.Data.List.Nodup
import DesignTokens.Proofs.FileTree.Replacement

/-!
# Well-formed trees of files

A file tree lists paths with what they hold, and not every list is the state of a file system. In a
**well-formed** tree a path is listed once, and what is listed stands in a directory that is there
(`FileTree.WellFormed`). An empty file system is well-formed (`wellFormed_empty`).

What an operation may do to a tree is said once, as the relation `FileTree.Evolves`: directories
stay directories, the working directory stays where it is, and a well-formed tree stays well-formed.
The relation is reflexive and transitive, so that it only has to be shown for single insertions and
erasures (`Evolves.insert`, `Evolves.erase`). From these it follows for every operation, also for
one that fails half-way, and in the end for the replacement of a file (`evolves_replaceFile`).

Why an insertion keeps a tree well-formed: a look-up goes through directories, so the place that it
ends at stands in one (`WellFormed.parent_of_follow`). A look-up that ends with a step upwards is no
exception, because in a well-formed tree that step leads to a directory as well.
-/

namespace DesignTokens

namespace FileTree

variable {t t₁ t₂ t₃ : FileTree} {path : FilePath} {l : Location} {node : Node} {bytes : ByteArray}

/-- A tree is **well-formed** when it is the state of a file system. -/
structure WellFormed (t : FileTree) : Prop where
  /-- no path is listed twice -/
  distinct : (t.nodes.map Prod.fst).Nodup
  /-- what is listed stands in a directory -/
  inDirectory : ∀ entry ∈ t.nodes, t.node? entry.1.dropLast = some .directory
  workingDirectory : t.node? t.workingDirectory = some .directory

/-! ### Where a path stands -/

@[simp] theorem node?_nil (t : FileTree) : t.node? [] = some .directory := rfl

/-- A path that holds something is the root or is listed. -/
theorem mem_of_node?_eq_some (here : t.node? path = some node) (below : path ≠ []) :
    (path, node) ∈ t.nodes := by
  rw [node?, if_neg below, List.lookup_eq_some_iff] at here
  obtain ⟨before, after, nodes, -⟩ := here
  rw [nodes]
  exact List.mem_append_right _ List.mem_cons_self

/-- A listed path holds something. -/
theorem node?_ne_none_of_mem (listed : path ∈ t.nodes.map Prod.fst) : t.node? path ≠ none := by
  intro nothing
  rw [node?, if_neg (ne_nil_of_node?_eq_none nothing), List.lookup_eq_none_iff] at nothing
  obtain ⟨entry, mem, rfl⟩ := List.mem_map.1 listed
  simpa using nothing entry mem

namespace WellFormed

/-- What a path holds stands in a directory. -/
theorem parent (h : t.WellFormed) (here : t.node? path = some node) :
    t.node? path.dropLast = some .directory := by
  by_cases root : path = []
  · rw [root, List.dropLast_nil, node?_nil]
  · exact h.inDirectory _ (mem_of_node?_eq_some here root)

/-- A look-up from a place in a directory ends at one. -/
theorem parent_of_followFrom {start : FilePath} {steps : List String} (h : t.WellFormed)
    (stands : t.node? start.dropLast = some .directory)
    (found : t.followFrom start steps = .ok path) : t.node? path.dropLast = some .directory := by
  induction steps generalizing start with
  | nil =>
    obtain rfl := Except.ok.inj found
    exact stands
  | cons step more ih =>
    unfold followFrom at found
    cases here : t.node? start with
    | none => simp [here] at found
    | some node =>
      cases node with
      | file bytes => simp [here] at found
      | directory =>
        simp only [here] at found
        split at found
        · -- one step up, and the directory there stands in a directory itself
          exact ih (h.parent stands) found
        · refine ih ?_ found
          rw [List.dropLast_concat]
          exact here

/-- **A location leads to a place in a directory**, whether anything is there or not. -/
theorem parent_of_follow (h : t.WellFormed) (found : t.follow l = .ok path) :
    t.node? path.dropLast = some .directory := by
  unfold follow at found
  split at found
  · exact h.parent_of_followFrom (h.parent h.workingDirectory) found
  -- the root counts as standing in itself
  all_goals exact h.parent_of_followFrom (h.parent (node?_nil t)) found

end WellFormed

/-- The paths that lead to a path are its beginnings, the root excluded. -/
theorem mem_ancestors_iff {path other : FilePath} :
    other ∈ ancestors path ↔ other ≠ [] ∧ other <+: path := by
  rw [ancestors, List.mem_map]
  refine ⟨?_, ?_⟩
  · rintro ⟨k, inside, rfl⟩
    refine ⟨?_, List.take_prefix _ _⟩
    intro none
    have length := congrArg List.length none
    rw [List.length_take, List.length_nil] at length
    have inside := List.mem_range.1 inside
    omega
  · rintro ⟨nonempty, begins⟩
    have positive : 0 < other.length := List.length_pos_iff.2 nonempty
    have bound := begins.length_le
    refine ⟨other.length - 1, List.mem_range.2 (by omega), ?_⟩
    rw [Nat.sub_add_cancel positive]
    exact (List.prefix_iff_eq_take.1 begins).symm

/-- **An empty file system is well-formed.** -/
theorem wellFormed_empty (workingDirectory : FilePath) : (empty workingDirectory).WellFormed := by
  have listed : (empty workingDirectory).nodes.map Prod.fst = ancestors workingDirectory := by
    rw [empty, List.map_map]
    exact List.map_id _
  -- all that is listed is a directory
  have directories : ∀ path, path <+: workingDirectory →
      (empty workingDirectory).node? path = some .directory := by
    intro path begins
    by_cases root : path = []
    · rw [root, node?_nil]
    have mem : path ∈ (empty workingDirectory).nodes.map Prod.fst := by
      rw [listed]
      exact mem_ancestors_iff.2 ⟨root, begins⟩
    obtain ⟨node, here⟩ := Option.ne_none_iff_exists'.1 (node?_ne_none_of_mem mem)
    obtain ⟨_, -, same⟩ := List.mem_map.1 (mem_of_node?_eq_some here root)
    rw [here, ← (Prod.mk.inj same).2]
  refine ⟨?_, ?_, directories _ List.prefix_rfl⟩
  · rw [listed, ancestors]
    refine List.Nodup.map_on ?_ List.nodup_range
    -- the paths have different lengths
    intro k hk k' hk' same
    have lengths := congrArg List.length same
    rw [List.mem_range] at hk hk'
    rw [List.length_take, List.length_take] at lengths
    omega
  · intro entry mem
    obtain ⟨path, ancestor, rfl⟩ := List.mem_map.1 mem
    exact directories _ ((List.dropLast_prefix path).trans (mem_ancestors_iff.1 ancestor).2)

/-! ### What operations do to a tree -/

/-- What every operation may do to a tree. -/
structure Evolves (t₁ t₂ : FileTree) : Prop where
  directories : ∀ p, t₁.node? p = some .directory → t₂.node? p = some .directory
  workingDirectory : t₂.workingDirectory = t₁.workingDirectory
  wellFormed : t₁.WellFormed → t₂.WellFormed

namespace Evolves

theorem refl (t : FileTree) : t.Evolves t :=
  ⟨fun _ directory => directory, rfl, fun h => h⟩

theorem trans (h : t₁.Evolves t₂) (h' : t₂.Evolves t₃) : t₁.Evolves t₃ :=
  ⟨fun p directory => h'.directories p (h.directories p directory),
    h'.workingDirectory.trans h.workingDirectory,
    fun formed => h'.wellFormed (h.wellFormed formed)⟩

/-- The place that a location leads to may be given any content, unless it is a directory. -/
theorem insert (found : t.follow l = .ok path) (free : t.node? path ≠ some .directory)
    (node : Node) : t.Evolves (t.insert path node) := by
  have below : path ≠ [] := by
    rintro rfl
    exact free (node?_nil t)
  have directories : ∀ p, t.node? p = some .directory →
      (t.insert path node).node? p = some .directory := by
    intro p directory
    rw [node?_insert t node p below, if_neg, directory]
    rintro rfl
    exact free directory
  refine ⟨directories, rfl, fun h => ⟨?_, ?_, directories _ h.workingDirectory⟩⟩
  · -- the path was taken out before it was put in
    have rest : ((t.erase path).nodes.map Prod.fst).Sublist (t.nodes.map Prod.fst) :=
      List.filter_sublist.map _
    refine List.nodup_cons.2 ⟨?_, h.distinct.sublist rest⟩
    intro mem
    obtain ⟨entry, kept, same⟩ := List.mem_map.1 mem
    have different := (List.mem_filter.1 kept).2
    simp [same] at different
  · intro entry mem
    apply directories
    rcases List.mem_cons.1 mem with rfl | mem
    · exact h.parent_of_follow found
    · exact h.inDirectory entry (List.mem_filter.1 mem).1

/-- A file may be taken away. -/
theorem erase (file : t.node? path = some (.file bytes)) : t.Evolves (t.erase path) := by
  have below : path ≠ [] := by
    rintro rfl
    simp at file
  have directories : ∀ p, t.node? p = some .directory →
      (t.erase path).node? p = some .directory := by
    intro p directory
    rw [node?_erase t p below, if_neg, directory]
    rintro rfl
    simp [file] at directory
  refine ⟨directories, rfl, fun h => ⟨?_, ?_, directories _ h.workingDirectory⟩⟩
  · exact h.distinct.sublist (List.filter_sublist.map _)
  · intro entry mem
    exact directories _ (h.inDirectory entry (List.mem_filter.1 mem).1)

end Evolves

end FileTree

namespace FileAction

open FileTree

variable {t : FileTree} {l : Location}

/-- A directory is made at a place that holds nothing. -/
theorem evolves_makeDirectory (l : Location) : Moves Evolves (makeDirectory l) := by
  intro t
  simp only [left, makeDirectory, EStateM.run_bind, EStateM.run_get, run_pathOf]
  cases found : t.follow l with
  | error e => exact .refl t
  | ok path =>
    dsimp only
    cases here : t.node? path with
    | some node => exact .refl t
    | none => exact .insert found (by simp [here]) _

theorem evolves_createFile (l : Location) : Moves Evolves (createFile l) := by
  intro t
  simp only [left, createFile, EStateM.run_bind, EStateM.run_get, run_pathOf]
  cases found : t.follow l with
  | error e => exact .refl t
  | ok path =>
    dsimp only
    cases here : t.node? path with
    | some node => exact .refl t
    | none => exact .insert found (by simp [here]) _

/-- A file is written at a place that is no directory. -/
theorem evolves_writeFile (l : Location) (content : ByteArray) :
    Moves Evolves (writeFile l content) := by
  intro t
  simp only [left, writeFile, EStateM.run_bind, EStateM.run_get, run_pathOf]
  cases found : t.follow l with
  | error e => exact .refl t
  | ok path =>
    dsimp only
    cases here : t.node? path with
    | none => exact .insert found (by simp [here]) _
    | some node =>
      cases node with
      | file bytes => exact .insert found (by simp [here]) _
      | directory => exact .refl t

theorem evolves_removeFile (l : Location) : Moves Evolves (removeFile l) := by
  intro t
  simp only [left, removeFile, EStateM.run_bind, EStateM.run_get, run_pathOf]
  cases found : t.follow l with
  | error e => exact .refl t
  | ok path =>
    dsimp only
    cases here : t.node? path with
    | none => exact .refl t
    | some node =>
      cases node with
      | file bytes => exact .erase here
      | directory => exact .refl t

/-- Renaming takes a file away and puts it where no directory is. -/
theorem evolves_renameFile (source target : Location) :
    Moves Evolves (renameFile source target) := by
  intro t
  unfold renameFile
  split
  · exact .refl t
  simp only [left, EStateM.run_bind, EStateM.run_get, run_pathOf]
  cases foundSource : t.follow source with
  | error e => exact .refl t
  | ok sourcePath =>
    dsimp only
    cases foundTarget : t.follow target with
    | error e => exact .refl t
    | ok targetPath =>
      dsimp only
      cases here : t.node? sourcePath with
      | none => exact .refl t
      | some node =>
        cases node with
        | directory => exact .refl t
        | file bytes =>
          have taken : t.Evolves (t.erase sourcePath) := .erase here
          -- the target is looked up again where the source is gone
          have place : (t.erase sourcePath).follow target = .ok targetPath :=
            follow_of_directories taken.directories rfl foundTarget
          have below : sourcePath ≠ [] := by
            rintro rfl
            simp at here
          have put : t.node? targetPath ≠ some .directory →
              t.Evolves ((t.erase sourcePath).insert targetPath (.file bytes)) := by
            intro free
            refine taken.trans (.insert place ?_ _)
            rw [node?_erase t targetPath below]
            split
            · simp
            · exact free
          cases there : t.node? targetPath with
          | none => exact put (by simp [there])
          | some node =>
            cases node with
            | file bytes => exact put (by simp [there])
            | directory => exact .refl t

end FileAction

open FileTree FileAction

/-- A step that is refused leaves the tree alone. -/
theorem Environment.evolves_attempt (env : Environment) (step : WriteStep) :
    Moves Evolves (env.attempt step) := by
  unfold attempt
  cases env.refuses step with
  | none => exact fun t => .refl t
  | some e => exact .of_left_eq (left_throw e) .refl

theorem Environment.evolves_write (env : Environment) (l : Location) (content : ByteArray) :
    Moves Evolves (env.write l content) := by
  unfold write
  cases env.refuses .writeTemporary with
  | none => exact evolves_writeFile _ _
  | some e => exact (evolves_writeFile _ _).bind .trans fun _ => .of_left_eq (left_throw e) .refl

/-- **Replacing a file keeps a tree well-formed**, and its directories where they are, whether it
fails or not. -/
theorem evolves_replaceFile (env : Environment) (target : Location) (content : ByteArray) :
    Moves Evolves (replaceFile env target content) := by
  refine (env.moves_makeDirectories evolves_makeDirectory .refl .trans _).bind .trans fun _ => ?_
  refine (env.evolves_attempt _).bind .trans fun _ => ?_
  refine (evolves_createFile _).bind .trans fun _ => ?_
  refine Moves.tryCatch ?_ .trans fun e => ?_
  · refine (env.evolves_write _ _).bind .trans fun _ => ?_
    refine (env.evolves_attempt _).bind .trans fun _ => ?_
    exact (env.evolves_attempt _).bind .trans fun _ => evolves_renameFile _ _
  · -- the temporary file is removed again
    exact (evolves_removeFile _).bind .trans fun _ => .of_left_eq (left_throw e) .refl

end DesignTokens
