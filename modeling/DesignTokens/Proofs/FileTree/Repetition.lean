import DesignTokens.Proofs.FileTree.Listing

/-!
# Replacing a file again

A replacement that succeeds has left what another one needs: the directories that lead to the file
are made, the file has a name that can be taken (`named_of_replaceFile`), and there is nothing left
of the temporary file. What remains open is up to the environment: it **permits** a replacement when
it refuses no step and names a temporary file that is not there yet (`Environment.Permits`). An
environment that is made for a directory does (`permits_willing`).

Where it is permitted, replacing a file in a directory succeeds (`replaceFile_of_permits`), and
replacing it again by the content that it has leaves every path as it is (`replaceFile_again`).
-/

namespace DesignTokens

open FileTree

namespace FileAction

variable {α β : Type} {t t' t₁ t₂ : FileTree} {path temporary : FilePath} {l target : Location}
  {content : ByteArray}

/-- A composed action succeeds when both of its parts do. -/
theorem run_bind_eq_ok_iff {x : FileAction α} {f : α → FileAction β} {b : β} :
    (x >>= f).run t = .ok b t' ↔ ∃ a t₁, x.run t = .ok a t₁ ∧ (f a).run t₁ = .ok b t' := by
  rw [EStateM.run_bind]
  cases x.run t with
  | ok a t₁ => simp
  | error e t₁ => simp

/-- Nothing is made up for where nothing fails. -/
theorem run_tryCatch_of_ok {x : FileAction α} {handle : FileError → FileAction α} {a : α}
    (h : x.run t = .ok a t') : (tryCatch x handle).run t = .ok a t' := by
  rw [run_tryCatch, h]

/-- Only a name of its own can be taken. -/
theorem named_of_renameFile (renamed : (renameFile l target).run t = .ok () t') :
    target.name ≠ "" ∧ target.name ≠ ".." := by
  unfold renameFile at renamed
  split at renamed
  · cases renamed
  next named => exact not_or.1 named

/-- Directories that are there are not made. -/
theorem run_makeDirectories (there : t.isDirectory l = true) :
    (makeDirectories l).run t = .ok () t := by
  obtain ⟨path, found, here⟩ := isDirectory_eq_true_iff.1 there
  -- the attempt fails, but not because something is missing, so it does not go further up
  have refused : (makeDirectory l).run t = .error .alreadyExists t := by
    simp only [makeDirectory, EStateM.run_bind, EStateM.run_get, run_pathOf, found, here]
    rfl
  have accepted : (acceptDirectory l .alreadyExists).run t = .ok () t := by
    simp only [acceptDirectory, EStateM.run_bind, EStateM.run_get, there]
    rfl
  obtain ⟨anchor, steps⟩ := l
  rw [makeDirectories]
  cases reversed : steps.reverse with
  | nil =>
    obtain rfl := List.reverse_eq_nil_iff.1 reversed
    rw [makeDirectoriesUp, run_tryCatch, refused]
    exact accepted
  | cons step above =>
    rw [makeDirectoriesUp, run_tryCatch, ← reversed, List.reverse_reverse, refused]
    exact accepted

/-- A file is created where there is nothing. -/
theorem run_createFile_of_free (found : t.follow l = .ok path) (nothing : t.node? path = none) :
    (createFile l).run t = .ok () (t.insert path (.file ByteArray.empty)) := by
  simp only [createFile, EStateM.run_bind, EStateM.run_get, run_pathOf, found, nothing]
  rfl

/-- The temporary file takes a name that can be taken, unless a directory has it. -/
theorem run_renameFile_of_free (h : t₁.HoldsTemporary temporary t₂)
    (found : t₁.follow l = .ok temporary) (written : t₂.node? temporary = some (.file content))
    (named : target.name ≠ "" ∧ target.name ≠ "..") (place : t₁.follow target = .ok path)
    (free : t₁.node? path ≠ some .directory) :
    (renameFile l target).run t₂ =
      .ok () ((t₂.erase temporary).insert path (.file content)) := by
  -- the target may be the temporary file itself
  have free' : t₂.node? path ≠ some .directory := by
    by_cases same : path = temporary
    · simp [same, written]
    · rwa [h.others path same]
  rw [renameFile, if_neg (not_or.2 named)]
  simp only [EStateM.run_bind, EStateM.run_get, run_pathOf,
    follow_of_directories h.directories h.workingDirectory found,
    follow_of_directories h.directories h.workingDirectory place, written]
  cases there : t₂.node? path with
  | none => rfl
  | some node =>
    cases node with
    | file bytes => rfl
    | directory => exact absurd there free'

end FileAction

open FileAction

variable {t t' : FileTree} {path : FilePath} {target : Location} {content : ByteArray}
  {env env' : Environment}

/-- A file is only replaced if it has a name of its own. -/
theorem named_of_replaceFile (replaced : (replaceFile env target content).run t = .ok () t') :
    target.name ≠ "" ∧ target.name ≠ ".." := by
  -- the parent is made, a step is attempted and the temporary file is created
  obtain ⟨-, t₁, -, replaced⟩ := run_bind_eq_ok_iff.1 replaced
  obtain ⟨-, t₂, -, replaced⟩ := run_bind_eq_ok_iff.1 replaced
  obtain ⟨-, t₃, -, replaced⟩ := run_bind_eq_ok_iff.1 replaced
  rw [run_tryCatch] at replaced
  split at replaced
  next filled =>
    -- all that comes before the renaming has succeeded
    obtain ⟨-, t₄, -, filled⟩ := run_bind_eq_ok_iff.1 filled
    obtain ⟨-, t₅, -, filled⟩ := run_bind_eq_ok_iff.1 filled
    obtain ⟨-, t₆, -, filled⟩ := run_bind_eq_ok_iff.1 filled
    exact named_of_renameFile filled
  next =>
    -- once the temporary file is removed, the failure goes on
    obtain ⟨-, t₄, -, failed⟩ := run_bind_eq_ok_iff.1 replaced
    cases failed

/-! ### What is permitted -/

/-- An environment **permits** the replacement of a file when it refuses no step, and nothing has
the name of the temporary file. -/
structure Environment.Permits (env : Environment) (t : FileTree) (target : Location) : Prop where
  accepts : ∀ step, env.refuses step = none
  free : ∃ path, t.follow (target.parent.child env.temporaryName) = .ok path ∧
    t.node? path = none

/-- The longest name is found by going through the names once. -/
theorem le_foldl_max (names : List String) (bound : Nat) :
    bound ≤ names.foldl (fun n name => max n name.length) bound ∧
      ∀ name ∈ names, name.length ≤ names.foldl (fun n name => max n name.length) bound := by
  -- the bound moves with every name
  induction names generalizing bound with
  | nil => simp
  | cons first rest ih =>
    obtain ⟨start, later⟩ := ih (max bound first.length)
    rw [List.foldl_cons, List.forall_mem_cons]
    refine ⟨Nat.le_trans (Nat.le_max_left _ _) start, ?_, later⟩
    exact Nat.le_trans (Nat.le_max_right _ _) start

/-- Nothing in a directory has a fresh name. -/
theorem freshName_not_mem (t : FileTree) (directory : Location) (stem : String) :
    freshName t directory stem ∉ (t.entries directory).getD [] := by
  intro listed
  have bound := (le_foldl_max _ 0).2 _ listed
  rw [freshName, String.length_append, String.length_ofList, List.length_replicate] at bound
  omega

theorem freshName_ne_up (t : FileTree) (directory : Location) (stem : String) :
    freshName t directory stem ≠ ".." := by
  intro up
  have letter : 'x' ∈ (freshName t directory stem).toList := by
    simp [freshName]
  rw [up] at letter
  exact absurd letter (by decide)

/-- **An environment that is made for a directory permits** the replacement of the files in it. -/
theorem permits_willing (there : t.isDirectory target.parent = true) :
    (Environment.willing t target).Permits t target := by
  obtain ⟨directory, leads, here⟩ := isDirectory_eq_true_iff.1 there
  have place : t.follow (target.parent.child (Environment.willing t target).temporaryName) =
      .ok (directory ++ [(Environment.willing t target).temporaryName]) :=
    (follow_child_eq_ok_iff (freshName_ne_up _ _ _)).2 ⟨directory, leads, here, rfl⟩
  refine ⟨fun _ => rfl, _, place, ?_⟩
  -- what stands in the directory is listed, and the fresh name is not
  by_contra something
  exact freshName_not_mem _ _ _ (mem_entries_iff.2 ⟨directory, leads, here, something⟩)

/-! ### One replacement after another -/

/-- **A permitted replacement succeeds** if the directory of the file is there, and the file has a
name of its own that no directory has. -/
theorem replaceFile_of_permits (content : ByteArray) (permits : env.Permits t target)
    (parent : t.isDirectory target.parent = true)
    (named : target.name ≠ "" ∧ target.name ≠ "..") (place : t.follow target = .ok path)
    (free : t.node? path ≠ some .directory) :
    ∃ t', (replaceFile env target content).run t = .ok () t' ∧
      ∀ other, t'.node? other = if other = path then some (.file content) else t.node? other := by
  obtain ⟨accepts, temporary, found, nothing⟩ := permits
  have attempts : ∀ step (t : FileTree), (env.attempt step).run t = .ok () t := by
    intro step t
    rw [Environment.attempt, accepts]
    rfl
  -- the temporary file is created, filled and renamed
  have created := HoldsTemporary.of_insert nothing ByteArray.empty
  have filled := created.insert content
  set t₁ := t.insert temporary (.file ByteArray.empty)
  set t₂ := t₁.insert temporary (.file content)
  have written : t₂.node? temporary = some (.file content) := by
    rw [node?_insert _ _ _ created.ne_nil, if_pos rfl]
  refine ⟨(t₂.erase temporary).insert path (.file content), ?_, ?_⟩
  · -- the steps in their order, with the tree that each of them leaves
    refine run_bind_eq_ok_iff.2 ⟨(), t, ?_, ?_⟩
    · rw [Environment.makeDirectories, accepts]
      exact run_makeDirectories parent
    refine run_bind_eq_ok_iff.2 ⟨(), t, attempts _ t, ?_⟩
    refine run_bind_eq_ok_iff.2 ⟨(), t₁, run_createFile_of_free found nothing, ?_⟩
    refine run_tryCatch_of_ok (run_bind_eq_ok_iff.2 ⟨(), t₂, ?_, ?_⟩)
    · rw [Environment.write, accepts]
      exact run_writeFile content created found
    refine run_bind_eq_ok_iff.2 ⟨(), t₂, attempts _ t₂, ?_⟩
    refine run_bind_eq_ok_iff.2 ⟨(), t₂, attempts _ t₂, ?_⟩
    exact run_renameFile_of_free filled found written named place free
  · have below : path ≠ [] := by
      rintro rfl
      exact free (node?_nil t)
    intro other
    rw [node?_insert _ _ _ below, filled.node?_erase]

/-- A location with a last step is one step further than its parent. -/
theorem Location.child_parent (l : Location) (named : l.name ≠ "") : l.parent.child l.name = l := by
  obtain ⟨anchor, steps⟩ := l
  have some : steps ≠ [] := by
    rintro rfl
    exact named rfl
  simp only [Location.child, Location.parent, Location.name, Location.mk.injEq, true_and]
  rw [List.getLastD_eq_getLast?, List.getLast?_eq_some_getLast some, Option.getD_some]
  exact List.dropLast_append_getLast some

/-- A replacement that succeeds has replaced the file. -/
theorem hasReplaced_of_replaceFile (replaced : (replaceFile env target content).run t = .ok () t') :
    t.HasReplaced t' target content := by
  rcases replaceFile_outcome env t target content with ⟨e, files, failed, -⟩ | ⟨files, ended, has⟩
  · rw [failed] at replaced
    cases replaced
  · rw [ended] at replaced
    cases replaced
    exact has

/-- The directory of a file that was replaced is there. -/
theorem isDirectory_of_replaceFile (replaced : (replaceFile env target content).run t = .ok () t')
    (place : t'.follow target = .ok path) : t'.isDirectory target.parent = true := by
  obtain ⟨named, down⟩ := named_of_replaceFile replaced
  rw [← target.child_parent named] at place
  obtain ⟨directory, leads, here, -⟩ := (follow_child_eq_ok_iff down).1 place
  exact isDirectory_eq_true_iff.2 ⟨directory, leads, here⟩

/-- **Replacing a file again changes nothing.** Where a file has been replaced, it can be replaced
by the same content once more if the environment permits it, and then every path holds what it
held. -/
theorem replaceFile_again (replaced : (replaceFile env target content).run t = .ok () t')
    (permits : env'.Permits t' target) :
    ∃ t'', (replaceFile env' target content).run t' = .ok () t'' ∧
      ∀ path, t''.node? path = t'.node? path := by
  obtain ⟨path, place, holds, -⟩ := hasReplaced_of_replaceFile replaced
  have here : t'.node? path = some (.file content) := fileAt?_eq_some_iff.1 holds
  have parent := isDirectory_of_replaceFile replaced place
  have named := named_of_replaceFile replaced
  obtain ⟨t'', again, held⟩ :=
    replaceFile_of_permits content permits parent named place (by simp [here])
  refine ⟨t'', again, fun other => ?_⟩
  -- the file gets the content that it has
  rw [held]
  split
  next same => rw [same, here]
  next => rfl

end DesignTokens
