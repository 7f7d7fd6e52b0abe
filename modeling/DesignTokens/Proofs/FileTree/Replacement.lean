import DesignTokens.FileTree.Replace

/-!
# A file is replaced, or nothing happens to any file

Replacing a file makes directories, then a temporary file, and in the end renames that one. Any of
these steps may fail, of itself or because the environment refuses it. The statements are about
what every path holds before and after (`FileTree.node?`).

* `FileTree.Keeps` — a path holds what it held, or a directory has appeared where nothing was.
  Files are kept in any case (`Keeps.fileAt?_eq`).
* `FileTree.Grows` — every path is kept. Making directories never does more than that, however it
  ends (`onlyGrows_makeDirectory`, `moves_makeDirectories`).
* `FileTree.HoldsTemporary` — as long as the temporary file is there, it is the only thing that a
  tree has beyond another. Filling the file keeps this up, also when it fails half-way
  (`holdsTemporary_write`), and removing the file brings the other tree back
  (`HoldsTemporary.removeFile`).
* `replaceFile_outcome` — the two ends of a replacement.

A location is looked up anew by every step. That all steps mean the same path is because the
directories that were there stay there, and a look-up depends on nothing else
(`follow_of_directories`).
-/

namespace DesignTokens

namespace FileTree

variable {t t₁ t₂ t₃ : FileTree} {path other : FilePath} {l : Location} {content : ByteArray}

/-- The bytes of the file at a path. -/
def fileAt? (t : FileTree) (path : FilePath) : Option ByteArray :=
  match t.node? path with
  | some (.file bytes) => some bytes
  | _ => none

/-- A path **keeps** what it holds: it holds the same afterwards, or it held nothing and is a
directory now. -/
def Keeps (t₁ t₂ : FileTree) (path : FilePath) : Prop :=
  t₂.node? path = t₁.node? path ∨ t₁.node? path = none ∧ t₂.node? path = some .directory

/-- A tree **grows** when every path keeps what it holds. -/
structure Grows (t₁ t₂ : FileTree) : Prop where
  keeps : ∀ path, t₁.Keeps t₂ path
  workingDirectory : t₂.workingDirectory = t₁.workingDirectory

theorem fileAt?_eq_some_iff :
    t.fileAt? path = some content ↔ t.node? path = some (.file content) := by
  unfold fileAt?
  split
  next here => simp [here]
  next other =>
    refine ⟨nofun, fun here => ?_⟩
    exact absurd here (other content)

/-- No file comes or goes where everything is kept. -/
theorem Keeps.fileAt?_eq (h : t₁.Keeps t₂ path) : t₂.fileAt? path = t₁.fileAt? path := by
  unfold fileAt?
  rcases h with same | ⟨nothing, directory⟩
  · rw [same]
  · rw [nothing, directory]

theorem Keeps.trans (h : t₁.Keeps t₂ path) (h' : t₂.Keeps t₃ path) : t₁.Keeps t₃ path := by
  rcases h' with same | ⟨nothing, directory⟩
  · rcases h with same' | ⟨nothing', directory'⟩
    · exact Or.inl (same.trans same')
    · exact Or.inr ⟨nothing', same.trans directory'⟩
  · -- where there is nothing yet, there was nothing before
    rcases h with same' | ⟨-, directory'⟩
    · exact Or.inr ⟨same' ▸ nothing, directory⟩
    · rw [directory'] at nothing
      cases nothing

theorem Grows.refl (t : FileTree) : t.Grows t :=
  ⟨fun _ => Or.inl rfl, rfl⟩

theorem Grows.trans (h : t₁.Grows t₂) (h' : t₂.Grows t₃) : t₁.Grows t₃ :=
  ⟨fun path => (h.keeps path).trans (h'.keeps path),
    h'.workingDirectory.trans h.workingDirectory⟩

/-- The file at a location **has been replaced**: it has the content, and every other path is
kept. -/
def HasReplaced (t₁ t₂ : FileTree) (l : Location) (content : ByteArray) : Prop :=
  ∃ path, t₂.follow l = .ok path ∧ t₂.fileAt? path = some content ∧
    ∀ other, other ≠ path → t₁.Keeps t₂ other

/-- Directories that appeared before a replacement make no difference to it. -/
theorem Grows.hasReplaced (h : t₁.Grows t₂) (replaced : t₂.HasReplaced t₃ l content) :
    t₁.HasReplaced t₃ l content := by
  obtain ⟨path, found, written, kept⟩ := replaced
  exact ⟨path, found, written, fun other different => (h.keeps other).trans (kept other different)⟩

/-- The root always holds something. -/
theorem ne_nil_of_node?_eq_none (nothing : t.node? path = none) : path ≠ [] := by
  rintro rfl
  simp [node?] at nothing

theorem Grows.insert_directory (nothing : t.node? path = none) :
    t.Grows (t.insert path .directory) := by
  refine ⟨fun other => ?_, rfl⟩
  rw [Keeps, node?_insert t _ other (ne_nil_of_node?_eq_none nothing)]
  by_cases same : other = path
  · rw [if_pos same, same]
    exact Or.inr ⟨nothing, rfl⟩
  · rw [if_neg same]
    exact Or.inl rfl

/-! ### Looking a location up -/

/-- A look-up goes through directories; it ends at the same path where these are still there. -/
theorem followFrom_of_directories {start : FilePath} {steps : List String}
    (directories : ∀ p, t₁.node? p = some .directory → t₂.node? p = some .directory)
    (found : t₁.followFrom start steps = .ok path) : t₂.followFrom start steps = .ok path := by
  induction steps generalizing start with
  | nil => exact found
  | cons step more ih =>
    unfold followFrom at found ⊢
    cases here : t₁.node? start with
    | none => simp [here] at found
    | some node =>
      cases node with
      | file bytes => simp [here] at found
      | directory =>
        rw [directories start here]
        simp only [here] at found ⊢
        split
        · next up => exact ih (by simpa [up] using found)
        · next down => exact ih (by simpa [down] using found)

theorem follow_of_directories
    (directories : ∀ p, t₁.node? p = some .directory → t₂.node? p = some .directory)
    (workingDirectory : t₂.workingDirectory = t₁.workingDirectory)
    (found : t₁.follow l = .ok path) : t₂.follow l = .ok path := by
  unfold follow at found ⊢
  split
  · next relative =>
    rw [workingDirectory]
    exact followFrom_of_directories directories (by simpa [relative] using found)
  all_goals
    next absolute => exact followFrom_of_directories directories (by simpa [absolute] using found)

theorem Grows.directories (h : t₁.Grows t₂) :
    ∀ p, t₁.node? p = some .directory → t₂.node? p = some .directory := by
  intro p directory
  rcases h.keeps p with same | ⟨-, directory'⟩
  · exact same.trans directory
  · exact directory'

/-! ### A temporary file -/

/-- A tree **holds a temporary file** beyond another tree when this is the only difference. -/
structure HoldsTemporary (t₁ : FileTree) (temporary : FilePath) (t₂ : FileTree) : Prop where
  nothing : t₁.node? temporary = none
  file : ∃ bytes, t₂.node? temporary = some (.file bytes)
  others : ∀ other, other ≠ temporary → t₂.node? other = t₁.node? other
  workingDirectory : t₂.workingDirectory = t₁.workingDirectory

namespace HoldsTemporary

variable {temporary : FilePath}

theorem ne_nil (h : t₁.HoldsTemporary temporary t₂) : temporary ≠ [] :=
  ne_nil_of_node?_eq_none h.nothing

theorem directories (h : t₁.HoldsTemporary temporary t₂) :
    ∀ p, t₁.node? p = some .directory → t₂.node? p = some .directory := by
  intro p directory
  rw [h.others p, directory]
  rintro rfl
  rw [h.nothing] at directory
  cases directory

/-- A new file is a temporary one. -/
theorem of_insert (nothing : t.node? temporary = none) (bytes : ByteArray) :
    t.HoldsTemporary temporary (t.insert temporary (.file bytes)) := by
  have insert := node?_insert t (.file bytes) (h := ne_nil_of_node?_eq_none nothing)
  refine ⟨nothing, ⟨bytes, ?_⟩, fun other different => ?_, rfl⟩
  · rw [insert, if_pos rfl]
  · rw [insert, if_neg different]

/-- The temporary file may be filled. -/
theorem insert (h : t₁.HoldsTemporary temporary t₂) (bytes : ByteArray) :
    t₁.HoldsTemporary temporary (t₂.insert temporary (.file bytes)) := by
  have insert := node?_insert t₂ (.file bytes) (h := h.ne_nil)
  refine ⟨h.nothing, ⟨bytes, ?_⟩, fun other different => ?_, h.workingDirectory⟩
  · rw [insert, if_pos rfl]
  · rw [insert, if_neg different, h.others other different]

/-- Without the temporary file nothing has happened. -/
theorem node?_erase (h : t₁.HoldsTemporary temporary t₂) (other : FilePath) :
    (t₂.erase temporary).node? other = t₁.node? other := by
  rw [FileTree.node?_erase t₂ other h.ne_nil]
  split
  · next same => rw [same, h.nothing]
  · next different => exact h.others other different

/-- Once the temporary file has the name of the target, the target is replaced. -/
theorem hasReplaced {target : Location} (h : t₁.HoldsTemporary temporary t₂)
    (written : t₂.node? temporary = some (.file content)) (place : t₂.follow target = .ok path)
    (free : t₂.node? path ≠ some .directory) :
    t₁.HasReplaced ((t₂.erase temporary).insert path (.file content)) target content := by
  have ne_nil : path ≠ [] := by
    rintro rfl
    exact free (if_pos rfl)
  have insert : ∀ other, ((t₂.erase temporary).insert path (.file content)).node? other =
      if other = path then some (.file content) else t₁.node? other := by
    intro other
    rw [node?_insert _ _ other ne_nil, h.node?_erase other]
  -- a directory of the second tree is neither the target nor the temporary file
  have directories : ∀ p, t₂.node? p = some .directory →
      ((t₂.erase temporary).insert path (.file content)).node? p = some .directory := by
    intro p here
    have notTarget : p ≠ path := by
      rintro rfl
      exact free here
    have notTemporary : p ≠ temporary := by
      rintro rfl
      rw [written] at here
      cases here
    rw [insert, if_neg notTarget, ← h.others p notTemporary, here]
  refine ⟨path, follow_of_directories directories rfl place, ?_, fun other different => Or.inl ?_⟩
  · rw [fileAt?, insert, if_pos rfl]
  · rw [insert, if_neg different]

end HoldsTemporary

end FileTree

namespace FileAction

open FileTree

variable {α β : Type} {t t₁ t₂ : FileTree} {temporary : FilePath} {l target : Location}
  {content : ByteArray}

theorem run_tryCatch (x : FileAction α) (handle : FileError → FileAction α) (t : FileTree) :
    (tryCatch x handle).run t =
      match x.run t with
      | .ok a t' => .ok a t'
      | .error e t' => (handle e).run t' := by
  change EStateM.tryCatch x handle t = _
  unfold EStateM.tryCatch EStateM.run
  cases x t <;> rfl

theorem run_pathOf (l : Location) (t : FileTree) :
    (pathOf l).run t =
      match t.follow l with
      | .ok path => .ok path t
      | .error e => .error e t := by
  simp only [pathOf, EStateM.run_bind, EStateM.run_get]
  cases t.follow l <;> rfl

/-! ### Making directories -/

/-- The tree that an action leaves behind, whether it fails or not. -/
def left (x : FileAction α) (t : FileTree) : FileTree :=
  match x.run t with
  | .ok _ t' | .error _ t' => t'

/-- An action **moves** every tree along a relation, however it ends. -/
def Moves (R : FileTree → FileTree → Prop) (x : FileAction α) : Prop :=
  ∀ t : FileTree, R t (x.left t)

section Moves

variable {R : FileTree → FileTree → Prop} {x : FileAction α}

/-- An action that leaves every tree alone moves none. -/
theorem Moves.of_left_eq (alone : ∀ t, x.left t = t) (refl : ∀ t, R t t) : Moves R x := by
  intro t
  rw [alone]
  exact refl t

/-- What both parts of a composed action do, the whole does. -/
theorem Moves.bind {f : α → FileAction β} (hx : Moves R x)
    (trans : ∀ {t₁ t₂ t₃}, R t₁ t₂ → R t₂ t₃ → R t₁ t₃) (hf : ∀ a, Moves R (f a)) :
    Moves R (x >>= f) := by
  intro t
  have first := hx t
  unfold left at first ⊢
  rw [EStateM.run_bind]
  cases h : x.run t with
  | ok a t₁ =>
    rw [h] at first
    exact trans first (hf a t₁)
  | error e t₁ =>
    rw [h] at first
    exact first

/-- An action that is made up for by another moves as both do. -/
theorem Moves.tryCatch {handle : FileError → FileAction α} (hx : Moves R x)
    (trans : ∀ {t₁ t₂ t₃}, R t₁ t₂ → R t₂ t₃ → R t₁ t₃) (hhandle : ∀ e, Moves R (handle e)) :
    Moves R (tryCatch x handle) := by
  intro t
  have first := hx t
  unfold left at first ⊢
  rw [run_tryCatch]
  cases h : x.run t with
  | ok a t₁ =>
    rw [h] at first
    exact first
  | error e t₁ =>
    rw [h] at first
    exact trans first (hhandle e t₁)

theorem left_throw (e : FileError) (t : FileTree) : (throw e : FileAction α).left t = t :=
  rfl

theorem left_acceptDirectory (l : Location) (e : FileError) (t : FileTree) :
    (acceptDirectory l e).left t = t := by
  simp only [left, acceptDirectory, EStateM.run_bind, EStateM.run_get]
  cases t.isDirectory l <;> rfl

/-- **Making directories moves a tree as the making of one does.** -/
theorem moves_makeDirectories (make : ∀ l, Moves R (makeDirectory l)) (refl : ∀ t, R t t)
    (trans : ∀ {t₁ t₂ t₃}, R t₁ t₂ → R t₂ t₃ → R t₁ t₃) (l : Location) :
    Moves R (makeDirectories l) := by
  have accept : ∀ l e, Moves R (acceptDirectory l e) :=
    fun l e => .of_left_eq (left_acceptDirectory l e) refl
  have attempt : ∀ l, Moves R (tryCatch (makeDirectory l) (acceptDirectory l)) :=
    fun l => (make l).tryCatch trans (accept l)
  rw [FileAction.makeDirectories]
  induction l.steps.reverse with
  | nil => exact attempt _
  | cons step above ih =>
    refine (make _).tryCatch trans fun e => ?_
    split
    · exact ih.bind trans fun _ => attempt _
    · exact accept _ e

end Moves

/-- An action **only grows** a tree, however it ends. -/
def OnlyGrows (x : FileAction α) : Prop :=
  ∀ t : FileTree, t.Grows (x.left t)

/-- A directory is made where there was nothing. -/
theorem onlyGrows_makeDirectory (l : Location) : OnlyGrows (makeDirectory l) := by
  intro t
  simp only [left, makeDirectory, EStateM.run_bind, EStateM.run_get, run_pathOf]
  cases t.follow l with
  | error e => exact .refl t
  | ok path =>
    dsimp only
    cases here : t.node? path with
    | some node => exact .refl t
    | none => exact .insert_directory here

/-! ### The life of a temporary file -/

/-- Creating a file either fails and changes nothing, or there is a temporary file. -/
theorem run_createFile (l : Location) (t : FileTree) :
    (∃ e, (createFile l).run t = .error e t) ∨
      ∃ path t', (createFile l).run t = .ok () t' ∧ t.follow l = .ok path ∧
        t.HoldsTemporary path t' := by
  simp only [createFile, EStateM.run_bind, EStateM.run_get, run_pathOf]
  cases t.follow l with
  | error e => exact Or.inl ⟨e, rfl⟩
  | ok path =>
    dsimp only
    cases here : t.node? path with
    | some node => exact Or.inl ⟨_, rfl⟩
    | none => exact Or.inr ⟨path, _, rfl, rfl, .of_insert here _⟩

/-- The temporary file can be given any content. -/
theorem run_writeFile (content : ByteArray) (h : t₁.HoldsTemporary temporary t₂)
    (found : t₁.follow l = .ok temporary) :
    (writeFile l content).run t₂ = .ok () (t₂.insert temporary (.file content)) := by
  obtain ⟨bytes, file⟩ := h.file
  simp only [writeFile, EStateM.run_bind, EStateM.run_get, run_pathOf,
    follow_of_directories h.directories h.workingDirectory found, file]
  rfl

/-- The temporary file can be removed, and then nothing has happened. -/
theorem run_removeFile (h : t₁.HoldsTemporary temporary t₂)
    (found : t₁.follow l = .ok temporary) :
    (removeFile l).run t₂ = .ok () (t₂.erase temporary) := by
  obtain ⟨bytes, file⟩ := h.file
  simp only [removeFile, EStateM.run_bind, EStateM.run_get, run_pathOf,
    follow_of_directories h.directories h.workingDirectory found, file]
  rfl

/-- The temporary file takes the name of the target, or the renaming fails and changes nothing. -/
theorem run_renameFile (h : t₁.HoldsTemporary temporary t₂) (found : t₁.follow l = .ok temporary)
    (written : t₂.node? temporary = some (.file content)) :
    (∃ e, (renameFile l target).run t₂ = .error e t₂) ∨
      ∃ t₃, (renameFile l target).run t₂ = .ok () t₃ ∧ t₁.HasReplaced t₃ target content := by
  unfold renameFile
  split
  · exact Or.inl ⟨_, rfl⟩
  simp only [EStateM.run_bind, EStateM.run_get, run_pathOf,
    follow_of_directories h.directories h.workingDirectory found]
  cases place : t₂.follow target with
  | error e => exact Or.inl ⟨e, rfl⟩
  | ok path =>
    dsimp only
    rw [written]
    cases there : t₂.node? path with
    | none => exact Or.inr ⟨_, rfl, h.hasReplaced written place (by simp [there])⟩
    | some node =>
      cases node with
      | file bytes => exact Or.inr ⟨_, rfl, h.hasReplaced written place (by simp [there])⟩
      | directory => exact Or.inl ⟨_, rfl⟩

end FileAction

open FileTree FileAction

variable {t t₁ t₂ : FileTree} {temporary : FilePath} {l target : Location} {content : ByteArray}
  {env : Environment}

namespace Environment

theorem run_attempt (env : Environment) (step : WriteStep) (t : FileTree) :
    (∃ e, (env.attempt step).run t = .error e t) ∨ (env.attempt step).run t = .ok () t := by
  unfold attempt
  cases env.refuses step with
  | none => exact Or.inr rfl
  | some e => exact Or.inl ⟨e, rfl⟩

/-- The environment lets directories be made as they are made, or stops on the way. -/
theorem moves_makeDirectories {R : FileTree → FileTree → Prop}
    (make : ∀ l, Moves R (makeDirectory l)) (refl : ∀ t, R t t)
    (trans : ∀ {t₁ t₂ t₃}, R t₁ t₂ → R t₂ t₃ → R t₁ t₃) (env : Environment) (l : Location) :
    Moves R (env.makeDirectories l) := by
  have all := FileAction.moves_makeDirectories make refl trans
  unfold makeDirectories
  cases env.refuses .makeParent with
  | none => exact all l
  | some e => exact (all _).bind trans fun _ => .of_left_eq (left_throw e) refl

/-- **Writing the temporary file** leaves a temporary file, in any case. -/
theorem holdsTemporary_write (env : Environment) (content : ByteArray)
    (h : t₁.HoldsTemporary temporary t₂) (found : t₁.follow l = .ok temporary) :
    (∃ e t₃, (env.write l content).run t₂ = .error e t₃ ∧ t₁.HoldsTemporary temporary t₃) ∨
      ∃ t₃, (env.write l content).run t₂ = .ok () t₃ ∧ t₁.HoldsTemporary temporary t₃ ∧
        t₃.node? temporary = some (.file content) := by
  unfold write
  cases env.refuses .writeTemporary with
  | none =>
    refine Or.inr ⟨_, run_writeFile content h found, h.insert content, ?_⟩
    rw [node?_insert _ _ _ h.ne_nil, if_pos rfl]
  | some e =>
    refine Or.inl ⟨e, _, ?_, h.insert (content.extract 0 env.bytesBeforeRefusal)⟩
    simp only [EStateM.run_bind, run_writeFile _ h found]
    rfl

/-- From a temporary file on, either the target is replaced, or there still is a temporary file. -/
theorem run_fill (env : Environment) (target : Location) (content : ByteArray)
    (h : t₁.HoldsTemporary temporary t₂) (found : t₁.follow l = .ok temporary) :
    let fill : FileAction Unit := do
      env.write l content
      env.attempt .setMode
      env.attempt .takeName
      renameFile l target
    (∃ e t₃, fill.run t₂ = .error e t₃ ∧ t₁.HoldsTemporary temporary t₃) ∨
      ∃ t₃, fill.run t₂ = .ok () t₃ ∧ t₁.HasReplaced t₃ target content := by
  intro fill
  simp only [fill, EStateM.run_bind]
  rcases holdsTemporary_write env content h found with
    ⟨e, t₃, ends, held⟩ | ⟨t₃, ends, held, written⟩
  · exact Or.inl ⟨e, t₃, by simp only [ends], held⟩
  rcases env.run_attempt .setMode t₃ with ⟨e, mode⟩ | mode
  · exact Or.inl ⟨e, t₃, by simp only [ends, mode], held⟩
  rcases env.run_attempt .takeName t₃ with ⟨e, name⟩ | name
  · exact Or.inl ⟨e, t₃, by simp only [ends, mode, name], held⟩
  simp only [ends, mode, name]
  rcases run_renameFile held found written with ⟨e, renamed⟩ | replaced
  · exact Or.inl ⟨e, t₃, renamed, held⟩
  · exact Or.inr replaced

end Environment

/-- **A file is replaced, or every file is left alone.** Whatever the environment refuses, and
wherever a step fails of itself, a replacement that fails leaves a tree that has at most grown by
directories. -/
theorem replaceFile_outcome (env : Environment) (t : FileTree) (target : Location)
    (content : ByteArray) :
    (∃ e t', (replaceFile env target content).run t = .error e t' ∧ t.Grows t') ∨
      ∃ t', (replaceFile env target content).run t = .ok () t' ∧
        t.HasReplaced t' target content := by
  simp only [replaceFile, EStateM.run_bind]
  have parent := env.moves_makeDirectories onlyGrows_makeDirectory .refl .trans target.parent t
  unfold left at parent
  cases made : (env.makeDirectories target.parent).run t with
  | error e t₁ =>
    rw [made] at parent
    exact Or.inl ⟨e, t₁, rfl, parent⟩
  | ok _ t₁ =>
    rw [made] at parent
    dsimp only
    rcases env.run_attempt .createTemporary t₁ with ⟨e, refused⟩ | accepted
    · exact Or.inl ⟨e, t₁, by simp only [refused], parent⟩
    simp only [accepted]
    rcases run_createFile (target.parent.child env.temporaryName) t₁ with
      ⟨e, failed⟩ | ⟨temporary, t₂, created, found, held⟩
    · exact Or.inl ⟨e, t₁, by simp only [failed], parent⟩
    simp only [created, run_tryCatch]
    rcases env.run_fill target content held found with
      ⟨e, t₃, failed, still⟩ | ⟨t₃, filled, replaced⟩
    · -- the temporary file is removed again
      refine Or.inl ⟨e, t₃.erase temporary, ?_, parent.trans ?_⟩
      · simp only [EStateM.run_bind] at failed
        simp only [EStateM.run_bind, failed, run_removeFile still found]
        rfl
      · exact ⟨fun p => Or.inl (still.node?_erase p), still.workingDirectory⟩
    · simp only [EStateM.run_bind] at filled
      exact Or.inr ⟨t₃, by simp only [EStateM.run_bind, filled], parent.hasReplaced replaced⟩

end DesignTokens
