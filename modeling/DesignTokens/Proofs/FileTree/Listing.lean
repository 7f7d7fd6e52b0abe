import DesignTokens.Proofs.FileTree.WellFormed

/-!
# What stands directly in a directory

A directory is listed by going through all paths of a tree, and a file in it is looked up by its
name. The two agree: a name is listed exactly if the path with this name holds something
(`mem_entries_iff`). In a well-formed tree a name is listed once (`nodup_entries`), and in any case
the names ascend (`pairwise_entries`). So the list is determined by the names in it.
-/

namespace DesignTokens

namespace FileTree

variable {t : FileTree} {path : FilePath} {l : Location} {name : String} {bytes : ByteArray}

/-! ### One step further -/

theorem followFrom_append (t : FileTree) (start : FilePath) (steps more : List String) :
    t.followFrom start (steps ++ more) =
      (t.followFrom start steps).bind fun path => t.followFrom path more := by
  -- on the first steps, for every place to start from
  induction steps generalizing start with
  | nil => rfl
  | cons step steps ih =>
    rw [List.cons_append, followFrom, followFrom]
    cases t.node? start with
    | none => rfl
    | some node =>
      cases node with
      | file bytes => rfl
      | directory =>
        dsimp only
        split
        · exact ih _
        · exact ih _

/-- A name leads from a directory to a path in it. -/
theorem follow_child_eq_ok_iff (down : name ≠ "..") :
    t.follow (l.child name) = .ok path ↔
      ∃ directory, t.follow l = .ok directory ∧ t.node? directory = some .directory ∧
        path = directory ++ [name] := by
  have step : ∀ start, t.followFrom start (l.steps ++ [name]) = .ok path ↔
      ∃ directory, t.followFrom start l.steps = .ok directory ∧
        t.node? directory = some .directory ∧ path = directory ++ [name] := by
    intro start
    rw [followFrom_append]
    cases t.followFrom start l.steps with
    | error e => simp [Except.bind]
    | ok directory =>
      simp only [Except.bind, followFrom, Except.ok.injEq, exists_eq_left']
      cases here : t.node? directory with
      | none => simp
      | some node =>
        cases node with
        | file bytes => simp
        | directory => simp [down, eq_comm]
  -- where the steps start makes no difference
  rw [follow, follow, Location.child]
  cases l.anchor <;> exact step _

/-- The bytes of a file, looked up by its name in a directory. -/
theorem read?_child_eq_some_iff (down : name ≠ "..") :
    t.read? (l.child name) = some bytes ↔
      ∃ directory, t.follow l = .ok directory ∧ t.node? directory = some .directory ∧
        t.node? (directory ++ [name]) = some (.file bytes) := by
  have read : t.read? (l.child name) = some bytes ↔
      ∃ path, t.follow (l.child name) = .ok path ∧ t.node? path = some (.file bytes) := by
    rw [read?, find?]
    cases t.follow (l.child name) with
    | error e => simp
    | ok path =>
      cases here : t.node? path with
      | none => simp [here]
      | some node => cases node <;> simp [here]
  rw [read]
  refine ⟨?_, ?_⟩
  · rintro ⟨path, found, file⟩
    obtain ⟨directory, leads, here, rfl⟩ := (follow_child_eq_ok_iff down).1 found
    exact ⟨directory, leads, here, file⟩
  · rintro ⟨directory, leads, here, file⟩
    exact ⟨_, (follow_child_eq_ok_iff down).2 ⟨directory, leads, here, rfl⟩, file⟩

/-! ### The names in a directory -/

theorem isDirectory_eq_true_iff :
    t.isDirectory l = true ↔ ∃ path, t.follow l = .ok path ∧ t.node? path = some .directory := by
  rw [isDirectory, decide_eq_true_iff, find?]
  cases t.follow l <;> simp

/-- The name of a path directly under another one. -/
def nameUnder? (path other : FilePath) : Option String :=
  match other.getLast? with
  | some name => if other.dropLast = path then some name else none
  | none => none

theorem nameUnder?_eq_some_iff {other : FilePath} :
    nameUnder? path other = some name ↔ other = path ++ [name] := by
  rw [nameUnder?]
  refine ⟨?_, ?_⟩
  · intro h
    split at h
    next last found =>
      obtain ⟨front, rfl⟩ := List.getLast?_eq_some_iff.1 found
      rw [List.dropLast_concat] at h
      split at h
      next same => rw [same, Option.some.inj h]
      next => cases h
    next => cases h
  · rintro rfl
    rw [List.getLast?_concat]
    exact if_pos List.dropLast_concat

theorem namesUnder_eq_filterMap (t : FileTree) (path : FilePath) :
    t.namesUnder path = (t.nodes.map Prod.fst).filterMap (nameUnder? path) := by
  rw [List.filterMap_map]
  rfl

theorem mem_namesUnder_iff (t : FileTree) (path : FilePath) :
    name ∈ t.namesUnder path ↔ t.node? (path ++ [name]) ≠ none := by
  rw [namesUnder_eq_filterMap, List.mem_filterMap]
  simp only [nameUnder?_eq_some_iff, exists_eq_right]
  -- a path that ends with a name is not the root, so it is listed if it holds something
  refine ⟨node?_ne_none_of_mem, ?_⟩
  intro something
  obtain ⟨node, here⟩ := Option.ne_none_iff_exists'.1 something
  exact List.mem_map_of_mem (f := Prod.fst) (mem_of_node?_eq_some here (by simp))

theorem insertName_pairwise {names : List String} (h : names.Pairwise (· ≤ ·)) (name : String) :
    (insertName name names).Pairwise (· ≤ ·) := by
  induction names with
  | nil => exact List.pairwise_singleton _ _
  | cons first rest ih =>
    have later : ∀ other ∈ rest, first ≤ other := (List.pairwise_cons.1 h).1
    rw [insertName]
    split
    next before =>
      refine List.pairwise_cons.2 ⟨?_, h⟩
      intro other mem
      rcases List.mem_cons.1 mem with rfl | mem
      · exact before
      · exact String.le_trans before (later other mem)
    next after =>
      refine List.pairwise_cons.2 ⟨?_, ih (List.pairwise_cons.1 h).2⟩
      intro other mem
      rcases List.mem_cons.1 ((insertName_perm name rest).mem_iff.1 mem) with rfl | mem
      · exact (String.le_total first other).resolve_right after
      · exact later other mem

/-- Sorted names ascend. -/
theorem sortNames_pairwise (names : List String) : (sortNames names).Pairwise (· ≤ ·) := by
  induction names with
  | nil => exact List.Pairwise.nil
  | cons name rest ih => exact insertName_pairwise ih name

/-- A directory is listed in ascending order. -/
theorem pairwise_entries {names : List String} (listed : t.entries l = some names) :
    names.Pairwise (· ≤ ·) := by
  rw [entries] at listed
  split at listed
  · cases listed
  · split at listed
    · obtain rfl := Option.some.inj listed
      exact sortNames_pairwise _
    · cases listed

/-- In a well-formed tree a directory lists a name once. -/
theorem WellFormed.nodup_entries {names : List String} (h : t.WellFormed)
    (listed : t.entries l = some names) : names.Nodup := by
  rw [entries] at listed
  split at listed
  · cases listed
  next path _ =>
    split at listed
    · obtain rfl := Option.some.inj listed
      rw [(sortNames_perm _).nodup_iff, namesUnder_eq_filterMap]
      refine h.distinct.filterMap ?_
      -- a name determines the path that it is the last name of
      intro first second name named named'
      rw [nameUnder?_eq_some_iff.1 named, nameUnder?_eq_some_iff.1 named']
    · cases listed

/-- **A directory lists the names of what stands in it.** -/
theorem mem_entries_iff :
    name ∈ (t.entries l).getD [] ↔
      ∃ directory, t.follow l = .ok directory ∧ t.node? directory = some .directory ∧
        t.node? (directory ++ [name]) ≠ none := by
  rw [entries]
  cases t.follow l with
  | error e => simp
  | ok directory =>
    simp only [Except.ok.injEq, exists_eq_left']
    cases here : t.node? directory with
    | none => simp
    | some node =>
      cases node with
      | file bytes => simp
      | directory =>
        rw [Option.getD_some, (sortNames_perm _).mem_iff, mem_namesUnder_iff]
        simp

end FileTree

end DesignTokens
