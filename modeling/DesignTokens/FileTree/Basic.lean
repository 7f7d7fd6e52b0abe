import DesignTokens.FileTree.Location

/-!
# Trees of files

The state of a file system: which paths hold a file, with which bytes, and which hold a
directory. A path is the list of names from the root, without any step upwards; a location
becomes a path by following its steps through directories that exist.

* `FileTree.node?` is the view that all statements are made in: what a path holds.
* `FileTree.insert` and `FileTree.erase` change one path (`node?_insert`, `node?_erase`).
* `FileTree.follow` turns a location into a path, or says where it breaks off.
* `FileTree.isFile`, `isDirectory`, `read?`, `entries` ask about a location.
-/

namespace DesignTokens

/-- What a path holds. -/
inductive Node where
  | file (bytes : ByteArray)
  | directory

/-- Equality of what two paths hold; files are equal when their bytes are. -/
def Node.decEq : (a b : Node) → Decidable (a = b)
  | .directory, .directory => isTrue rfl
  | .directory, .file _ | .file _, .directory => isFalse (by simp)
  | .file a, .file b =>
    match ByteArray.instDecidableEq a b with
    | isTrue h => isTrue (h ▸ rfl)
    | isFalse h => isFalse fun e => h (Node.file.inj e)

instance : DecidableEq Node := Node.decEq

/-- The names from the root to a file. -/
abbrev FilePath := List String

/-- Which paths hold what. The root is a directory and is not listed. -/
structure FileTree where
  nodes : List (FilePath × Node)
  /-- where relative locations start -/
  workingDirectory : FilePath

/-- Why a file operation fails. -/
inductive FileError where
  | notFound
  | notADirectory
  | isADirectory
  | alreadyExists
  | busy
  /-- any other refusal: no room, no permission -/
  | refused
deriving DecidableEq, Repr

namespace FileTree

/-- What a path holds. -/
def node? (t : FileTree) (path : FilePath) : Option Node :=
  if path = [] then some .directory else t.nodes.lookup path

/-- Forgets what a path holds. -/
def erase (t : FileTree) (path : FilePath) : FileTree :=
  { t with nodes := t.nodes.filter fun entry => entry.1 != path }

/-- Makes a path hold something. -/
def insert (t : FileTree) (path : FilePath) (node : Node) : FileTree :=
  { t with nodes := (path, node) :: (t.erase path).nodes }

/-- Forgets what a path and everything below it hold. -/
def eraseBelow (t : FileTree) (path : FilePath) : FileTree :=
  { t with nodes := t.nodes.filter fun entry => !path.isPrefixOf entry.1 }

theorem lookup_filter_ne (nodes : List (FilePath × Node)) (path other : FilePath) :
    (nodes.filter fun entry => entry.1 != path).lookup other =
      if other = path then none else nodes.lookup other := by
  induction nodes with
  | nil => simp
  | cons entry rest ih =>
    obtain ⟨p, n⟩ := entry
    rw [List.filter_cons]
    by_cases hp : p = path
    -- the entry goes: nothing is found at the path, and elsewhere the rest decides
    · subst hp
      rw [if_neg (by simp), ih]
      by_cases ho : other = p
      · simp [ho]
      · have different : (other == p) = false := by simpa using ho
        simp [ho, List.lookup_cons, different]
    -- the entry stays
    · have kept : (p != path) = true := by simpa using hp
      by_cases ho : other = p
      · subst ho
        simp [kept, hp]
      · have different : (other == p) = false := by simpa using ho
        simp [kept, List.lookup_cons, different, ih]

/-- Erasing a path changes what this path holds, and nothing else. -/
theorem node?_erase (t : FileTree) {path : FilePath} (other : FilePath) (h : path ≠ []) :
    (t.erase path).node? other = if other = path then none else t.node? other := by
  by_cases ho : other = []
  · simp [node?, ho, Ne.symm h]
  · simp only [node?, ho, if_false]
    exact lookup_filter_ne t.nodes path other

/-- Inserting at a path changes what this path holds, and nothing else. -/
theorem node?_insert (t : FileTree) {path : FilePath} (node : Node) (other : FilePath)
    (h : path ≠ []) :
    (t.insert path node).node? other = if other = path then some node else t.node? other := by
  by_cases ho : other = []
  · simp [node?, ho, Ne.symm h]
  · simp only [node?, ho, if_false]
    by_cases hp : other = path
    · simp [insert, hp]
    · have different : (other == path) = false := by simpa using hp
      have rest := lookup_filter_ne t.nodes path other
      simpa [insert, erase, List.lookup_cons, different, hp] using rest

/-- Follows steps from a path. Every step leads through a directory that exists; a step upwards
from the root stays there. -/
def followFrom (t : FileTree) (path : FilePath) : List String → Except FileError FilePath
  | [] => .ok path
  | step :: more =>
    match t.node? path with
    | none => .error .notFound
    | some (.file _) => .error .notADirectory
    | some .directory =>
      if step = ".." then t.followFrom path.dropLast more else t.followFrom (path ++ [step]) more

/-- The path of a location. Nothing need be there yet, but what leads there must be. -/
def follow (t : FileTree) (l : Location) : Except FileError FilePath :=
  match l.anchor with
  | .workingDirectory => t.followFrom t.workingDirectory l.steps
  -- a second slash is only a matter of writing
  | .root | .doubleRoot => t.followFrom [] l.steps

/-- What is at a location. -/
def find? (t : FileTree) (l : Location) : Option Node :=
  match t.follow l with
  | .ok path => t.node? path
  | .error _ => none

/-- The bytes of the file at a location. -/
def read? (t : FileTree) (l : Location) : Option ByteArray :=
  match t.find? l with
  | some (.file bytes) => some bytes
  | _ => none

/-- Whether there is a file at a location. -/
def isFile (t : FileTree) (l : Location) : Bool :=
  (t.read? l).isSome

/-- Whether there is a directory at a location. -/
def isDirectory (t : FileTree) (l : Location) : Bool :=
  t.find? l = some .directory

/-- Inserts a name into an ascending list of names. -/
def insertName (name : String) : List String → List String
  | [] => [name]
  | first :: rest => if name ≤ first then name :: first :: rest else first :: insertName name rest

/-- Puts names into ascending order of their characters. -/
def sortNames (names : List String) : List String :=
  names.foldr insertName []

/-- The names directly under a path. -/
def namesUnder (t : FileTree) (path : FilePath) : List String :=
  t.nodes.filterMap fun entry =>
    match entry.1.getLast? with
    | some name => if entry.1.dropLast = path then some name else none
    | none => none

/-- The names in the directory at a location, ascending; nothing if there is no directory. -/
def entries (t : FileTree) (l : Location) : Option (List String) :=
  match t.follow l with
  | .error _ => none
  | .ok path =>
    match t.node? path with
    | some .directory => some (sortNames (t.namesUnder path))
    | _ => none

theorem insertName_perm (name : String) (names : List String) :
    (insertName name names).Perm (name :: names) := by
  induction names with
  | nil => exact List.Perm.refl _
  | cons first rest ih =>
    simp only [insertName]
    split
    · exact List.Perm.refl _
    · exact (ih.cons first).trans (List.Perm.swap name first rest)

/-- Sorting neither loses nor invents a name. -/
theorem sortNames_perm (names : List String) : (sortNames names).Perm names := by
  induction names with
  | nil => exact List.Perm.refl _
  | cons name rest ih => exact (insertName_perm name _).trans (ih.cons name)

/-- The paths that lead to a path, itself included, the root excluded. -/
def ancestors (path : FilePath) : List FilePath :=
  (List.range path.length).map fun k => path.take (k + 1)

/-- The file system with nothing in it but the working directory and what leads there. -/
def empty (workingDirectory : FilePath) : FileTree :=
  { nodes := (ancestors workingDirectory).map fun path => (path, .directory)
    workingDirectory := workingDirectory }

end FileTree

end DesignTokens
