import DesignTokens.FileTree.Basic

/-!
# Replacing a file in one step

A file is never written in place. The new content goes to a temporary file beside it, which
then takes its name; whatever fails on the way, the temporary file is removed again and the
file keeps its old content.

* `FileAction` is an operation on a file tree that may fail; a failed one may still have
  changed the tree.
* `makeDirectories`, `createFile`, `writeFile`, `removeFile`, `renameFile` are the operations that
  it is made of; `placeFile` and `removeAll` are for setting a tree up.
* `Environment` is what the outside decides: the name of the temporary file, and which of the
  steps it refuses.
* `replaceFile` is the whole.
-/

namespace DesignTokens

/-- An operation on a file tree. -/
abbrev FileAction := EStateM FileError FileTree

namespace FileAction

/-- The path of a location. -/
def pathOf (l : Location) : FileAction FilePath := do
  match (← get).follow l with
  | .ok path => return path
  | .error e => throw e

/-- Makes a directory, whose parent must be there. -/
def makeDirectory (l : Location) : FileAction Unit := do
  let path ← pathOf l
  match (← get).node? path with
  | some _ => throw .alreadyExists
  | none => modify (·.insert path .directory)

/-- Accepts a failed attempt to make a directory if there is one. -/
def acceptDirectory (l : Location) (e : FileError) : FileAction Unit := do
  if (← get).isDirectory l then return else throw e

/-- Makes a directory and those that lead to it, given its steps from the last to the first.
Only a directory that is missing sends the attempt further up. -/
def makeDirectoriesUp (anchor : Anchor) : List String → FileAction Unit
  | [] => do
    let l : Location := ⟨anchor, []⟩
    try makeDirectory l catch e => acceptDirectory l e
  | step :: above => do
    let l : Location := ⟨anchor, (step :: above).reverse⟩
    try makeDirectory l
    catch e =>
      -- what leads here is missing: make that first, then try once more
      if e = .notFound then do
        makeDirectoriesUp anchor above
        try makeDirectory l catch e => acceptDirectory l e
      else acceptDirectory l e

/-- Makes a directory and those that lead to it; those already there are left alone. -/
def makeDirectories (l : Location) : FileAction Unit :=
  makeDirectoriesUp l.anchor l.steps.reverse

/-- Creates an empty file at a location that holds nothing. -/
def createFile (l : Location) : FileAction Unit := do
  let path ← pathOf l
  match (← get).node? path with
  | some _ => throw .alreadyExists
  | none => modify (·.insert path (.file ByteArray.empty))

/-- Gives a file its content. -/
def writeFile (l : Location) (content : ByteArray) : FileAction Unit := do
  let path ← pathOf l
  match (← get).node? path with
  | some .directory => throw .isADirectory
  | _ => modify (·.insert path (.file content))

/-- Removes a file. -/
def removeFile (l : Location) : FileAction Unit := do
  let path ← pathOf l
  match (← get).node? path with
  | some (.file _) => modify (·.erase path)
  | some .directory => throw .isADirectory
  | none => throw .notFound

/-- Removes a file, or a directory with what is in it. -/
def removeAll (l : Location) : FileAction Unit := do
  let path ← pathOf l
  match (← get).node? path with
  | some _ => modify (·.eraseBelow path)
  | none => throw .notFound

/-- Makes a file with the given content, and the directories that lead to it. -/
def placeFile (l : Location) (content : ByteArray) : FileAction Unit := do
  makeDirectories l.parent
  writeFile l content

/-- Gives a file another name, replacing the file that had it. A location that ends with no
name of its own cannot be taken. -/
def renameFile (source target : Location) : FileAction Unit := do
  if target.name = "" ∨ target.name = ".." then throw .busy
  let sourcePath ← pathOf source
  let targetPath ← pathOf target
  match (← get).node? sourcePath, (← get).node? targetPath with
  | some (.file _), some .directory => throw .isADirectory
  | some (.file bytes), _ => modify fun t => (t.erase sourcePath).insert targetPath (.file bytes)
  | _, _ => throw .notFound

end FileAction

/-- The steps of replacing a file. -/
inductive WriteStep where
  | makeParent
  | createTemporary
  | writeTemporary
  | setMode
  | takeName
deriving DecidableEq, Repr

/-- What is decided outside: the name of the temporary file, the steps that are refused, and how
far such a step gets before that: how many of the directories that lead to the parent it has looked
after, and how many bytes it has written. -/
structure Environment where
  temporaryName : String
  refuses : WriteStep → Option FileError := fun _ => none
  directoriesBeforeRefusal : Nat := 0
  bytesBeforeRefusal : Nat := 0

namespace Environment

/-- Fails if the step is refused. -/
def attempt (env : Environment) (step : WriteStep) : FileAction Unit :=
  match env.refuses step with
  | some e => throw e
  | none => return

/-- Makes the directories that lead to a location, or those of them that are accepted. -/
def makeDirectories (env : Environment) (l : Location) : FileAction Unit :=
  match env.refuses .makeParent with
  | none => FileAction.makeDirectories l
  | some e => do
    FileAction.makeDirectories { l with steps := l.steps.take env.directoriesBeforeRefusal }
    throw e

/-- Writes the content of the temporary file, or the part of it that is accepted. -/
def write (env : Environment) (l : Location) (content : ByteArray) : FileAction Unit :=
  match env.refuses .writeTemporary with
  | none => FileAction.writeFile l content
  | some e => do
    FileAction.writeFile l (content.extract 0 env.bytesBeforeRefusal)
    throw e

end Environment

/-- Gives the file at a location its content in one step, or leaves every file as it is. -/
def replaceFile (env : Environment) (target : Location) (content : ByteArray) :
    FileAction Unit := do
  let temporary := target.parent.child env.temporaryName
  env.makeDirectories target.parent
  env.attempt .createTemporary
  FileAction.createFile temporary
  -- from here on a failure must take the temporary file away again
  try
    env.write temporary content
    env.attempt .setMode
    env.attempt .takeName
    FileAction.renameFile temporary target
  catch e =>
    FileAction.removeFile temporary
    throw e

/-- A name that nothing in a directory has: it is longer than all of them. -/
def freshName (t : FileTree) (directory : Location) (stem : String) : String :=
  let longest := ((t.entries directory).getD []).foldl (fun n name => max n name.length) 0
  stem ++ String.ofList (List.replicate (longest + 1) 'x')

/-- An environment that refuses nothing. -/
def Environment.willing (t : FileTree) (target : Location) : Environment :=
  { temporaryName := freshName t target.parent ("." ++ target.name ++ ".") }

end DesignTokens
