import DesignTokens.CommandLine.Run

/-!
# The program

The outer layer: it looks at the files that the command may read, lets the command decide on
them, and carries out what it decided. The stylesheet is written beside its place first and
takes the place in one step.
-/

namespace DesignTokens.Program

/-- The names that lead to the working directory. -/
def stepsOf (path : String) : FilePath :=
  (Location.ofString path).steps

/-- A path of the file system in its written form. -/
def written (path : FilePath) : String :=
  "/" ++ "/".intercalate path

/-- Notes what is at a path; files are read only if they are asked for. -/
def note (t : FileTree) (path : FilePath) (content : Bool) : IO FileTree := do
  let here := (← IO.currentDir) / written path
  if ← here.isDir then return t.insert path .directory
  else if ← here.pathExists then
    let bytes ← if content then IO.FS.readBinFile here else pure ByteArray.empty
    return t.insert path (.file bytes)
  else return t

/-- Notes what is on the way along some steps, and gives the path that they end at. -/
def noteSteps (t : FileTree) (path : FilePath) : List String → IO (FileTree × FilePath)
  | [] => return (t, path)
  | step :: rest => do
    let next := if step = ".." then path.dropLast else path ++ [step]
    noteSteps (← note t next false) next rest

/-- Notes what is on the way to a location. -/
def noteLocation (t : FileTree) (l : Location) : IO (FileTree × FilePath) :=
  noteSteps t (if l.anchor = .workingDirectory then t.workingDirectory else []) l.steps

/-- Whether a file of this name may be read. -/
def mayBeRead (name : String) : Bool :=
  isTokenFileName name || Legacy.files.any fun file => file.name == name

/-- Notes the token files in a directory. -/
def noteDirectory (t : FileTree) (l : Location) : IO FileTree := do
  let (t, path) ← noteLocation t l
  let here := (← IO.currentDir) / written path
  if ← here.isDir then
    (← here.readDir).foldlM (fun t entry =>
      if mayBeRead entry.fileName then note t (path ++ [entry.fileName]) true else pure t) t
  else return t

/-- The files that a build with the given options looks at. -/
def survey (o : Options) : IO FileTree := do
  let t := FileTree.empty (stepsOf (← IO.currentDir).toString)
  let t ← noteDirectory t o.tokensDir
  let t ← noteDirectory t (tierDirectory o.tokensDir .primitives)
  let t ← noteDirectory t (tierDirectory o.tokensDir .semantic)
  let t ← noteDirectory t (tierDirectory o.tokensDir .component)
  return (← noteLocation t o.outputFile).1

/-- Puts the stylesheet in its place. -/
def place (env : Environment) (o : Options) (content : ByteArray) : IO Unit := do
  let temporary := o.outputFile.parent.child env.temporaryName
  IO.FS.createDirAll o.outputFile.parent.text
  try
    IO.FS.writeBinFile temporary.text content
    IO.FS.rename temporary.text o.outputFile.text
  catch e =>
    IO.FS.removeFile temporary.text
    throw e

end DesignTokens.Program

open DesignTokens in
/-- Runs the command on the files of the working directory. -/
def main (arguments : List String) : IO UInt32 := do
  let options : Options :=
    match CommandLine.parse arguments with
    | some (.generate o _) => o
    | _ => {}
  let files ← Program.survey options
  let env := Environment.willing files options.outputFile
  let outcome := CommandLine.run (fun _ => env) files arguments
  if outcome.exitCode = 0 then
    match CommandLine.parse arguments, outcome.files.read? options.outputFile with
    | some (.generate ..), some content => Program.place env options content
    | _, _ => pure ()
  IO.print outcome.output
  IO.eprint outcome.errors
  return UInt32.ofNat outcome.exitCode
