import DesignTokens.Failure
import DesignTokens.Json.Reader
import DesignTokens.Text.Lines

/-!
# Token files

A token file is a text that holds one JSON object.

* `tokenFileNames` lists the files of a directory that hold trees of tokens, by their names.
* `readTokenFile` reads the fields of a file, or says why it cannot.
-/

namespace DesignTokens

/-- How the names of files with trees of tokens end. -/
def tokenFileEnding : List Char :=
  ".tokens.json".toList

/-- Whether a name is that of a file with a tree of tokens. -/
def isTokenFileName (name : String) : Bool :=
  tokenFileEnding.isSuffixOf name.toList

/-- The names of the files with trees of tokens directly in a directory, ascending; none if there
is no such directory. -/
def tokenFileNames (t : FileTree) (directory : Location) : List String :=
  ((t.entries directory).getD []).filter fun name =>
    isTokenFileName name && t.isFile (directory.child name)

/-- Reads a text that holds one object. -/
def readTokenText (file : Location) (text : List Char) : Except LoadError Fields :=
  match Json.read (Text.unifyNewlines text) with
  | .error e => .error (.malformed file e)
  | .ok (.object fields) => .ok fields
  | .ok found => .error (.notAnObject file found)

/-- Reads the fields of a token file. -/
def readTokenFile (t : FileTree) (file : Location) : Except LoadError Fields :=
  match t.read? file with
  | none => .error (.fileMissing file)
  | some bytes =>
    -- strict: surrogates and overlong forms are no text
    match String.fromUTF8? bytes with
    | none => .error (.notText file)
    | some text => readTokenText file text.toList

end DesignTokens
