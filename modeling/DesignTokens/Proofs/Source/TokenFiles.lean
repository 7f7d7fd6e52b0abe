import DesignTokens.Proofs.FileTree.Listing
import DesignTokens.Proofs.Traced
import DesignTokens.Source.TokenFile

/-!
# Which files are there, and what they hold

Two questions are asked of a directory with tokens: which files with trees of tokens it holds, and
what is wrong with a file of it.

* `HoldsTokenFile` — a directory directly holds a file with a tree of tokens. The names of these
  files are none exactly if it does not (`tokenFileNames_ne_nil_iff`), and in well-formed trees they
  depend on nothing but which of these files are there (`tokenFileNames_congr`).
* `HoldsObject` — a file holds one object: it is a text, and the text is read as an object.
* `fault?` — what is wrong with a file that does not (`fault?_eq_none_iff`). `HasFault` has a rule
  for each cause, told without the reader of files, and the two agree (`fault?_eq_some_iff`).
-/

namespace DesignTokens

open FileTree

variable {t t' : FileTree} {directory file : Location} {name : String} {bytes : ByteArray}
  {e : LoadError}

/-! ### Files with trees of tokens -/

theorem ne_up_of_isTokenFileName (named : isTokenFileName name) : name ≠ ".." := by
  rintro rfl
  exact absurd named (by decide)

theorem isFile_eq_true_iff : t.isFile file = true ↔ ∃ bytes, t.read? file = some bytes := by
  rw [isFile, Option.isSome_iff_exists]

/-- The names of the token files of a directory are those that a token file has there. -/
theorem mem_tokenFileNames_iff :
    name ∈ tokenFileNames t directory ↔
      isTokenFileName name = true ∧ t.isFile (directory.child name) = true := by
  rw [tokenFileNames, List.mem_filter, Bool.and_eq_true]
  refine ⟨And.right, ?_⟩
  rintro ⟨named, there⟩
  refine ⟨mem_entries_iff.2 ?_, named, there⟩
  -- a file can only be looked up in a directory that lists it
  obtain ⟨bytes, read⟩ := isFile_eq_true_iff.1 there
  obtain ⟨path, leads, here, holds⟩ :=
    (read?_child_eq_some_iff (ne_up_of_isTokenFileName named)).1 read
  exact ⟨path, leads, here, by simp [holds]⟩

/-- A directory **holds a token file** when a file with a tree of tokens stands directly in it. -/
def HoldsTokenFile (t : FileTree) (directory : Location) : Prop :=
  ∃ name, isTokenFileName name = true ∧ t.isFile (directory.child name) = true

theorem tokenFileNames_ne_nil_iff :
    tokenFileNames t directory ≠ [] ↔ HoldsTokenFile t directory := by
  refine ⟨?_, ?_⟩
  · intro some
    obtain ⟨name, mem⟩ := List.exists_mem_of_ne_nil _ some
    exact ⟨name, mem_tokenFileNames_iff.1 mem⟩
  · rintro ⟨name, holds⟩
    exact List.ne_nil_of_mem (mem_tokenFileNames_iff.2 holds)

/-- A token file stands in a directory that is there. -/
theorem HoldsTokenFile.isDirectory (h : HoldsTokenFile t directory) :
    t.isDirectory directory = true := by
  obtain ⟨name, named, there⟩ := h
  obtain ⟨bytes, read⟩ := isFile_eq_true_iff.1 there
  obtain ⟨path, leads, here, -⟩ :=
    (read?_child_eq_some_iff (ne_up_of_isTokenFileName named)).1 read
  exact isDirectory_eq_true_iff.2 ⟨path, leads, here⟩

theorem pairwise_tokenFileNames : (tokenFileNames t directory).Pairwise (· ≤ ·) := by
  rw [tokenFileNames]
  apply List.Pairwise.filter
  cases listed : t.entries directory with
  | none => exact List.Pairwise.nil
  | some names => exact pairwise_entries listed

theorem nodup_tokenFileNames (h : t.WellFormed) : (tokenFileNames t directory).Nodup := by
  rw [tokenFileNames]
  apply List.Nodup.filter
  cases listed : t.entries directory with
  | none => exact List.nodup_nil
  | some names => exact h.nodup_entries listed

/-- **The token files of a directory depend on the token files alone**: whatever else stands there,
the list is the same as soon as the same token files are there. -/
theorem tokenFileNames_congr (h : t.WellFormed) (h' : t'.WellFormed)
    (same : ∀ name, isTokenFileName name = true →
      t'.isFile (directory.child name) = t.isFile (directory.child name)) :
    tokenFileNames t' directory = tokenFileNames t directory := by
  -- both lists ascend and name nothing twice
  refine List.Perm.eq_of_pairwise (fun _ _ _ _ => String.le_antisymm) pairwise_tokenFileNames
    pairwise_tokenFileNames ?_
  rw [List.perm_ext_iff_of_nodup (nodup_tokenFileNames h') (nodup_tokenFileNames h)]
  intro name
  rw [mem_tokenFileNames_iff, mem_tokenFileNames_iff]
  exact and_congr_right fun named => by rw [same name named]

/-! ### What a file holds -/

theorem fromUTF8?_eq_some_iff {text : String} :
    String.fromUTF8? bytes = some text ↔ bytes = text.toUTF8 := by
  rw [String.fromUTF8?]
  split
  · rw [Option.some.injEq, ← String.toByteArray_inj]
    exact Iff.rfl
  next invalid =>
    refine ⟨nofun, ?_⟩
    rintro rfl
    exact absurd text.isValidUTF8 invalid

/-- Bytes are **no text** when no text is written as them. -/
def IsNoText (bytes : ByteArray) : Prop :=
  ∀ text : String, bytes ≠ text.toUTF8

theorem fromUTF8?_eq_none_iff : String.fromUTF8? bytes = none ↔ IsNoText bytes := by
  rw [Option.eq_none_iff_forall_ne_some]
  exact forall_congr' fun text => not_congr fromUTF8?_eq_some_iff

/-- A file **holds an object** when it is a text that reads as one. -/
def HoldsObject (t : FileTree) (file : Location) : Prop :=
  ∃ (text : String) (fields : Fields), t.read? file = some text.toUTF8 ∧
    Json.read (Text.unifyNewlines text.toList) = .ok (.object fields)

/-- Why a file does not hold an object. -/
inductive HasFault (t : FileTree) (file : Location) : LoadError → Prop
  | missing (h : t.isFile file = false) : HasFault t file (.fileMissing file)
  | notText {bytes : ByteArray} (read : t.read? file = some bytes) (noText : IsNoText bytes) :
    HasFault t file (.notText file)
  | malformed {text : String} {e : Json.SyntaxError} (read : t.read? file = some text.toUTF8)
    (faulty : Json.read (Text.unifyNewlines text.toList) = .error e) :
    HasFault t file (.malformed file e)
  | notAnObject {text : String} {found : Value} (read : t.read? file = some text.toUTF8)
    (parsed : Json.read (Text.unifyNewlines text.toList) = .ok found)
    (other : ∀ fields, found ≠ .object fields) : HasFault t file (.notAnObject file found)

/-- What is wrong with a file that cannot be read. -/
def fault? (t : FileTree) (file : Location) : Option LoadError :=
  failure? (readTokenFile t file)

theorem fault?_of_missing (missing : t.isFile file = false) :
    fault? t file = some (.fileMissing file) := by
  have read : t.read? file = none := by simpa [isFile] using missing
  rw [fault?, readTokenFile, read]
  rfl

theorem fault?_of_noText (read : t.read? file = some bytes) (noText : IsNoText bytes) :
    fault? t file = some (.notText file) := by
  simp only [fault?, readTokenFile, read, fromUTF8?_eq_none_iff.2 noText, failure?]

/-- Of a text it is the reader of JSON that decides. -/
theorem fault?_of_text {text : String} (read : t.read? file = some text.toUTF8) :
    fault? t file =
      match Json.read (Text.unifyNewlines text.toList) with
      | .error e => some (.malformed file e)
      | .ok (.object _) => none
      | .ok found => some (.notAnObject file found) := by
  simp only [fault?, readTokenFile, read, fromUTF8?_eq_some_iff.2 rfl, readTokenText]
  cases Json.read (Text.unifyNewlines text.toList) with
  | error e => rfl
  | ok found => cases found <;> rfl

/-- A file is missing, or no text, or a text. -/
theorem file_cases (t : FileTree) (file : Location) :
    t.isFile file = false ∨ (∃ bytes, t.read? file = some bytes ∧ IsNoText bytes) ∨
      ∃ text : String, t.read? file = some text.toUTF8 := by
  cases read : t.read? file with
  | none => exact .inl (by simp [isFile, read])
  | some bytes =>
    cases decoded : String.fromUTF8? bytes with
    | none => exact .inr (.inl ⟨bytes, rfl, fromUTF8?_eq_none_iff.1 decoded⟩)
    | some text => exact .inr (.inr ⟨text, by rw [fromUTF8?_eq_some_iff.1 decoded]⟩)

/-- **What is wrong with a file** is told by the first thing that goes wrong with it. -/
theorem fault?_eq_some_iff : fault? t file = some e ↔ HasFault t file e := by
  refine ⟨?_, ?_⟩
  · intro h
    -- the reader says one thing of a file, and each answer is the rule of its cause
    rcases file_cases t file with missing | ⟨bytes, read, noText⟩ | ⟨text, read⟩
    · obtain rfl := Option.some.inj ((fault?_of_missing missing).symm.trans h)
      exact .missing missing
    · obtain rfl := Option.some.inj ((fault?_of_noText read noText).symm.trans h)
      exact .notText read noText
    · rw [fault?_of_text read] at h
      split at h
      next faulty =>
        obtain rfl := Option.some.inj h
        exact .malformed read faulty
      next => cases h
      next other parsed =>
        obtain rfl := Option.some.inj h
        exact .notAnObject read parsed other
  · rintro (missing | ⟨read, noText⟩ | ⟨read, faulty⟩ | ⟨read, parsed, other⟩)
    · exact fault?_of_missing missing
    · exact fault?_of_noText read noText
    · rw [fault?_of_text read, faulty]
    · -- whatever value was read, it is no object
      rw [fault?_of_text read, parsed]
      split
      next same => cases same
      next same => exact absurd (Except.ok.inj same) (other _)
      next same => rw [Except.ok.inj same]

/-- A file has no fault exactly if it holds an object. -/
theorem fault?_eq_none_iff : fault? t file = none ↔ HoldsObject t file := by
  refine ⟨?_, ?_⟩
  · intro h
    rcases file_cases t file with missing | ⟨bytes, read, noText⟩ | ⟨text, read⟩
    · simp [fault?_of_missing missing] at h
    · simp [fault?_of_noText read noText] at h
    · rw [fault?_of_text read] at h
      split at h
      next => cases h
      next fields parsed => exact ⟨text, fields, read, parsed⟩
      next => cases h
  · rintro ⟨text, fields, read, parsed⟩
    rw [fault?_of_text read, parsed]

/-- A fault counts as missing input exactly if there is no file. -/
theorem HasFault.kind?_eq_missing_iff (h : HasFault t file e) :
    e.kind? = some .missingInput ↔ t.isFile file = false := by
  cases h with
  | missing missing => exact iff_of_true rfl missing
  | notText read => exact iff_of_false nofun (by simp [isFile, read])
  | malformed read => exact iff_of_false nofun (by simp [isFile, read])
  | notAnObject read => exact iff_of_false nofun (by simp [isFile, read])

/-- A fault has no kind exactly if the file is no text. -/
theorem HasFault.kind?_eq_none_iff (h : HasFault t file e) :
    e.kind? = none ↔ ∃ bytes, t.read? file = some bytes ∧ IsNoText bytes := by
  cases h with
  | missing missing =>
    refine iff_of_false nofun ?_
    rintro ⟨bytes, read, -⟩
    simp [isFile, read] at missing
  | notText read noText => exact iff_of_true rfl ⟨_, read, noText⟩
  | malformed read | notAnObject read =>
    -- the bytes are those of the text that was read
    refine iff_of_false nofun ?_
    rintro ⟨bytes, read', noText⟩
    exact noText _ (Option.some.inj (read'.symm.trans read))

end DesignTokens
