import DesignTokens.Alias.Expand

/-!
# What a value writes

The aliases of a text are found by a scan from left to right (`scan`). Here they are described
without the scan: a path is written in a text when the path, put between braces, stands anywhere
in it, and it is written in a value when it is written in one of the value's texts.

* `IsAliasName` — the paths that can be named between braces at all: not empty, without braces.
* `Value.Writes` — the relation "this value writes that path". It looks into the fields of
  objects, however deep, and never into lists.
* `alias_mem_scan_iff` — the scan finds exactly the names that stand between braces.

The scan keeps a pending part, the text since the last opening brace, and the statement that
carries the induction is about that part and the rest of the text together
(`alias_mem_scanFrom_iff`). A name holds no brace, so it can only be closed by the brace that the
scan stops at (`prefix_closing_iff`), and nothing that begins with a brace begins inside a pending
name (`opening_infix_append_iff`). Occurrences therefore never overlap, and none is missed: what
the next brace makes of a pending part is `source_infix_reopened_iff` and
`source_infix_closed_iff`.
-/

namespace DesignTokens

namespace Alias

/-- The characters of a name between braces: at least one, and none of them a brace. -/
def IsName (name : List Char) : Prop :=
  name ≠ [] ∧ '{' ∉ name ∧ '}' ∉ name

/-- A path that can be named in an alias. -/
def IsAliasName (path : String) : Prop :=
  IsName path.toList

instance (name : List Char) : Decidable (IsName name) :=
  inferInstanceAs (Decidable (_ ∧ _))

instance (path : String) : Decidable (IsAliasName path) :=
  inferInstanceAs (Decidable (IsName _))

/-- An alias is written as its path between braces. -/
theorem toList_aliasText (path : String) :
    (aliasText path).toList = (Piece.alias path.toList).source := by
  simp [aliasText, Piece.source]

/-! ### The scan finds every name between braces -/

/-- A text that begins with an opening brace begins in no text without one. -/
theorem opening_infix_append_iff (front : List Char) (h : '{' ∉ front) (tail rest : List Char) :
    ('{' :: tail) <:+: front ++ rest ↔ ('{' :: tail) <:+: rest := by
  induction front with
  | nil => rfl
  | cons c front ih =>
    rw [List.mem_cons, not_or] at h
    rw [List.cons_append, List.infix_cons_iff, ih h.2, List.cons_prefix_cons]
    exact or_iff_right fun opened => h.1 opened.1

/-- A name between braces can only be closed by the first brace that follows it, and that brace
has to be a closing one. -/
theorem prefix_closing_iff {name front : List Char} {brace : Char} (rest : List Char)
    (hname : '{' ∉ name ∧ '}' ∉ name) (hfront : '{' ∉ front ∧ '}' ∉ front)
    (hbrace : brace = '{' ∨ brace = '}') :
    name ++ ['}'] <+: front ++ brace :: rest ↔ name = front ∧ brace = '}' := by
  induction name generalizing front with
  | nil =>
    cases front with
    | nil => simp [eq_comm]
    | cons c front =>
      have : '}' ≠ c := fun h => hfront.2 (h ▸ List.mem_cons_self)
      simp [this]
  | cons d name ih =>
    have hrest : '{' ∉ name ∧ '}' ∉ name :=
      ⟨fun h => hname.1 (List.mem_cons_of_mem _ h), fun h => hname.2 (List.mem_cons_of_mem _ h)⟩
    cases front with
    | nil =>
      -- the name would go on with the brace
      have : d ≠ brace := by
        rintro rfl
        rcases hbrace with rfl | rfl
        · exact hname.1 List.mem_cons_self
        · exact hname.2 List.mem_cons_self
      simp [this]
    | cons c front =>
      have hmore : '{' ∉ front ∧ '}' ∉ front :=
        ⟨fun h => hfront.1 (List.mem_cons_of_mem _ h),
          fun h => hfront.2 (List.mem_cons_of_mem _ h)⟩
      rw [List.cons_append, List.cons_append, List.cons_prefix_cons, ih hrest hmore,
        List.cons.injEq, and_assoc]

/-- A pending part that is followed by an opening brace holds no occurrence: the search goes on at
that brace. -/
theorem source_infix_reopened_iff {name front : List Char} (hname : '{' ∉ name ∧ '}' ∉ name)
    (hfront : '{' ∉ front ∧ '}' ∉ front) (rest : List Char) :
    (Piece.alias name).source <:+: '{' :: (front ++ '{' :: rest) ↔
      (Piece.alias name).source <:+: '{' :: rest := by
  rw [Piece.source, List.cons_append, List.infix_cons_iff, List.cons_prefix_cons,
    prefix_closing_iff rest hname hfront (Or.inl rfl), opening_infix_append_iff front hfront.1]
  simp

/-- A pending part that is followed by a closing brace is an occurrence of its own name, and any
other one comes later. -/
theorem source_infix_closed_iff {name front : List Char} (hname : '{' ∉ name ∧ '}' ∉ name)
    (hfront : '{' ∉ front ∧ '}' ∉ front) (rest : List Char) :
    (Piece.alias name).source <:+: '{' :: (front ++ '}' :: rest) ↔
      name = front ∨ (Piece.alias name).source <:+: rest := by
  have later := opening_infix_append_iff (front ++ ['}']) (by simpa using hfront.1)
    (name ++ ['}']) rest
  rw [List.append_assoc, List.singleton_append] at later
  rw [Piece.source, List.cons_append, List.infix_cons_iff, List.cons_prefix_cons,
    prefix_closing_iff rest hname hfront (Or.inr rfl), later]
  simp

theorem alias_not_mem_literals (name text : List Char) : Piece.alias name ∉ literals text := by
  simp [literals]

/-- **The scan with a pending part.** What it finds are the names that stand between braces in
the pending part and the rest of the text together. -/
theorem alias_mem_scanFrom_iff (name : List Char) (pending : Option (List Char))
    (text : List Char) (hpending : ∀ open? ∈ pending, '{' ∉ open? ∧ '}' ∉ open?) :
    Piece.alias name ∈ scanFrom pending text ↔
      IsName name ∧ (Piece.alias name).source <:+: pendingSource pending ++ text := by
  induction text generalizing pending with
  | nil =>
    cases pending with
    | none => simp [scanFrom, pendingSource, Piece.source]
    | some front =>
      -- nothing closes the pending part
      have hfront := hpending front rfl
      have hmem : Piece.alias name ∉ scanFrom (some front) [] := by
        simp [scanFrom, alias_not_mem_literals]
      refine iff_of_false hmem ?_
      rintro ⟨-, hinfix⟩
      have hclosed : '}' ∈ pendingSource (some front) ++ [] :=
        hinfix.subset (by simp [Piece.source])
      simp [pendingSource, hfront.2] at hclosed
  | cons c rest ih =>
    cases pending with
    | none =>
      simp only [scanFrom, pendingSource, List.nil_append]
      split
      next h =>
        rw [ih (some []) (by simp)]
        simp [pendingSource, h]
      next h =>
        rw [List.mem_cons, or_iff_right (by simp), ih none (by simp)]
        refine and_congr_right fun _ => ?_
        have := opening_infix_append_iff [c] (by simpa using Ne.symm h)
          (name ++ ['}']) rest
        simpa [Piece.source, pendingSource] using this.symm
    | some front =>
      have hfront := hpending front rfl
      have hreverse : '{' ∉ front.reverse ∧ '}' ∉ front.reverse := by simpa using hfront
      simp only [scanFrom, pendingSource, List.cons_append]
      split
      next h =>
        -- the pending brace opens nothing: another one follows before it is closed
        subst h
        rw [List.mem_cons, or_iff_right (by simp), List.mem_append,
          or_iff_right (alias_not_mem_literals _ _), ih (some []) (by simp)]
        refine and_congr_right fun hname => ?_
        exact (source_infix_reopened_iff hname.2 hreverse rest).symm
      next h =>
        split
        next h' =>
          subst h'
          split
          next empty =>
            -- an empty name is none
            subst empty
            rw [List.mem_cons, or_iff_right (by simp), List.mem_cons, or_iff_right (by simp),
              ih none (by simp)]
            refine and_congr_right fun hname => ?_
            have closed := source_infix_closed_iff hname.2 hreverse rest
            exact (closed.trans (or_iff_right hname.1)).symm
          next nonempty =>
            -- the brace closes the pending name, which is one occurrence
            have hfirst : IsName front.reverse := ⟨by simpa using nonempty, hreverse⟩
            rw [List.mem_cons, ih none (by simp), Piece.alias.injEq]
            refine ⟨?_, ?_⟩
            · rintro (rfl | ⟨hname, later⟩)
              · exact ⟨hfirst, (source_infix_closed_iff hreverse hreverse rest).2 (Or.inl rfl)⟩
              · exact ⟨hname, (source_infix_closed_iff hname.2 hreverse rest).2 (Or.inr later)⟩
            · rintro ⟨hname, occurs⟩
              rcases (source_infix_closed_iff hname.2 hreverse rest).1 occurs with same | later
              · exact Or.inl same
              · exact Or.inr ⟨hname, later⟩
        next h' =>
          rw [ih (some (c :: front)) (by simp [hfront, Ne.symm h, Ne.symm h'])]
          simp [pendingSource]

/-- **The scan finds exactly the names between braces**: wherever a non-empty name without braces
stands between two braces, and nowhere else. -/
theorem alias_mem_scan_iff (name text : List Char) :
    Piece.alias name ∈ scan text ↔ IsName name ∧ (Piece.alias name).source <:+: text := by
  simpa [scan, pendingSource] using alias_mem_scanFrom_iff name none text (by simp)

/-- The aliases of a text are the names that it holds between braces. -/
theorem mem_aliases_iff (name text : List Char) :
    name ∈ aliases text ↔ IsName name ∧ (Piece.alias name).source <:+: text := by
  rw [← alias_mem_scan_iff, aliases, List.mem_filterMap]
  refine ⟨?_, ?_⟩
  · rintro ⟨piece, hmem, hpiece⟩
    cases piece with
    | literal c => cases hpiece
    | «alias» n =>
      obtain rfl := Option.some.inj hpiece
      exact hmem
  · exact fun hmem => ⟨_, hmem, rfl⟩

/-- A text that is an alias and nothing else has that alias only. -/
theorem aliases_of_wholeAlias? {text name : List Char} (h : wholeAlias? text = some name) :
    aliases text = [name] := by
  unfold wholeAlias? at h
  unfold aliases
  split at h
  next hscan => rw [hscan]; simpa [Piece.alias?] using h
  next hscan => rw [hscan]; simpa [Piece.alias?] using h
  next => cases h

end Alias

/-! ### Values -/

/-- A value **writes** a path when one of its texts holds the path between braces. The texts of a
value are the value itself and those of the fields of an object; those in a list are not looked
at. -/
inductive Value.Writes : Value → String → Prop
  | text {text path : String} (name : Alias.IsAliasName path)
      (stands : (Alias.aliasText path).toList <:+: text.toList) : Writes (.str text) path
  | field {fields : Fields} {key path : String} {value : Value} (mem : (key, value) ∈ fields)
      (inner : Writes value path) : Writes (.object fields) path

theorem Value.writes_str_iff {text path : String} :
    (Value.str text).Writes path ↔
      Alias.IsAliasName path ∧ (Alias.aliasText path).toList <:+: text.toList := by
  refine ⟨?_, ?_⟩
  · rintro ⟨name, stands⟩
    exact ⟨name, stands⟩
  · rintro ⟨name, stands⟩
    exact .text name stands

/-- A path that is written can be named in an alias. -/
theorem Value.Writes.isAliasName {value : Value} {path : String} (writes : value.Writes path) :
    Alias.IsAliasName path := by
  induction writes with
  | text name _ => exact name
  | field _ _ ih => exact ih

theorem Value.writes_object_iff {fields : Fields} {path : String} :
    (Value.object fields).Writes path ↔ ∃ field ∈ fields, field.2.Writes path := by
  refine ⟨?_, ?_⟩
  · rintro (_ | ⟨mem, inner⟩)
    exact ⟨_, mem, inner⟩
  · rintro ⟨field, mem, inner⟩
    exact .field mem inner

end DesignTokens
