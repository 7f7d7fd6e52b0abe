import DesignTokens.Proofs.Alias.Chains

/-!
# Substitution

What becomes of a text that holds aliases, told without the scan: the text is cut at its aliases
from left to right, each of them is replaced by what it becomes, and the rest stays as it is. What
was put in is not looked at again.

* `Plain` — a text without an alias. `scan_plain_append` says that the scan passes over it.
* `Substitutes` — a text and the text that it becomes, given what the aliases become.
* `expandPieces_scan_eq_ok_iff` — what the expansion of a text returns is exactly that.
* `Substitutes.exists_inserted`, `Substitutes.mem_cases` — every alias of the text has left its
  replacement in the result, and a character of the result comes from a replacement or stood
  outside the aliases.
* `wholeAlias?_eq_some_iff` — the texts that are an alias and nothing else.
-/

namespace DesignTokens

namespace Alias

/-! ### Texts without an alias -/

/-- A text is **plain** when no alias stands in it. -/
def Plain (text : List Char) : Prop :=
  ∀ name, IsName name → ¬ (Piece.alias name).source <:+: text

theorem Plain.of_infix {text part : List Char} (h : Plain text) (inside : part <:+: text) :
    Plain part :=
  fun name hname occurs => h name hname (occurs.trans inside)

/-- An alias needs an opening brace. -/
theorem plain_of_not_mem {text : List Char} (h : '{' ∉ text) : Plain text :=
  fun _ _ occurs => h (occurs.subset (by simp [Piece.source]))

theorem aliases_eq_nil_iff {text : List Char} : aliases text = [] ↔ Plain text := by
  rw [List.eq_nil_iff_forall_not_mem]
  simp only [mem_aliases_iff, not_and]
  rfl

/-- **The scan passes over a plain text.** The text may have been begun in a pending part, and an
opening brace or nothing may follow it. -/
theorem scanFrom_plain_append {pending : Option (List Char)} {front rest : List Char}
    (hpending : ∀ open? ∈ pending, '{' ∉ open? ∧ '}' ∉ open?)
    (plain : Plain (pendingSource pending ++ front)) (follows : ∀ c ∈ rest.head?, c = '{') :
    scanFrom pending (front ++ rest) =
      literals (pendingSource pending ++ front) ++ scanFrom none rest := by
  induction front generalizing pending with
  | nil =>
    cases pending with
    | none => rfl
    | some name =>
      cases rest with
      | nil => simp [scanFrom, pendingSource, literals]
      | cons c more =>
        obtain rfl := follows c rfl
        simp [scanFrom, pendingSource, literals]
  | cons c front ih =>
    cases pending with
    | none =>
      rw [List.cons_append, scanFrom]
      split
      next h =>
        subst h
        exact @ih (some []) (by simp) plain
      next =>
        rw [@ih none (by simp) (plain.of_infix (List.suffix_cons c front).isInfix)]
        rfl
    | some name =>
      have hname := hpending name rfl
      -- what follows the pending part is plain as well
      have later : Plain (c :: front) := plain.of_infix (List.suffix_append _ _).isInfix
      rw [List.cons_append, scanFrom]
      split
      next h =>
        subst h
        rw [@ih (some []) (by simp) later]
        simp [pendingSource, literals]
      next h =>
        split
        next h' =>
          subst h'
          split
          next empty =>
            subst empty
            rw [@ih none (by simp) (later.of_infix (List.suffix_cons _ front).isInfix)]
            simp [pendingSource, literals]
          next nonempty =>
            -- the brace would close an alias
            refine absurd ?_ (plain name.reverse ⟨by simpa using nonempty, by simpa using hname⟩)
            exact ⟨[], front, by simp [Piece.source, pendingSource]⟩
        next h' =>
          have grown : pendingSource (some (c :: name)) ++ front =
              pendingSource (some name) ++ c :: front := by
            simp [pendingSource]
          rw [ih (by simp [hname, Ne.symm h, Ne.symm h']) (grown ▸ plain), grown]

theorem scan_plain {text : List Char} (plain : Plain text) : scan text = literals text := by
  have := @scanFrom_plain_append none text [] (by simp) plain (by simp)
  simpa [scan, scanFrom, pendingSource] using this

/-- The scan reads an alias after a plain text. -/
theorem scan_plain_append {front name : List Char} (plain : Plain front) (hname : IsName name)
    (rest : List Char) :
    scan (front ++ ((Piece.alias name).source ++ rest)) =
      literals front ++ .alias name :: scan rest := by
  have closed : scanFrom none ((Piece.alias name).source ++ rest) = .alias name :: scan rest := by
    rw [Piece.source, List.append_assoc, List.cons_append, List.singleton_append, scanFrom,
      if_pos rfl, scanFrom_name rest hname.2 (by simpa using hname.1)]
    rfl
  rw [scan, @scanFrom_plain_append none front _ (by simp) plain (by simp [Piece.source]), closed]
  rfl

/-- A text that is not plain has a first alias. -/
theorem exists_first_alias {text : List Char} (h : ¬ Plain text) :
    ∃ front name rest, Plain front ∧ IsName name ∧
      text = front ++ ((Piece.alias name).source ++ rest) := by
  induction hn : text.length using Nat.strongRecOn generalizing text with
  | ind n ih =>
    simp only [Plain, Classical.not_forall, Classical.not_not] at h
    obtain ⟨name, hname, front, rest, rfl⟩ := h
    by_cases plain : Plain front
    · exact ⟨front, name, rest, plain, hname, by simp⟩
    -- there is an earlier one
    obtain ⟨front', name', rest', plain', hname', rfl⟩ :=
      ih front.length (by simp [← hn, Piece.source]) plain rfl
    exact ⟨front', name', rest' ++ ((Piece.alias name).source ++ rest), plain', hname', by simp⟩

/-! ### Replacing the aliases -/

/-- **Substitution.** A plain text stays as it is. Otherwise what stands before the first alias
stays, the alias is replaced, and the rest of the text is substituted in its turn; what was put in
for the alias is no part of that rest. -/
inductive Substitutes (becomes : List Char → List Char → Prop) : List Char → List Char → Prop
  | plain {text : List Char} (plain : Plain text) : Substitutes becomes text text
  | next {front name inserted rest out : List Char} (plain : Plain front) (isName : IsName name)
      (replaced : becomes name inserted) (later : Substitutes becomes rest out) :
      Substitutes becomes (front ++ ((Piece.alias name).source ++ rest))
        (front ++ (inserted ++ out))

section Substitutes

variable {becomes : List Char → List Char → Prop} {text out : List Char}

/-- A substitution may replace by anything that is replaced by as well elsewhere. -/
theorem Substitutes.imp {becomes' : List Char → List Char → Prop} (h : Substitutes becomes text out)
    (imp : ∀ name inserted, IsName name → becomes name inserted → becomes' name inserted) :
    Substitutes becomes' text out := by
  induction h with
  | plain plain => exact .plain plain
  | next plain isName replaced _ ih => exact .next plain isName (imp _ _ isName replaced) ih

/-- The first alias of a text, and those after it. -/
theorem aliases_plain_append {front name : List Char} (plain : Plain front) (isName : IsName name)
    (rest : List Char) :
    aliases (front ++ ((Piece.alias name).source ++ rest)) = name :: aliases rest := by
  have none : (literals front).filterMap Piece.alias? = [] := by
    simp [literals, List.filterMap_map, Function.comp_def, Piece.alias?]
  rw [aliases, scan_plain_append plain isName, List.filterMap_append, none]
  rfl

/-- The names of an alias and of those after it. -/
theorem mem_aliases_plain_append {front name rest : List Char} (plain : Plain front)
    (isName : IsName name) (other : List Char) :
    other ∈ aliases (front ++ ((Piece.alias name).source ++ rest)) ↔
      other = name ∨ other ∈ aliases rest := by
  rw [aliases_plain_append plain isName, List.mem_cons]

/-- **Every alias of the text has left its replacement in the result.** -/
theorem Substitutes.exists_inserted (h : Substitutes becomes text out) {name : List Char}
    (mem : name ∈ aliases text) : ∃ inserted, becomes name inserted ∧ inserted <:+: out := by
  induction h with
  | plain plain =>
    rw [aliases_eq_nil_iff.2 plain] at mem
    cases mem
  | @next front first inserted rest out plain isName replaced later ih =>
    rcases (mem_aliases_plain_append plain isName name).1 mem with rfl | mem
    · exact ⟨inserted, replaced, front, out, by simp⟩
    · obtain ⟨inserted', replaced', inside⟩ := ih mem
      refine ⟨inserted', replaced', inside.trans ?_⟩
      exact ⟨front ++ inserted, [], by simp⟩

/-- **Where a character of the result comes from**: it stood outside the aliases of the text, or it
belongs to a replacement. -/
theorem Substitutes.mem_cases (h : Substitutes becomes text out) {c : Char} (mem : c ∈ out) :
    Piece.literal c ∈ scan text ∨
      ∃ name ∈ aliases text, ∃ inserted, becomes name inserted ∧ c ∈ inserted := by
  induction h with
  | plain plain =>
    rw [scan_plain plain]
    exact Or.inl (List.mem_map.2 ⟨c, mem, rfl⟩)
  | next plain isName replaced later ih =>
    rw [scan_plain_append plain isName]
    simp only [mem_aliases_plain_append plain isName]
    rcases List.mem_append.1 mem with mem | mem
    · exact Or.inl (List.mem_append_left _ (List.mem_map.2 ⟨c, mem, rfl⟩))
    rcases List.mem_append.1 mem with mem | mem
    · exact Or.inr ⟨_, Or.inl rfl, _, replaced, mem⟩
    rcases ih mem with outside | ⟨name, hname, inserted, replaced', hc⟩
    · exact Or.inl (List.mem_append_right _ (List.mem_cons_of_mem _ outside))
    · exact Or.inr ⟨name, Or.inr hname, inserted, replaced', hc⟩

end Substitutes

/-! ### The expansion of a text -/

section Expansion

variable {follow : (path written : String) → Expansion Value} {out : String}

/-- The text that is put in for an alias, if it can be followed. -/
def Inserts (follow : (path written : String) → Expansion Value) (name inserted : List Char) :
    Prop :=
  ∃ value, (follow (String.ofList name) (aliasText (String.ofList name))).result = .ok value ∧
    inserted = value.text.toList

theorem expandPieces_literals_eq_ok_iff {front : List Char} {pieces : List Piece} :
    (expandPieces follow (literals front ++ pieces)).result = .ok out ↔
      ∃ more, (expandPieces follow pieces).result = .ok more ∧
        out.toList = front ++ more.toList := by
  induction front generalizing out with
  | nil => simp [literals, String.toList_inj, eq_comm]
  | cons c front ih =>
    change (expandPieces follow (.literal c :: (literals front ++ pieces))).result = _ ↔ _
    rw [expandPieces, Traced.bind_eq_ok_iff]
    refine ⟨?_, ?_⟩
    · rintro ⟨tail, htail, hout⟩
      obtain rfl := Except.ok.inj hout
      obtain ⟨more, hmore, split⟩ := ih.1 htail
      exact ⟨more, hmore, by simp [split]⟩
    · rintro ⟨more, hmore, split⟩
      refine ⟨String.ofList (front ++ more.toList), ih.2 ⟨more, hmore, by simp⟩, ?_⟩
      rw [Traced.result_pure, Except.ok.injEq, ← String.toList_inj, split]
      simp

theorem expandPieces_alias_eq_ok_iff {name : List Char} {pieces : List Piece} :
    (expandPieces follow (.alias name :: pieces)).result = .ok out ↔
      ∃ inserted more, Inserts follow name inserted ∧
        (expandPieces follow pieces).result = .ok more ∧ out.toList = inserted ++ more.toList := by
  rw [expandPieces, Traced.bind_eq_ok_iff]
  refine ⟨?_, ?_⟩
  · rintro ⟨value, hvalue, hrest⟩
    obtain ⟨more, hmore, hout⟩ := Traced.bind_eq_ok_iff.1 hrest
    obtain rfl := Except.ok.inj hout
    exact ⟨value.text.toList, more, ⟨value, hvalue, rfl⟩, hmore, by simp⟩
  · rintro ⟨_, more, ⟨value, hvalue, rfl⟩, hmore, split⟩
    refine ⟨value, hvalue, Traced.bind_eq_ok_iff.2 ⟨more, hmore, ?_⟩⟩
    rw [Traced.result_pure, Except.ok.injEq, ← String.toList_inj, split]
    simp

theorem Substitutes.result_expandPieces {text result : List Char}
    (h : Substitutes (Inserts follow) text result) :
    (expandPieces follow (scan text)).result = .ok (String.ofList result) := by
  induction h with
  | @plain text plain =>
    rw [scan_plain plain, ← List.append_nil (literals text), expandPieces_literals_eq_ok_iff]
    exact ⟨"", rfl, by simp⟩
  | @next front name inserted rest out plain isName replaced _ ih =>
    rw [scan_plain_append plain isName, expandPieces_literals_eq_ok_iff]
    refine ⟨String.ofList (inserted ++ out), ?_, by simp only [String.toList_ofList]⟩
    refine expandPieces_alias_eq_ok_iff.2 ⟨inserted, String.ofList out, replaced, ih, ?_⟩
    simp only [String.toList_ofList]

/-- **The expansion of a text is a substitution.** -/
theorem expandPieces_scan_eq_ok_iff {text : List Char} :
    (expandPieces follow (scan text)).result = .ok out ↔
      Substitutes (Inserts follow) text out.toList := by
  refine ⟨fun ok => ?_, fun h => ?_⟩
  · induction hn : text.length using Nat.strongRecOn generalizing text out with
    | ind n ih =>
      by_cases plain : Plain text
      · rw [scan_plain plain, ← List.append_nil (literals text),
          expandPieces_literals_eq_ok_iff] at ok
        obtain ⟨more, hmore, split⟩ := ok
        obtain rfl := Except.ok.inj hmore
        rw [split, String.toList_empty, List.append_nil]
        exact .plain plain
      · obtain ⟨front, name, rest, plain', isName, rfl⟩ := exists_first_alias plain
        rw [scan_plain_append plain' isName, expandPieces_literals_eq_ok_iff] at ok
        obtain ⟨tail, htail, split⟩ := ok
        obtain ⟨inserted, more, replaced, hmore, split'⟩ := expandPieces_alias_eq_ok_iff.1 htail
        rw [split, split']
        refine .next plain' isName replaced (ih rest.length ?_ hmore rfl)
        simp only [← hn, List.length_append, Piece.source, List.length_cons]
        omega
  · rw [h.result_expandPieces, String.ofList_toList]

/-! ### Whole aliases -/

/-- A text **is an alias** of a path when it is the alias and nothing else; a line feed may follow
it. -/
def IsWholeAlias (text path : String) : Prop :=
  IsAliasName path ∧ (text = aliasText path ∨ text = aliasText path ++ "\n")

theorem wholeAlias?_eq_some_iff {text path : String} :
    wholeAlias? text.toList = some path.toList ↔ IsWholeAlias text path := by
  refine ⟨fun whole => ?_, ?_⟩
  · have isName : IsAliasName path :=
      ((mem_aliases_iff path.toList text.toList).1 (by simp [aliases_of_wholeAlias? whole])).1
    refine ⟨isName, ?_⟩
    have source := scan_source text.toList
    unfold wholeAlias? at whole
    split at whole
    · next name hscan =>
      obtain rfl := Option.some.inj whole
      rw [hscan] at source
      exact Or.inl (by rw [← String.toList_inj, toList_aliasText, ← source]; simp)
    · next name hscan =>
      obtain rfl := Option.some.inj whole
      rw [hscan] at source
      refine Or.inr ?_
      rw [← String.toList_inj, String.toList_append, toList_aliasText, ← source]
      simp [Piece.source]
    · cases whole
  · rintro ⟨isName, rfl | rfl⟩
    · exact wholeAlias?_aliasText isName
    · have hscan := scan_plain_append (plain_of_not_mem List.not_mem_nil) isName ['\n']
      have lineFeed : scan ['\n'] = literals ['\n'] := scan_plain (plain_of_not_mem (by decide))
      rw [lineFeed, List.nil_append] at hscan
      have read : (aliasText path ++ "\n").toList = (Piece.alias path.toList).source ++ ['\n'] := by
        rw [String.toList_append, toList_aliasText]
        rfl
      rw [wholeAlias?, read, hscan]
      rfl

end Expansion

end Alias

end DesignTokens
