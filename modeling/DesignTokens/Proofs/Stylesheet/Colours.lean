import DesignTokens.Proofs.Stylesheet.Cascade
import DesignTokens.Proofs.Stylesheet.Placement

/-!
# Every colour is accounted for

Whether a colour is flagged is decided by one test of its text, and whether it is converted by
another one. A colour that passed both or failed both would be lost without a word, so what becomes
of a token is written into an entry as a whole: its declaration, the conversion that goes with it
and the warning about it. A colour has either a conversion or a flag and a warning, and anything
else has none of them (`Entry.Accounted`).

The emission and its warnings are then read off the entries of all tokens, in one order: section by
section, and within a section as its category orders the tokens. The declarations of a bucket, the
conversions and the warnings stand in this order, each of them as a part of it.

* `Token.accounted_entry` — the entry of every token accounts for it.
* `filter_emissionOrder_label` — the tokens of a section stand together, in the order of emission.
* `Emission.RecordedBy` — what an emission and warnings have to do with the entries of tokens.
* `Emission.exists_recordedBy` — the emission of tokens is recorded by entries of theirs.
-/

namespace DesignTokens

/-! ### Entries -/

/-- What becomes of a token: where it is declared and as what, its conversion, and the warning
about it. -/
structure Entry where
  token : Token
  placement : Placement
  derivation? : Option Derivation
  warning? : Option Diagnostic

/-- An entry **accounts for** its token. A colour is flagged, has no conversion and is warned of, or
it is not flagged and has its conversion. What is not a colour has none of this. -/
inductive Entry.Accounted : Entry → Prop
  | other {t : Token} {p : Placement} (type : t.effectiveType ≠ .color)
      (unflagged : p.declaration.unparseable = false) :
      Accounted ⟨t, p, none, none⟩
  | flagged {t : Token} {p : Placement} (type : t.effectiveType = .color)
      (flagged : p.declaration.unparseable = true)
      (unconverted : oklchText? p.declaration.value = none) :
      Accounted ⟨t, p, none, some (.unparseableColor p.declaration.name p.declaration.value)⟩
  | converted {t : Token} {p : Placement} {text : String} (type : t.effectiveType = .color)
      (unflagged : p.declaration.unparseable = false)
      (conversion : oklchText? p.declaration.value = some text) :
      Accounted ⟨t, p, some ⟨p.declaration.name, p.declaration.value, text, p.bucket⟩, none⟩

namespace Token

/-- The entry of a token. -/
def entry (t : Token) : Entry :=
  ⟨t, t.placement, t.derivation?, t.colorWarning?⟩

variable {t : Token}

/-- A colour is flagged exactly if it is not converted. -/
theorem isUnparseable_iff (color : t.effectiveType = .color) :
    t.isUnparseable ↔ ¬ t.IsConverted := by
  simp [isUnparseable, IsConverted, color]

/-- The text of a colour that is not converted has no conversion. -/
theorem oklchText?_of_not_isConverted (color : t.effectiveType = .color)
    (unconverted : ¬ t.IsConverted) : oklchText? t.valueText = none := by
  have none : (oklchOfText? t.valueText.toList).isSome = false := by
    rw [isSome_oklchOfText?]
    exact Bool.eq_false_iff.2 fun isColor => unconverted ⟨color, isColor⟩
  rw [oklchText?, Option.map_eq_none_iff]
  exact Option.not_isSome_iff_eq_none.1 (Bool.eq_false_iff.1 none)

/-- **The entry of a token accounts for it.** -/
theorem accounted_entry (t : Token) : t.entry.Accounted := by
  unfold entry
  by_cases color : t.effectiveType = .color
  · by_cases converted : t.IsConverted
    · obtain ⟨text, conversion, derived⟩ := derivation?_of_isConverted converted
      have unflagged : t.isUnparseable = false :=
        Bool.eq_false_iff.2 fun flagged => (isUnparseable_iff color).1 flagged converted
      rw [derived, colorWarning?, unflagged]
      exact .converted color unflagged conversion
    · have flagged : t.isUnparseable = true := (isUnparseable_iff color).2 converted
      rw [derivation?_of_not_isConverted converted, colorWarning?, if_pos flagged]
      exact .flagged color flagged (oklchText?_of_not_isConverted color converted)
  · have unflagged : t.isUnparseable = false := by simp [isUnparseable, color]
    have unconverted : ¬ t.IsConverted := fun converted => color converted.1
    rw [derivation?_of_not_isConverted unconverted, colorWarning?, unflagged]
    exact .other color unflagged

end Token

/-! ### The order of emission, by sections -/

/-- Of parts that are told apart by a label, the elements with the label of a part are the part. -/
theorem filter_flatMap_of_nodup {α κ : Type} {parts : List κ} {f : κ → List α}
    {label : κ → String} {labelOf : α → String} (nodup : (parts.map label).Nodup)
    (own : ∀ k ∈ parts, ∀ x ∈ f k, labelOf x = label k) {part : κ} (mem : part ∈ parts) :
    (parts.flatMap f).filter (fun x => labelOf x = label part) = f part := by
  induction parts with
  | nil => exact nomatch mem
  | cons k rest ih =>
    rw [List.map_cons, List.nodup_cons] at nodup
    obtain ⟨new, nodup⟩ := nodup
    rw [List.flatMap_cons, List.filter_append]
    rcases List.mem_cons.1 mem with rfl | later
    · -- the first part is the one, and no later part has its label
      have here : (f part).filter (fun x => labelOf x = label part) = f part :=
        List.filter_eq_self.2 fun x hx => decide_eq_true (own part mem x hx)
      have elsewhere : (rest.flatMap f).filter (fun x => labelOf x = label part) = [] := by
        rw [List.filter_eq_nil_iff]
        intro x hx same
        obtain ⟨k, hk, hxk⟩ := List.mem_flatMap.1 hx
        have label := (own k (List.mem_cons_of_mem _ hk) x hxk).symm.trans (of_decide_eq_true same)
        exact new (label ▸ List.mem_map_of_mem hk)
      rw [here, elsewhere, List.append_nil]
    · -- the first part has another label than the one further on
      have elsewhere : (f k).filter (fun x => labelOf x = label part) = [] := by
        rw [List.filter_eq_nil_iff]
        intro x hx same
        have label := (own k List.mem_cons_self x hx).symm.trans (of_decide_eq_true same)
        exact new (label ▸ List.mem_map_of_mem later)
      rw [elsewhere, List.nil_append]
      exact ih nodup (fun k hk => own k (List.mem_cons_of_mem _ hk)) later

theorem nodup_map_label_orderedGroups (tokens : List Token) :
    ((orderedGroups tokens).map fun group => group.1.label).Nodup := by
  have nodup := nodup_labels false tokens
  rwa [Emission.ofTokens, List.map_map] at nodup

/-- **The tokens of a section stand together** in the order of emission. -/
theorem filter_emissionOrder_label {tokens : List Token} {group : Category × List Token}
    (mem : group ∈ orderedGroups tokens) :
    (emissionOrder tokens).filter (fun t => t.sectionLabel = group.1.label) = group.2 :=
  filter_flatMap_of_nodup (nodup_map_label_orderedGroups tokens)
    (fun _ hgroup _ ht => sectionLabel_of_mem hgroup ht) mem

/-! ### The record of an emission -/

/-- Entries **record** an emission and its warnings. -/
structure Emission.RecordedBy (e : Emission) (warnings : List Diagnostic) (tokens : List Token)
    (entries : List Entry) : Prop where
  /-- every token has one entry -/
  once : (entries.map Entry.token).Perm tokens
  /-- the tokens stand section by section, each section in the order of its category -/
  order : entries.map Entry.token =
    (Category.groups tokens).flatMap fun group => group.1.order group.2
  /-- an entry holds the declaration that its token asks for -/
  placed : ∀ entry ∈ entries, entry.placement = entry.token.placement
  /-- and accounts for the token -/
  accounted : ∀ entry ∈ entries, entry.Accounted
  /-- the entries of a section stand together, and the sections as they are written -/
  sections : entries = e.sections.flatMap fun s =>
    entries.filter fun entry => entry.placement.label = s.label
  /-- the declarations of a section and a bucket are those of its entries, in their order -/
  declarations : ∀ s ∈ e.sections, ∀ b, s.declarations.get b =
    (entries.filter fun entry => entry.placement.label = s.label ∧ entry.placement.bucket = b).map
      fun entry => entry.placement.declaration
  /-- the conversions are those of the entries, in their order -/
  derivations : e.derivations = entries.filterMap Entry.derivation?
  /-- so are the warnings -/
  warnings : warnings = entries.filterMap Entry.warning?

/-- **Every colour is accounted for.** The emission of tokens with converted colours, and the
warnings about colours, are recorded by entries that account for every token. -/
theorem Emission.exists_recordedBy (tokens : List Token) :
    ∃ entries, (Emission.ofTokens true tokens).RecordedBy (colorWarnings true tokens) tokens
      entries := by
  -- the entries of a section are those of its tokens
  have inSection : ∀ group ∈ orderedGroups tokens,
      (((emissionOrder tokens).map Token.entry).filter
        fun entry => entry.placement.label = group.1.label) = group.2.map Token.entry := by
    intro group hgroup
    rw [List.filter_map]
    exact congrArg _ (filter_emissionOrder_label hgroup)
  refine ⟨(emissionOrder tokens).map Token.entry, ?_⟩
  constructor
  case once =>
    rw [List.map_map]
    change ((emissionOrder tokens).map id).Perm tokens
    rw [List.map_id]
    exact emissionOrder_perm tokens
  case order =>
    rw [List.map_map, emissionOrder, orderedGroups, List.flatMap_map]
    exact List.map_id _
  case placed =>
    intro entry mem
    obtain ⟨t, -, rfl⟩ := List.mem_map.1 mem
    rfl
  case accounted =>
    intro entry mem
    obtain ⟨t, -, rfl⟩ := List.mem_map.1 mem
    exact t.accounted_entry
  case sections =>
    rw [Emission.ofTokens, List.flatMap_map]
    conv_lhs => rw [emissionOrder, List.map_flatMap]
    exact List.flatMap_congr fun group hgroup => (inSection group hgroup).symm
  case declarations =>
    intro s hs b
    obtain ⟨group, hgroup, rfl⟩ := List.mem_map.1 hs
    -- among the entries of the section, those of the bucket
    have split : (((emissionOrder tokens).map Token.entry).filter fun entry =>
        entry.placement.label = group.1.label ∧ entry.placement.bucket = b) =
          (group.2.map Token.entry).filter fun entry => entry.placement.bucket = b := by
      rw [← inSection group hgroup, List.filter_filter]
      simp only [Bool.decide_and, Bool.and_comm]
    rw [LabelledSection.ofTokens, ByBucket.get_of, split, List.filter_map, List.map_map]
    refine List.map_congr_left fun t ht => ?_
    -- the section is the one that the token asks for
    have label := sectionLabel_of_mem hgroup (List.mem_of_mem_filter ht)
    change t.declare group.1.label = t.declare t.sectionLabel
    rw [label]
  case derivations =>
    rw [List.filterMap_map]
    rfl
  case warnings =>
    rw [List.filterMap_map]
    rfl

end DesignTokens
