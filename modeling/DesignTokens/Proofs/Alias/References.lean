import DesignTokens.Proofs.Alias.Writing
import DesignTokens.Proofs.Traced

/-!
# The references of a value

Expanding a value follows its aliases one after the other, the fields of an object in order and
the aliases of a text from left to right. The list of these places is `Value.references`, and what
an expansion records and whether it fails is decided by it alone:

* `effect_expandWith` — the effect of expanding a value is that of following its references in
  order (`followAll`).
* `expandWith_eq_error_iff` — an expansion fails with the error of the first reference that fails.
* `result_expandWith_congr` — two ways of following aliases that agree on the references of a
  value expand it to the same result.
* `exists_reference_iff` — the paths of the references are the paths that the value writes.

A place carries the text that stands there beside the path, because a missing path keeps it: a
text that is an alias and nothing else may have a line feed after the closing brace.
-/

namespace DesignTokens

/-- A place where an alias stands: the path that it names, and how it is written. -/
structure Reference where
  path : String
  written : String
deriving DecidableEq, Repr

namespace Alias

/-- The aliases among pieces. -/
def pieceReferences (pieces : List Piece) : List Reference :=
  (pieces.filterMap Piece.alias?).map fun name =>
    ⟨String.ofList name, aliasText (String.ofList name)⟩

/-- The aliases of a text; one that makes up the whole text is written as that text. -/
def textReferences (text : String) : List Reference :=
  match wholeAlias? text.toList with
  | some name => [⟨String.ofList name, text⟩]
  | none => pieceReferences (scan text.toList)

end Alias

namespace Value

mutual

/-- The places where a value writes an alias, in the order in which they are expanded. -/
def references : Value → List Reference
  | .str text => Alias.textReferences text
  | .object fields => fieldReferences fields
  | .null | .bool _ | .int _ | .float _ | .list _ => []

/-- The places where the fields of an object write an alias. -/
def fieldReferences : Fields → List Reference
  | [] => []
  | (_, value) :: rest => references value ++ fieldReferences rest

end

theorem fieldReferences_eq_flatMap (fields : Fields) :
    fieldReferences fields = fields.flatMap fun field => references field.2 := by
  induction fields with
  | nil => rfl
  | cons field rest ih => simp [fieldReferences, ih]

/-- **Induction over the fields of objects.** What is shown of an object may be used of the values
of its fields; the items of a list are not entered. -/
@[elab_as_elim]
theorem fieldInduction {motive : Value → Prop} (null : motive .null)
    (bool : ∀ b, motive (.bool b)) (int : ∀ n, motive (.int n)) (float : ∀ x, motive (.float x))
    (str : ∀ text, motive (.str text)) (list : ∀ items, motive (.list items))
    (object : ∀ fields : Fields, (∀ field ∈ fields, motive field.2) → motive (.object fields))
    (value : Value) : motive value := by
  refine @Value.rec motive (fun _ => True) (fun fields => ∀ field ∈ fields, motive field.2)
    (fun field => motive field.2) null bool int float str (fun items _ => list items) object
    trivial (fun _ _ _ _ => trivial) ?_ ?_ ?_ value
  · simp
  · intro field rest hfield hrest f hf
    rcases List.mem_cons.1 hf with rfl | hf
    · exact hfield
    · exact hrest f hf
  · exact fun _ _ h => h

end Value

namespace Alias

variable {follow follow' : (path written : String) → Expansion Value}

/-- Follows references one after the other, for the effect alone. -/
def followAll (follow : (path written : String) → Expansion Value) :
    List Reference → Expansion Unit
  | [] => pure ()
  | r :: rest => do
    let _ ← follow r.path r.written
    followAll follow rest

theorem followAll_append (first second : List Reference) :
    followAll follow (first ++ second) =
      followAll follow first >>= fun _ => followAll follow second := by
  induction first with
  | nil => rw [followAll, Traced.pure_bind, List.nil_append]
  | cons r rest ih => rw [List.cons_append, followAll, followAll, ih, bind_assoc]

/-! ### The effect of an expansion -/

theorem effect_expandPieces (pieces : List Piece) :
    (expandPieces follow pieces).effect = followAll follow (pieceReferences pieces) := by
  induction pieces with
  | nil => rfl
  | cons piece rest ih =>
    cases piece with
    | literal c =>
      rw [expandPieces, Traced.effect_bind_pure, ih]
      rfl
    | «alias» name =>
      rw [expandPieces, Traced.effect_bind]
      simp only [Traced.effect_bind_pure, ih]
      rfl

theorem effect_expandText (text : String) :
    (expandText follow text).effect = followAll follow (textReferences text) := by
  unfold expandText textReferences
  cases wholeAlias? text.toList with
  | some name => rfl
  | none => exact (Traced.effect_bind_pure _ _).trans (effect_expandPieces _)

theorem effect_expandFields {fields : Fields}
    (h : ∀ field ∈ fields,
      (expandWith follow field.2).effect = followAll follow field.2.references) :
    (expandFields follow fields).effect = followAll follow (Value.fieldReferences fields) := by
  induction fields with
  | nil => rfl
  | cons field rest ih =>
    obtain ⟨key, value⟩ := field
    have hvalue := h (key, value) List.mem_cons_self
    have hrest := ih fun field hfield => h field (List.mem_cons_of_mem _ hfield)
    rw [expandFields, Traced.effect_bind]
    simp only [Traced.effect_bind_pure, hrest]
    rw [← Traced.effect_bind_const, hvalue, Value.fieldReferences, followAll_append]

/-- **Expanding a value follows its references in order**, as far as records and failures go. -/
theorem effect_expandWith (value : Value) :
    (expandWith follow value).effect = followAll follow value.references := by
  induction value using Value.fieldInduction with
  | str text => exact effect_expandText text
  | object fields ih =>
    rw [expandWith, Traced.effect_bind_pure, effect_expandFields ih]
    rfl
  | null | bool | int | float | list => rfl

/-- The records of an expansion are those of following its references. -/
theorem log_expandWith (value : Value) :
    (expandWith follow value).log = (followAll follow value.references).log := by
  rw [← Traced.log_effect, effect_expandWith]

/-- Following references fails with the error of the first one that fails. -/
theorem followAll_eq_error_iff {references : List Reference} {e : CyclicReference} :
    (followAll follow references).result = .error e ↔
      ∃ front r back, references = front ++ r :: back ∧
        (∀ s ∈ front, ∃ w, (follow s.path s.written).result = .ok w) ∧
        (follow r.path r.written).result = .error e := by
  induction references with
  | nil => simp [followAll]
  | cons s rest ih =>
    rw [followAll, Traced.bind_eq_error_iff, ih]
    refine ⟨?_, ?_⟩
    · rintro (hs | ⟨w, hs, front, r, back, rfl, hfront, hr⟩)
      · exact ⟨[], s, rest, rfl, by simp, hs⟩
      · refine ⟨s :: front, r, back, rfl, ?_, hr⟩
        intro s' hs'
        rcases List.mem_cons.1 hs' with rfl | hs'
        · exact ⟨w, hs⟩
        · exact hfront s' hs'
    · rintro ⟨front, r, back, hsplit, hfront, hr⟩
      cases front with
      | nil =>
        obtain ⟨rfl, rfl⟩ := List.cons.inj hsplit
        exact Or.inl hr
      | cons s' front =>
        obtain ⟨rfl, rfl⟩ := List.cons.inj hsplit
        obtain ⟨w, hw⟩ := hfront s List.mem_cons_self
        exact Or.inr ⟨w, hw, front, r, back, rfl,
          fun s' hs' => hfront s' (List.mem_cons_of_mem _ hs'), hr⟩

/-- **An expansion fails with the first reference that fails.** -/
theorem expandWith_eq_error_iff {value : Value} {e : CyclicReference} :
    (expandWith follow value).result = .error e ↔
      ∃ front r back, value.references = front ++ r :: back ∧
        (∀ s ∈ front, ∃ w, (follow s.path s.written).result = .ok w) ∧
        (follow r.path r.written).result = .error e := by
  rw [← Traced.effect_eq_error_iff, effect_expandWith, followAll_eq_error_iff]

theorem followAll_ok_iff {references : List Reference} :
    (∃ u, (followAll follow references).result = .ok u) ↔
      ∀ r ∈ references, ∃ w, (follow r.path r.written).result = .ok w := by
  induction references with
  | nil => simp [followAll]
  | cons r rest ih =>
    rw [List.forall_mem_cons, ← ih, followAll]
    simp only [Traced.bind_eq_ok_iff]
    refine ⟨?_, ?_⟩
    · rintro ⟨u, w, hw, hu⟩
      exact ⟨⟨w, hw⟩, u, hu⟩
    · rintro ⟨⟨w, hw⟩, u, hu⟩
      exact ⟨u, w, hw, hu⟩

/-- An expansion succeeds when every reference can be followed. -/
theorem expandWith_ok_iff {value : Value} :
    (∃ w, (expandWith follow value).result = .ok w) ↔
      ∀ r ∈ value.references, ∃ w, (follow r.path r.written).result = .ok w := by
  rw [← followAll_ok_iff, ← effect_expandWith, Traced.effect_ok_iff]

/-- An expansion fails when some reference cannot be followed. -/
theorem expandWith_error_iff {value : Value} :
    (∃ e, (expandWith follow value).result = .error e) ↔
      ∃ r ∈ value.references, ∃ e, (follow r.path r.written).result = .error e := by
  simp only [Traced.exists_error_iff]
  rw [expandWith_ok_iff]
  simp only [Classical.not_forall, exists_prop]

/-! ### Two ways of following -/

theorem result_expandPieces_congr {pieces : List Piece}
    (h : ∀ r ∈ pieceReferences pieces,
      (follow r.path r.written).result = (follow' r.path r.written).result) :
    (expandPieces follow pieces).result = (expandPieces follow' pieces).result := by
  induction pieces with
  | nil => rfl
  | cons piece rest ih =>
    cases piece with
    | literal c => exact Traced.result_bind_congr (ih h) fun _ _ => rfl
    | «alias» name =>
      have hrest := ih fun r hr => h r (List.mem_cons_of_mem _ hr)
      exact Traced.result_bind_congr (h _ List.mem_cons_self) fun _ _ =>
        Traced.result_bind_congr hrest fun _ _ => rfl

theorem result_expandText_congr {text : String}
    (h : ∀ r ∈ textReferences text,
      (follow r.path r.written).result = (follow' r.path r.written).result) :
    (expandText follow text).result = (expandText follow' text).result := by
  unfold textReferences at h
  unfold expandText
  cases hwhole : wholeAlias? text.toList with
  | some name =>
    rw [hwhole] at h
    exact h _ (List.mem_singleton.2 rfl)
  | none =>
    rw [hwhole] at h
    exact Traced.result_bind_congr (result_expandPieces_congr h) fun _ _ => rfl

theorem result_expandFields_congr {fields : Fields}
    (h : ∀ field ∈ fields,
      (expandWith follow field.2).result = (expandWith follow' field.2).result) :
    (expandFields follow fields).result = (expandFields follow' fields).result := by
  induction fields with
  | nil => rfl
  | cons field rest ih =>
    have hrest := ih fun field hfield => h field (List.mem_cons_of_mem _ hfield)
    exact Traced.result_bind_congr (h field List.mem_cons_self) fun _ _ =>
      Traced.result_bind_congr hrest fun _ _ => rfl

/-- **An expansion depends on what its references give and on nothing else.** -/
theorem result_expandWith_congr {value : Value}
    (h : ∀ r ∈ value.references,
      (follow r.path r.written).result = (follow' r.path r.written).result) :
    (expandWith follow value).result = (expandWith follow' value).result := by
  induction value using Value.fieldInduction with
  | str text => exact result_expandText_congr h
  | object fields ih =>
    have hfields := result_expandFields_congr fun field hfield => ih field hfield fun r hr =>
      h r (by
        rw [Value.references, Value.fieldReferences_eq_flatMap]
        exact List.mem_flatMap.2 ⟨field, hfield, hr⟩)
    exact Traced.result_bind_congr hfields fun _ _ => rfl
  | null | bool | int | float | list => rfl

/-! ### References and what is written -/

/-- The references of a text are the names that it holds between braces. -/
theorem exists_textReference_iff {text path : String} :
    (∃ r ∈ textReferences text, r.path = path) ↔ path.toList ∈ aliases text.toList := by
  unfold textReferences
  cases h : wholeAlias? text.toList with
  | some name =>
    rw [aliases_of_wholeAlias? h]
    simp only [List.mem_singleton, exists_eq_left]
    refine ⟨?_, ?_⟩
    · rintro rfl
      simp
    · intro hname
      rw [← hname, String.ofList_toList]
  | none =>
    refine ⟨?_, ?_⟩
    · rintro ⟨r, hr, rfl⟩
      obtain ⟨name, hname, rfl⟩ := List.mem_map.1 hr
      simpa [aliases] using hname
    · exact fun hpath => ⟨_, List.mem_map.2 ⟨_, hpath, rfl⟩, String.ofList_toList⟩

end Alias

/-- **The paths of a value's references are the paths that it writes.** -/
theorem Value.exists_reference_iff {value : Value} {path : String} :
    (∃ r ∈ value.references, r.path = path) ↔ value.Writes path := by
  induction value using Value.fieldInduction with
  | str text =>
    rw [Value.references, Alias.exists_textReference_iff, Alias.mem_aliases_iff,
      Value.writes_str_iff, Alias.toList_aliasText]
    rfl
  | object fields ih =>
    rw [Value.references, Value.fieldReferences_eq_flatMap, Value.writes_object_iff]
    refine ⟨?_, ?_⟩
    · rintro ⟨r, hr, hpath⟩
      obtain ⟨field, hfield, hr⟩ := List.mem_flatMap.1 hr
      exact ⟨field, hfield, (ih field hfield).1 ⟨r, hr, hpath⟩⟩
    · rintro ⟨field, hfield, hwrites⟩
      obtain ⟨r, hr, hpath⟩ := (ih field hfield).2 hwrites
      exact ⟨r, List.mem_flatMap.2 ⟨field, hfield, hr⟩, hpath⟩
  | null | bool | int | float | list =>
    refine iff_of_false (by simp [Value.references]) ?_
    rintro ⟨⟩

end DesignTokens
