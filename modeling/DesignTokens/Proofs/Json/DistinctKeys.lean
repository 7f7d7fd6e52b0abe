import DesignTokens.Json.Reader
import DesignTokens.Proofs.Source.Ways
import DesignTokens.Source.TokenFile

/-!
# Keys of a value that is read

A text may write a key of an object twice. The object that is read from it has the key once, since
the later field takes the place of the earlier one.

* `Value.nodup_fieldsOfPairs` — no key comes twice among the fields that are kept.
* `Json.distinctKeys_of_read`, `distinctKeys_of_readTokenFile` — nor in any object of a tree that is
  read.
-/

namespace DesignTokens

namespace Value

/-! ### The fields that are kept -/

theorem map_fst_insertField_of_not_mem {key : String} {value : Value} {fields : Fields}
    (new : key ∉ fields.map Prod.fst) :
    (insertField key value fields).map Prod.fst = fields.map Prod.fst ++ [key] := by
  induction fields with
  | nil => rfl
  | cons field rest ih =>
    rw [List.map_cons, List.mem_cons, not_or] at new
    rw [insertField, if_neg (Ne.symm new.1), List.map_cons, ih new.2]
    rfl

theorem nodup_insertField {key : String} {value : Value} {fields : Fields}
    (nodup : (fields.map Prod.fst).Nodup) :
    ((insertField key value fields).map Prod.fst).Nodup := by
  by_cases old : key ∈ fields.map Prod.fst
  · rw [insertField_keys_of_mem old]
    exact nodup
  · rw [map_fst_insertField_of_not_mem old, List.nodup_append]
    refine ⟨nodup, List.pairwise_singleton _ key, ?_⟩
    rintro k hk _ hkey rfl
    exact old (List.mem_singleton.1 hkey ▸ hk)

theorem mem_insertField {key : String} {value : Value} {fields : Fields} {field : String × Value}
    (h : field ∈ insertField key value fields) : field = (key, value) ∨ field ∈ fields := by
  induction fields with
  | nil => exact .inl (List.mem_singleton.1 h)
  | cons first rest ih =>
    rw [insertField] at h
    split at h
    next same =>
      rcases List.mem_cons.1 h with rfl | h
      · exact .inl (by rw [same])
      · exact .inr (List.mem_cons_of_mem _ h)
    next =>
      rcases List.mem_cons.1 h with rfl | h
      · exact .inr List.mem_cons_self
      · exact (ih h).imp_right (List.mem_cons_of_mem _)

theorem fieldsOfPairs_concat (pairs : List (String × Value)) (pair : String × Value) :
    fieldsOfPairs (pairs ++ [pair]) = insertField pair.1 pair.2 (fieldsOfPairs pairs) := by
  rw [fieldsOfPairs, List.foldl_concat]
  rfl

/-- **A key that is written twice is kept once.** -/
theorem nodup_fieldsOfPairs (pairs : List (String × Value)) :
    ((fieldsOfPairs pairs).map Prod.fst).Nodup := by
  induction pairs using List.reverseRecOn with
  | nil => exact List.nodup_nil
  | append_singleton pairs pair ih =>
    rw [fieldsOfPairs_concat]
    exact nodup_insertField ih

theorem mem_of_mem_fieldsOfPairs {pairs : List (String × Value)} {field : String × Value}
    (h : field ∈ fieldsOfPairs pairs) : field ∈ pairs := by
  induction pairs using List.reverseRecOn with
  | nil => cases h
  | append_singleton pairs pair ih =>
    rw [fieldsOfPairs_concat] at h
    rw [List.mem_append, List.mem_singleton]
    exact (mem_insertField h).symm.imp_left ih

end Value

namespace Json

/-! ### How objects are read -/

/-- A sequence that returns has a first part that returns. -/
theorem exists_of_bind_eq_ok {ε α β : Type} {x : Except ε α} {f : α → Except ε β} {b : β}
    (h : (x >>= f) = .ok b) : ∃ a, x = .ok a ∧ f a = .ok b := by
  cases x with
  | error e => cases h
  | ok a => exact ⟨a, rfl, h⟩

theorem readWord?_ne_object {text : List Char} {tree : Fields} {rest : Shorter text} :
    readWord? text ≠ some (.object tree, rest) := by
  simp [readWord?, readWord?.word]

theorem readNumber?_ne_object {text : List Char} {tree : Fields} {rest : Shorter text} :
    readNumber? text ≠ some (.object tree, rest) := by
  intro h
  unfold readNumber? at h
  simp only at h
  split at h
  next => cases h
  next =>
    have same := congrArg Prod.fst (Option.some.inj h)
    simp only at same
    split at same <;> cases same

/-- An object that is read keeps the pairs that are read further on in the text. -/
theorem exists_readFields_of_readValue {text : List Char} {tree : Fields} {rest : Shorter text}
    (h : readValue text = .ok (.object tree, rest)) :
    tree = [] ∨ ∃ start pairs after, start.length < text.length ∧
      readFields start = .ok (pairs, after) ∧ tree = Value.fieldsOfPairs pairs := by
  unfold readValue at h
  -- a string, an object, a list, and then words and numbers
  split at h
  next text =>
    obtain ⟨_, -, h⟩ := exists_of_bind_eq_ok h
    cases h
  next text =>
    have shorter := length_skipBlanks_le text
    simp only at h
    split at h
    next =>
      cases h
      exact .inl rfl
    next =>
      obtain ⟨⟨pairs, after⟩, hpairs, h⟩ := exists_of_bind_eq_ok h
      cases h
      exact .inr ⟨_, pairs, after, by simpa using Nat.lt_succ_of_le shorter, hpairs, rfl⟩
  next text =>
    simp only at h
    split at h
    next => cases h
    next =>
      obtain ⟨_, -, h⟩ := exists_of_bind_eq_ok h
      cases h
  next =>
    split at h
    next found hfound =>
      cases h
      cases hword : readWord? text with
      | some word =>
        rw [hword] at hfound
        exact absurd (hword.trans hfound) readWord?_ne_object
      | none =>
        rw [hword] at hfound
        exact absurd hfound readNumber?_ne_object
    next => cases h

/-- Pairs that are read are one pair and those after it, all read further on in the text. -/
theorem exists_readValue_of_readFields {text : List Char} {pairs : List (String × Value)}
    {rest : Shorter text} (h : readFields text = .ok (pairs, rest)) :
    ∃ key value more start after, pairs = (key, value) :: more ∧ start.length < text.length ∧
      readValue start = .ok (value, after) ∧
      (more = [] ∨
        ∃ next after, next.length < text.length ∧ readFields next = .ok (more, after)) := by
  unfold readFields at h
  split at h
  next text =>
    obtain ⟨⟨key, afterKey⟩, -, h⟩ := exists_of_bind_eq_ok h
    simp only at h
    split at h
    next beforeValue hcolon =>
      have shorterKey := length_skipBlanks_le afterKey.1
      have shorterValue := length_skipBlanks_le beforeValue
      rw [hcolon, List.length_cons] at shorterKey
      have roomValue : (skipBlanks beforeValue).length < text.length := by
        have := afterKey.2
        omega
      obtain ⟨⟨value, afterValue⟩, hvalue, h⟩ := exists_of_bind_eq_ok h
      have first : (skipBlanks beforeValue).length < ('"' :: text).length :=
        Nat.lt_succ_of_lt roomValue
      simp only at h
      -- the value is the last one, or a comma follows and further pairs
      split at h
      next =>
        cases h
        exact ⟨_, value, [], _, afterValue, rfl, first, hvalue, .inl rfl⟩
      next beforeMore hcomma =>
        have shorterRest := length_skipBlanks_le afterValue.1
        have shorterMore := length_skipBlanks_le beforeMore
        rw [hcomma, List.length_cons] at shorterRest
        have roomMore : (skipBlanks beforeMore).length < text.length := by
          have := afterValue.2
          omega
        obtain ⟨⟨more, afterMore⟩, hmore, h⟩ := exists_of_bind_eq_ok h
        cases h
        exact ⟨_, value, more, _, afterValue, rfl, first, hvalue,
          .inr ⟨_, afterMore, Nat.lt_succ_of_lt roomMore, hmore⟩⟩
      next => cases h
    next => cases h
  next => cases h

/-- No object that is read repeats a key, nor does one among pairs that are read. -/
theorem distinctKeys_of_readValue (text : List Char) :
    (∀ tree rest, readValue text = .ok (.object tree, rest) → DistinctKeys tree) ∧
    ∀ pairs rest, readFields text = .ok (pairs, rest) →
      ∀ key node, (key, .object node) ∈ pairs → DistinctKeys node := by
  -- the two readers call each other, always on a shorter text
  induction hn : text.length using Nat.strongRecOn generalizing text with
  | ind n ih =>
    subst hn
    constructor
    · intro tree rest h
      rcases exists_readFields_of_readValue h with rfl | ⟨start, pairs, after, shorter, hpairs, rfl⟩
      · decide
      · have each := (ih _ shorter start rfl).2 pairs after hpairs
        exact distinctKeys_iff.2 ⟨Value.nodup_fieldsOfPairs pairs, fun key node entry =>
          each key node (Value.mem_of_mem_fieldsOfPairs entry)⟩
    · intro pairs rest h key node entry
      obtain ⟨_, value, more, start, after, rfl, shorter, hvalue, hmore⟩ :=
        exists_readValue_of_readFields h
      rcases List.mem_cons.1 entry with same | entry
      · cases same
        exact (ih _ shorter start rfl).1 node after hvalue
      · rcases hmore with rfl | ⟨next, after', shorter', hmore⟩
        · cases entry
        · exact (ih _ shorter' next rfl).2 more after' hmore key node entry

/-- **No object of a tree that is read has a key twice.** -/
theorem distinctKeys_of_read {text : List Char} {tree : Fields}
    (h : read text = .ok (.object tree)) : DistinctKeys tree := by
  unfold read at h
  split at h
  next value hvalue =>
    cases h
    unfold readWhole at hvalue
    split at hvalue
    next => cases hvalue
    next =>
      obtain ⟨⟨value, rest⟩, hread, h⟩ := exists_of_bind_eq_ok hvalue
      simp only at h
      split at h
      next =>
        cases h
        exact (distinctKeys_of_readValue _).1 tree rest hread
      next => cases h
  next => cases h

end Json

theorem distinctKeys_of_readTokenFile {t : FileTree} {file : Location} {tree : Fields}
    (h : readTokenFile t file = .ok tree) : DistinctKeys tree := by
  unfold readTokenFile at h
  split at h
  next => cases h
  next =>
    split at h
    next => cases h
    next text _ =>
      unfold readTokenText at h
      split at h
      next => cases h
      next fields hread =>
        cases h
        exact Json.distinctKeys_of_read hread
      next => cases h

end DesignTokens
