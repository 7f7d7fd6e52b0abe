/-!
# Values

The value of a token is any JSON value. Integers are kept apart from doubles, since `1` and
`1.0` are both written without a point but only the integer is exact at every size, and the
fields of an object keep the order in which they were first written.

* `Value` and its decidable equality.
* `Value.field?` looks a key up among an object's fields.
* `Value.insertField` adds a field: a repeated key keeps its place and takes the new value.
-/

namespace DesignTokens

/-- A JSON value. -/
inductive Value where
  | null
  | bool (b : Bool)
  | int (n : Int)
  | float (x : Float)
  | str (text : String)
  | list (items : List Value)
  | object (fields : List (String × Value))
deriving Inhabited, Repr

/-- The fields of an object, in order. -/
abbrev Fields := List (String × Value)

namespace Value

mutual

/-- Equality of values; doubles are equal when they are the same double. -/
def decEq : (a b : Value) → Decidable (a = b)
  | .null, .null => isTrue rfl
  | .bool a, .bool b => decidable_of_iff (a = b) (by simp)
  | .int a, .int b => decidable_of_iff (a = b) (by simp)
  | .float a, .float b => decidable_of_iff (a = b) (by simp)
  | .str a, .str b => decidable_of_iff (a = b) (by simp)
  | .list a, .list b =>
    match decEqItems a b with
    | isTrue h => isTrue (h ▸ rfl)
    | isFalse h => isFalse fun e => h (Value.list.inj e)
  | .object a, .object b =>
    match decEqFields a b with
    | isTrue h => isTrue (h ▸ rfl)
    | isFalse h => isFalse fun e => h (Value.object.inj e)
  | .null, .bool _ | .null, .int _ | .null, .float _ | .null, .str _ | .null, .list _
  | .null, .object _ | .bool _, .null | .bool _, .int _ | .bool _, .float _ | .bool _, .str _
  | .bool _, .list _ | .bool _, .object _ | .int _, .null | .int _, .bool _ | .int _, .float _
  | .int _, .str _ | .int _, .list _ | .int _, .object _ | .float _, .null | .float _, .bool _
  | .float _, .int _ | .float _, .str _ | .float _, .list _ | .float _, .object _
  | .str _, .null | .str _, .bool _ | .str _, .int _ | .str _, .float _ | .str _, .list _
  | .str _, .object _ | .list _, .null | .list _, .bool _ | .list _, .int _ | .list _, .float _
  | .list _, .str _ | .list _, .object _ | .object _, .null | .object _, .bool _
  | .object _, .int _ | .object _, .float _ | .object _, .str _ | .object _, .list _ =>
    isFalse (by simp)

/-- Equality of lists of values. -/
def decEqItems : (a b : List Value) → Decidable (a = b)
  | [], [] => isTrue rfl
  | [], _ :: _ | _ :: _, [] => isFalse (by simp)
  | v :: a, w :: b =>
    match decEq v w, decEqItems a b with
    | isTrue h, isTrue h' => isTrue (by rw [h, h'])
    | isFalse h, _ => isFalse fun e => h (List.cons.inj e).1
    | _, isFalse h => isFalse fun e => h (List.cons.inj e).2

/-- Equality of the fields of objects, in order. -/
def decEqFields : (a b : Fields) → Decidable (a = b)
  | [], [] => isTrue rfl
  | [], _ :: _ | _ :: _, [] => isFalse (by simp)
  | (k, v) :: a, (l, w) :: b =>
    if hk : k = l then
      match decEq v w, decEqFields a b with
      | isTrue h, isTrue h' => isTrue (by rw [hk, h, h'])
      | isFalse h, _ => isFalse fun e => h (Prod.mk.inj (List.cons.inj e).1).2
      | _, isFalse h => isFalse fun e => h (List.cons.inj e).2
    else isFalse fun e => hk (Prod.mk.inj (List.cons.inj e).1).1

end

instance : DecidableEq Value := decEq

/-- The value of a key; keys of a read object are distinct. -/
def field? (fields : Fields) (key : String) : Option Value :=
  fields.lookup key

/-- Whether a key is present, whatever its value. -/
def hasField (fields : Fields) (key : String) : Bool :=
  fields.any fun field => field.1 == key

/-- Adds a field at the end, or gives a key that is present its new value. -/
def insertField (key : String) (value : Value) : Fields → Fields
  | [] => [(key, value)]
  | (k, v) :: rest => if k = key then (k, value) :: rest else (k, v) :: insertField key value rest

/-- The fields as they are kept when pairs are written one after the other. -/
def fieldsOfPairs (pairs : List (String × Value)) : Fields :=
  pairs.foldl (fun fields pair => insertField pair.1 pair.2 fields) []

@[simp] theorem insertField_keys_of_mem {key : String} {value : Value} {fields : Fields}
    (h : key ∈ fields.map Prod.fst) :
    (insertField key value fields).map Prod.fst = fields.map Prod.fst := by
  induction fields with
  | nil => simp at h
  | cons field rest ih =>
    obtain ⟨k, v⟩ := field
    by_cases hk : k = key
    · simp [insertField, hk]
    · have inRest : key ∈ rest.map Prod.fst := by
        rcases List.mem_cons.1 h with rfl | inRest
        · exact absurd rfl hk
        · exact inRest
      simp [insertField, hk, ih inRest]

/-- The value just written is the value found. -/
@[simp] theorem field?_insertField_self (key : String) (value : Value) (fields : Fields) :
    field? (insertField key value fields) key = some value := by
  induction fields with
  | nil => simp [insertField, field?]
  | cons field rest ih =>
    obtain ⟨k, v⟩ := field
    by_cases hk : k = key
    · simp [insertField, hk, field?]
    -- the look-up passes this field, as the insertion did
    · have other : (key == k) = false := by simpa using fun e => hk e.symm
      simpa [insertField, hk, field?, List.lookup_cons, other] using ih

end Value

end DesignTokens
