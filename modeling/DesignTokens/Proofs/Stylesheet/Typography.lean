import DesignTokens.Proofs.Stylesheet.Sections
import Mathlib.Data.List.FinRange

/-!
# The order of typography

Where each token of the typography section goes, told by its place among the tokens and not by what
it looks like, so that equal tokens are told apart. Families come first and weights next. Then comes
one style after the other, in the order of their first sizes: its first size, its first line height
and its first weight. All other sizes, line heights and weights follow, and at the end what plays no
part in typography (`interleaved`).

The tokens are put into this order in one scan, which keeps the roles that it has met. So the one
thing to find out is what the scan leaves over (`leftoverTokens_eq_map`): it is what stands at the
places that are not first ones of a role of a style with a size, for a role is met before a place
exactly if the place is not its first one.

* `Role.Fits`, `Role.ofToken_eq_iff` — the role of a token is read off the keys that name it.
* `stylePlaces`, `leftPlaces`, `interleaved` — the order, as an order of places.
* `stylePlaces_append_leftPlaces_perm` — no place of a style is lost or doubled.
* `StylesBySize` — the styles that have a size, in the order of their first sizes.
* `typographyOrder_interleaves` — the tokens are put into this order.
-/

namespace DesignTokens

/-! ### Roles -/

namespace Role

/-- The keys that the paths of a role begin with, before the keys of what it is for. -/
def keys : Role → List String
  | .family => ["font", "family"]
  | .weight => ["font", "weight"]
  | .size _ => ["font", "size"]
  | .lineHeight _ => ["line-height"]
  | .styleWeight _ => ["font-weight-composite"]
  | .unplaced => []

/-- A path **fits** a role if it goes on behind the keys of the role. What it goes on with, joined
by dashes, is the style that the role belongs to. -/
def Fits (role : Role) (path : TokenPath) : Prop :=
  ∃ key more, path.segments = role.keys ++ key :: more ∧
    ∀ style ∈ role.style?, style = "-".intercalate (key :: more)

variable {role : Role} {path : TokenPath}

/-- A path has a role that it fits. -/
theorem ofPath_of_fits (placed : role ≠ .unplaced) (fits : role.Fits path) :
    ofPath path = role := by
  obtain ⟨head, tail⟩ := path
  obtain ⟨key, more, segments, named⟩ := fits
  cases role with
  | unplaced => exact absurd rfl placed
  | family | weight =>
    obtain ⟨rfl, rfl⟩ := List.cons.inj segments
    rfl
  | size style | lineHeight style | styleWeight style =>
    -- the style is what the keys go on with
    obtain ⟨rfl, rfl⟩ := List.cons.inj segments
    rw [named style rfl]
    rfl

/-- A path that begins with the keys of a role fits it, if it goes on behind them. -/
theorem fits_of_segments {more : List String} (segments : path.segments = role.keys ++ more)
    (long : more ≠ []) (named : ∀ style ∈ role.style?, style = "-".intercalate more) :
    role.Fits path := by
  obtain ⟨key, more, rfl⟩ := List.exists_cons_of_ne_nil long
  exact ⟨key, more, segments, named⟩

/-- Every path fits its role; what is unplaced has no keys and fits any path. -/
theorem fits_ofPath (path : TokenPath) : (ofPath path).Fits path := by
  have unplaced : Role.unplaced.Fits path := ⟨path.head, path.tail, rfl, nofun⟩
  obtain ⟨head, tail⟩ := path
  fun_cases ofPath ⟨head, tail⟩ with
  | case1 | case2 | case6 | case9 => exact unplaced
  | case3 more font long tail | case4 more font long tail =>
    obtain ⟨rfl, rfl⟩ : head = "font" ∧ _ := ⟨font, tail⟩
    exact fits_of_segments rfl long nofun
  | case5 more font long tail =>
    obtain ⟨rfl, rfl⟩ : head = "font" ∧ _ := ⟨font, tail⟩
    exact fits_of_segments rfl long fun _ own => (Option.some.inj own).symm
  | case7 second more tail _ own =>
    obtain ⟨rfl, rfl⟩ : head = "line-height" ∧ _ := ⟨own, tail⟩
    exact fits_of_segments rfl (List.cons_ne_nil _ _) fun _ own => (Option.some.inj own).symm
  | case8 second more tail _ _ own =>
    obtain ⟨rfl, rfl⟩ : head = "font-weight-composite" ∧ _ := ⟨own, tail⟩
    exact fits_of_segments rfl (List.cons_ne_nil _ _) fun _ own => (Option.some.inj own).symm

/-- **The role of a token** is the one that its name fits. -/
theorem ofToken_eq_iff (placed : role ≠ .unplaced) (t : Token) :
    ofToken t = role ↔ role.Fits t.namePath := by
  refine ⟨?_, ofPath_of_fits placed⟩
  rintro rfl
  exact fits_ofPath t.namePath

theorem sizeStyle?_eq_some_iff {style : String} :
    role.sizeStyle? = some style ↔ role = .size style := by
  cases role <;> simp [sizeStyle?]

end Role

/-! ### Places -/

section Places

variable (tokens : List Token)

/-- The role of the token at a place. -/
def roleAt (i : Fin tokens.length) : Role :=
  Role.ofToken (tokens.get i)

/-- The places whose roles pass a test, in source order. -/
def placesOf (part : Role → Bool) : List (Fin tokens.length) :=
  (List.finRange tokens.length).filter fun i => part (roleAt tokens i)

/-- The first place of a role. -/
def firstPlace? (role : Role) : Option (Fin tokens.length) :=
  tokens.findFinIdx? fun t => Role.ofToken t = role

/-- The first places of the size, the line height and the weight of a style, as far as it has
them. -/
def stylePlaces (style : String) : List (Fin tokens.length) :=
  (Role.ofStyle style).filterMap (firstPlace? tokens)

/-- The places of sizes, line heights and weights that do not stand with their styles, in source
order. -/
def leftPlaces (styles : List String) : List (Fin tokens.length) :=
  (placesOf tokens fun role => role.style?.isSome).filter
    fun i => i ∉ styles.flatMap (stylePlaces tokens)

/-- The places **interleaved** by styles: families, weights, one style after the other, what is left
over of the styles, and the rest. -/
def interleaved (styles : List String) : List (Fin tokens.length) :=
  placesOf tokens (fun role => role = .family) ++ placesOf tokens (fun role => role = .weight) ++
    styles.flatMap (stylePlaces tokens) ++ leftPlaces tokens styles ++
      placesOf tokens fun role => role = .unplaced

/-- **Styles by size**: the styles that have a size, in the order of their first sizes. -/
structure StylesBySize (styles : List String) : Prop where
  sized : ∀ style, style ∈ styles ↔ ∃ t ∈ tokens, Role.ofToken t = .size style
  inOrder : styles.Pairwise fun style style' =>
    tokens.findIdx (fun t => Role.ofToken t = .size style) <
      tokens.findIdx fun t => Role.ofToken t = .size style'

end Places

variable {tokens : List Token} {styles : List String} {role : Role} {i : Fin tokens.length}

/-- The first place of a role has it, and no earlier one does. -/
theorem firstPlace?_eq_some_iff :
    firstPlace? tokens role = some i ↔
      roleAt tokens i = role ∧ ∀ j < i, roleAt tokens j ≠ role := by
  rw [firstPlace?, List.findFinIdx?_eq_some_iff, decide_eq_true_iff]
  simp only [decide_eq_true_iff]
  rfl

/-- A role that the first token does not have has its first place further on. -/
theorem firstPlace?_cons (t : Token) (rest : List Token) (role : Role) :
    firstPlace? (t :: rest) role =
      if Role.ofToken t = role then some 0 else (firstPlace? rest role).map Fin.succ := by
  rw [firstPlace?, List.findFinIdx?_cons]
  simp only [decide_eq_true_iff]
  rfl

/-- The tokens at the places of a role are those that play it. -/
theorem map_placesOf (tokens : List Token) (role : Role) :
    (placesOf tokens fun role' => role' = role).map tokens.get = withRole role tokens := by
  conv_rhs => rw [withRole, ← List.map_get_finRange tokens, List.filter_map]
  rfl

/-- The token at the first place of a role is the first that plays it. -/
theorem map_firstPlace? (tokens : List Token) (role : Role) :
    (firstPlace? tokens role).toList.map tokens.get = (withRole role tokens).take 1 := by
  rw [List.take_one, withRole, List.head?_filter, List.find?_eq_map_findFinIdx?_getElem,
    firstPlace?, Option.toList_map]
  rfl

/-! ### Places of styles -/

/-- The places that stand with their styles are the first places of the roles of the styles. -/
theorem flatMap_stylePlaces (tokens : List Token) (styles : List String) :
    styles.flatMap (stylePlaces tokens) =
      (styles.flatMap Role.ofStyle).filterMap (firstPlace? tokens) := by
  rw [List.filterMap_flatMap]
  rfl

theorem map_stylePlaces (tokens : List Token) (styles : List String) :
    (styles.flatMap (stylePlaces tokens)).map tokens.get = styles.flatMap (styleTokens tokens) := by
  rw [flatMap_stylePlaces, flatMap_styleTokens, List.filterMap_eq_flatMap_toList, List.map_flatMap]
  refine List.flatMap_congr fun role _ => ?_
  rw [map_firstPlace?, firstOf, if_neg List.not_mem_nil]

/-- A place stands with its style if it is the first one of its role. -/
theorem mem_stylePlaces :
    i ∈ styles.flatMap (stylePlaces tokens) ↔
      roleAt tokens i ∈ styles.flatMap Role.ofStyle ∧
        firstPlace? tokens (roleAt tokens i) = some i := by
  rw [flatMap_stylePlaces, List.mem_filterMap]
  refine ⟨?_, fun ⟨mem, first⟩ => ⟨_, mem, first⟩⟩
  rintro ⟨role, mem, first⟩
  obtain rfl := (firstPlace?_eq_some_iff.1 first).1
  exact ⟨mem, first⟩

theorem nodup_stylePlaces (nodup : styles.Nodup) :
    (styles.flatMap (stylePlaces tokens)).Nodup := by
  rw [flatMap_stylePlaces]
  refine (Role.nodup_flatMap_ofStyle nodup).filterMap fun role role' i first first' => ?_
  -- a place has one role
  rw [← (firstPlace?_eq_some_iff.1 first).1, ← (firstPlace?_eq_some_iff.1 first').1]

/-- **Styled places.** The places that stand with their styles and those that are left over are all
places of sizes, line heights and weights. -/
theorem stylePlaces_append_leftPlaces_perm (nodup : styles.Nodup) :
    (styles.flatMap (stylePlaces tokens) ++ leftPlaces tokens styles).Perm
      (placesOf tokens fun role => role.style?.isSome) := by
  let styled := placesOf tokens fun role => role.style?.isSome
  -- a place that stands with its style is styled, and stands there once
  have taken : (styles.flatMap (stylePlaces tokens)).Perm
      (styled.filter fun i => i ∈ styles.flatMap (stylePlaces tokens)) := by
    have places : styled.Nodup := (List.nodup_finRange _).filter _
    rw [List.perm_ext_iff_of_nodup (nodup_stylePlaces nodup) (places.filter _)]
    intro i
    rw [List.mem_filter, decide_eq_true_iff, and_iff_right_of_imp]
    intro mem
    obtain ⟨style, -, own⟩ := Role.mem_flatMap_ofStyle.1 (mem_stylePlaces.1 mem).1
    exact List.mem_filter.2 ⟨List.mem_finRange i, by simp only [own, Option.isSome_some]⟩
  have split := List.filter_append_perm
    (fun i => decide (i ∈ styles.flatMap (stylePlaces tokens))) styled
  simp only [← decide_not] at split
  exact (taken.append_right _).trans split

/-- **No place is lost or doubled.** -/
theorem interleaved_perm (nodup : styles.Nodup) :
    (interleaved tokens styles).Perm (List.finRange tokens.length) := by
  -- every place has a role of one part
  have parts : (Role.parts.flatMap (placesOf tokens)).Perm (List.finRange tokens.length) :=
    perm_of_parts fun i _ => Role.countP_parts (roleAt tokens i)
  simp only [Role.parts, List.flatMap_cons, List.flatMap_nil, List.append_nil] at parts
  refine List.Perm.trans ?_ parts
  simp only [interleaved, List.append_assoc]
  refine List.Perm.append_left _ (List.Perm.append_left _ ?_)
  rw [← List.append_assoc]
  exact (stylePlaces_append_leftPlaces_perm nodup).append_right _

/-! ### What is left over -/

/-- Whether the scan leaves a place over once it has `met` some roles. The place belongs to a style,
but its role is not one of a style with a size, has been met, or has an earlier place. -/
def IsLeft (styles : List String) (met : List Role) (tokens : List Token) (i : Fin tokens.length) :
    Prop :=
  (roleAt tokens i).style?.isSome ∧
    ¬ (roleAt tokens i ∈ styles.flatMap Role.ofStyle ∧ roleAt tokens i ∉ met ∧
      firstPlace? tokens (roleAt tokens i) = some i)

instance (styles : List String) (met : List Role) (tokens : List Token) (i : Fin tokens.length) :
    Decidable (IsLeft styles met tokens i) :=
  inferInstanceAs (Decidable (_ ∧ _))

variable {met : List Role} {t : Token} {rest : List Token}

/-- A token with a style is left over at once if the style is none of these or its role has been
met. -/
theorem isLeft_zero {style : String} (styled : (Role.ofToken t).style? = some style) :
    IsLeft styles met (t :: rest) 0 ↔ ¬ (style ∈ styles ∧ Role.ofToken t ∉ met) := by
  have role : roleAt (t :: rest) 0 = Role.ofToken t := rfl
  have first : firstPlace? (t :: rest) (Role.ofToken t) = some 0 := by
    rw [firstPlace?_cons, if_pos rfl]
  rw [IsLeft, role, first, Role.mem_flatMap_ofStyle]
  simp [styled]

/-- A place further on is left over as if the role of the token had been met. -/
theorem isLeft_succ {i : Fin rest.length} :
    IsLeft styles met (t :: rest) i.succ ↔ IsLeft styles (Role.ofToken t :: met) rest i := by
  have role : roleAt (t :: rest) i.succ = roleAt rest i := rfl
  rw [IsLeft, IsLeft, role, firstPlace?_cons]
  by_cases own : Role.ofToken t = roleAt rest i
  · simp [own, (Fin.succ_ne_zero i).symm]
  · simp [own, Ne.symm own]

/-- Having met a role without a style does not matter. -/
theorem isLeft_cons_of_unstyled (unstyled : role.style? = none) :
    IsLeft styles (role :: met) tokens i ↔ IsLeft styles met tokens i := by
  refine and_congr_right fun styled => ?_
  have other : roleAt tokens i ≠ role := by
    rintro rfl
    rw [unstyled] at styled
    exact nomatch styled
  rw [List.mem_cons, or_iff_right other]

/-- **What the scan leaves over** stands at the places that are left over, in their order. -/
theorem leftoverTokens_eq_map (styles : List String) (met : List Role) (tokens : List Token) :
    leftoverTokens styles met tokens =
      ((List.finRange tokens.length).filter fun i => IsLeft styles met tokens i).map
        tokens.get := by
  -- the roles met grow along the scan
  induction tokens generalizing met with
  | nil => rfl
  | cons t rest ih =>
    have places : List.finRange (t :: rest).length =
        0 :: (List.finRange rest.length).map Fin.succ := List.finRange_succ
    -- behind the token the scan goes on as if its role had been met
    have later : (((List.finRange rest.length).map Fin.succ).filter
        fun i => IsLeft styles met (t :: rest) i).map (t :: rest).get =
          leftoverTokens styles (Role.ofToken t :: met) rest := by
      rw [ih, List.filter_map, List.map_map]
      simp only [Function.comp_def, isLeft_succ]
      rfl
    rw [places, leftoverTokens]
    cases hstyle : (Role.ofToken t).style? with
    | none =>
      -- the scan does not note the role, but a role without a style leaves nothing over
      have passed : ¬ IsLeft styles met (t :: rest) 0 := by
        rintro ⟨styled, -⟩
        exact absurd styled (by simp [roleAt, hstyle])
      rw [List.filter_cons_of_neg (by simpa using passed), later, ih, ih]
      simp only [isLeft_cons_of_unstyled hstyle]
    | some style =>
      dsimp only
      split
      · next first =>
        -- the token stands with its style
        have passed : ¬ IsLeft styles met (t :: rest) 0 :=
          fun left => (isLeft_zero hstyle).1 left first
        rw [List.filter_cons_of_neg (by simpa using passed), later]
      · next left =>
        have here : IsLeft styles met (t :: rest) 0 := (isLeft_zero hstyle).2 left
        rw [List.filter_cons_of_pos (by simpa using here), List.map_cons, later]
        rfl

/-- The scan of all tokens leaves over what does not stand with its style. -/
theorem map_leftPlaces (tokens : List Token) (styles : List String) :
    (leftPlaces tokens styles).map tokens.get = leftoverTokens styles [] tokens := by
  rw [leftoverTokens_eq_map, leftPlaces, placesOf, List.filter_filter]
  congr 1
  -- at the beginning no role has been met
  refine List.filter_congr fun i _ => ?_
  rw [Bool.eq_iff_iff, Bool.and_eq_true, decide_eq_true_iff, decide_eq_true_iff, mem_stylePlaces,
    IsLeft, and_iff_right List.not_mem_nil]
  exact and_comm

/-! ### The order -/

/-- The styles that are found are those that have a size, in the order of their first sizes. -/
theorem stylesBySize_sizedStyles (tokens : List Token) :
    StylesBySize tokens (sizedStyles tokens) where
  sized style := by
    simp only [sizedStyles, List.mem_eraseDups, List.mem_filterMap, Role.sizeStyle?_eq_some_iff]
  inOrder := by
    simp only [← Role.sizeStyle?_eq_some_iff]
    exact pairwise_findIdx_eraseDups (fun t => (Role.ofToken t).sizeStyle?) tokens

/-- **Typography is interleaved.** The order of typography takes every place once: families,
weights, the styles that have a size, in the order of their first sizes, each with the first tokens
of its roles, then what is left over of styles, then the rest. The role of a token is the one that
its name fits; tokens whose names fit no role are the rest. -/
theorem typographyOrder_interleaves (tokens : List Token) :
    (∃ styles, StylesBySize tokens styles ∧
      (interleaved tokens styles).Perm (List.finRange tokens.length) ∧
      typographyOrder tokens = (interleaved tokens styles).map tokens.get) ∧
    ∀ t role, role ≠ .unplaced → (Role.ofToken t = role ↔ role.Fits t.namePath) := by
  let styles := sizedStyles tokens
  -- part by part, the tokens of the order are those at the places
  have parts : typographyOrder tokens = (interleaved tokens styles).map tokens.get :=
    calc typographyOrder tokens
        = withRole .family tokens ++ withRole .weight tokens ++
            styles.flatMap (styleTokens tokens) ++ leftoverTokens styles [] tokens ++
              withRole .unplaced tokens := rfl
      _ = (interleaved tokens styles).map tokens.get := by
        simp only [interleaved, List.map_append, map_placesOf, map_stylePlaces, map_leftPlaces]
  refine ⟨⟨styles, stylesBySize_sizedStyles tokens, ?_, parts⟩, ?_⟩
  · exact interleaved_perm (nodup_eraseDups _)
  · intro t role placed
    exact Role.ofToken_eq_iff placed t

/-- A style may be set twice, and a line height may come before its size. The second size is left
over, like the line height of a style that has no size. -/
example :
    let token := fun (head : String) (tail : List String) =>
      Token.mk ⟨head, tail⟩ (.str "1") .other none
    let tokens := [token "line-height" ["body"], token "font" ["size", "body"],
      token "font" ["style"], token "line-height" ["note"], token "font" ["size", "head"],
      token "font" ["size", "body"], token "font-weight-composite" ["head"],
      token "font" ["family", "text"]]
    (interleaved tokens ["body", "head"]).map Fin.val = [7, 1, 0, 4, 6, 3, 5, 2] := by
  decide +kernel

end DesignTokens
