import DesignTokens.Proofs.Alias.Resolution
import DesignTokens.Proofs.Stylesheet.Placement
import DesignTokens.Source.Load

/-!
# The names of legacy properties

The legacy files promise names: a colour `ink` is the property `color-ink`, a size `md` is the
property `md`, a text style has one property for each of its parts. The files keep this promise in
a roundabout way. What a file gives are tokens, whose names are computed from their paths by the
rules for all layouts; so each path is chosen such that the name comes out as it was promised.

* `Legacy.promisedNames` is the promise, told from the contents of the files alone.
* `Legacy.declaredAs_tokens_perm` — the tokens of the files have the promised names, each as often
  as it was promised. There is one equation for each file; only the shadows come in another order,
  as their tokens go level by level and the promise goes theme by theme.
* `loadLegacyFiles_of_reads` — files that can be read are loaded, with their tokens and warnings
  one after the other.
* `legacy_names_as_promised` — both, up to the declarations of the stylesheet.
-/

namespace DesignTokens

/-- The bucket and the name that a token is declared under. -/
def Token.declaredAs (t : Token) : Bucket × String :=
  (t.bucket, t.propertyName)

/-- The bucket and the name of a declaration. -/
def Placement.declaredAs (p : Placement) : Bucket × String :=
  (p.bucket, p.declaration.name)

theorem declaredAs_placements_perm (oklch : Bool) (tokens : List Token) :
    ((Emission.ofTokens oklch tokens).placements.map Placement.declaredAs).Perm
      (tokens.map Token.declaredAs) := by
  have names := (placements_perm oklch tokens).map Placement.declaredAs
  rwa [List.map_map] at names

namespace Legacy

/-! ### The promise -/

/-- A group inside others; whatever is not an object counts as an empty one. -/
def groupAt (data : Fields) (keys : List String) : Fields :=
  keys.foldl group data

/-- Every key of a group is the name of a property, after a fixed beginning. -/
structure NameRule where
  file : String
  keys : List String
  bucket : Bucket
  front : String

/-- The groups whose keys are names. -/
def nameRules : List NameRule :=
  [⟨"colors.json", ["dark"], .dark, "color-"⟩,
   ⟨"colors.json", ["light"], .light, "color-"⟩,
   ⟨"colors.json", ["shared"], .root, "color-"⟩,
   ⟨"sizing.json", ["size"], .root, ""⟩,
   ⟨"sizing.json", ["space"], .root, ""⟩,
   ⟨"typography.json", ["primitive", "family"], .root, "font-family-"⟩,
   ⟨"typography.json", ["primitive", "weight"], .root, "font-weight-"⟩,
   ⟨"radii.json", ["radius"], .root, ""⟩,
   ⟨"shadows.json", ["blur"], .root, ""⟩,
   ⟨"borders.json", ["width"], .root, "border-width-"⟩,
   ⟨"borders.json", ["style"], .root, "border-style-"⟩,
   ⟨"opacity.json", ["opacity"], .root, "opacity-"⟩,
   ⟨"z-index.json", ["z"], .root, "z-"⟩,
   ⟨"transitions.json", ["duration"], .root, "duration-"⟩,
   ⟨"transitions.json", ["easing"], .root, "easing-"⟩]

/-- The names of the keys of a group. -/
def keyNames (b : Bucket) (front : String) (entries : Fields) : List (Bucket × String) :=
  entries.map fun entry => (b, front ++ entry.1)

/-- The parts of a text style, and how the names of their properties begin. -/
def styleParts : List (String × String) :=
  [("fontSize", "font-size-"), ("lineHeight", "line-height-"), ("fontWeight", "font-weight-")]

/-- A text style has a property for each of its parts; what is not an object is no style. -/
def styleNames (style : String × Value) : List (Bucket × String) :=
  match style.2 with
  | .object parts =>
    (styleParts.filter fun part => Value.hasField parts part.1).map fun part =>
      (.root, part.2 ++ style.1)
  | _ => []

/-- A level has a shadow in a theme that gives it a colour, and null is none; what is not an object
is no level. -/
def shadowName? (data : Fields) (m : Mode) (level : String × Value) : Option (Bucket × String) :=
  match level.2, Value.field? (group data m.text) ("shadow-" ++ level.1) with
  | .object _, some color =>
    if color = .null then none else some (.ofMode (some m), "shadow-" ++ level.1)
  | _, _ => none

/-- **The promised names**, with their buckets, as often as they are promised. -/
def promisedNames (content : String → Fields) : List (Bucket × String) :=
  (nameRules.flatMap fun rule =>
    keyNames rule.bucket rule.front (groupAt (content rule.file) rule.keys)) ++
  (group (content "typography.json") "composite").flatMap styleNames ++
  Mode.all.flatMap fun m =>
    (group (content "shadows.json") "geometry").filterMap (shadowName? (content "shadows.json") m)

/-- The text styles that set a weight, with the key that the weight stands for. -/
def weightedStyles (data : Fields) : List (String × String) :=
  (group data "composite").filterMap fun style =>
    match style.2 with
    | .object parts => (Value.field? parts "fontWeight").map fun weight => (style.1, weight.keyText)
    | _ => none

/-- The text styles whose weight is not among the named ones. -/
def unnamedWeights (data : Fields) : List (String × String) :=
  (weightedStyles data).filter fun style =>
    style.2 ∉ (groupAt data ["primitive", "weight"]).map Prod.fst

/-! ### The names of paths -/

section Paths

variable {head : String}

/-- Under certain first keys the last one is the whole name. -/
theorem nameOfPath_of_leaf (leaf : head ∈ Token.leafNamedHeads) (key : String) :
    Token.nameOfPath ⟨head, [key]⟩ = key := by
  simp [Token.nameOfPath, leaf]

/-- Under other first keys the keys are joined. -/
theorem nameOfPath_two_keys (joined : head ∉ Token.leafNamedHeads ++ ["shadow"])
    (noWeight : head ≠ "font-weight-composite") (key : String) :
    Token.nameOfPath ⟨head, [key]⟩ = head ++ "-" ++ key := by
  rw [List.mem_append, not_or, List.mem_singleton] at joined
  simp [Token.nameOfPath, joined, noWeight, TokenPath.segments, String.intercalate_cons_cons]

theorem nameOfPath_three_keys (noShadow : head ≠ "shadow")
    (noWeight : head ≠ "font-weight-composite") (second key : String) :
    Token.nameOfPath ⟨head, [second, key]⟩ = head ++ "-" ++ second ++ "-" ++ key := by
  simp [Token.nameOfPath, noShadow, noWeight, TokenPath.segments, String.intercalate_cons_cons,
    String.append_assoc]

/-- A composite weight is named like any other weight. -/
theorem nameOfPath_compositeWeight (style : String) :
    Token.nameOfPath ⟨"font-weight-composite", [style]⟩ = "font-weight-" ++ style := by
  simp [Token.nameOfPath, Token.leafNamedHeads]

theorem nameOfPath_shadow (level : String) :
    Token.nameOfPath ⟨"shadow", [level]⟩ = "shadow-" ++ level := by
  simp [Token.nameOfPath, Token.leafNamedHeads]

end Paths

/-! ### The names of tokens -/

/-- Entries under the same first keys are named by their own keys. -/
theorem declaredAs_entryTokens {head front : String} (type : TokenType) (keys : List String)
    (named : ∀ key, Token.nameOfPath ⟨head, keys ++ [key]⟩ = front ++ key) (entries : Fields) :
    (entryTokens type head keys entries).map Token.declaredAs = keyNames .root front entries := by
  rw [entryTokens, List.map_map, keyNames]
  refine List.map_congr_left fun entry _ => ?_
  rw [← named]
  rfl

/-- Entries of a theme keep the theme as their last key, and it is not part of their names. -/
theorem declaredAs_colorTokens (data : Fields) :
    (colorTokens data).map Token.declaredAs =
      (Mode.all.flatMap fun m => keyNames (.ofMode (some m)) "color-" (group data m.text)) ++
        keyNames .root "color-" (group data "shared") := by
  have named : ∀ key, Token.nameOfPath ⟨"color", [key]⟩ = "color-" ++ key :=
    nameOfPath_two_keys (by decide) (by decide)
  have shared := declaredAs_entryTokens .color [] named (group data "shared")
  have themed : ∀ m : Mode, ((group data m.text).map fun entry : String × Value =>
        ({ path := ⟨"color", [entry.1, m.text]⟩, value := entry.2, type := .color,
           mode := some m } : Token)).map Token.declaredAs =
        keyNames (.ofMode (some m)) "color-" (group data m.text) := by
    intro m
    rw [List.map_map, keyNames]
    refine List.map_congr_left fun entry _ => ?_
    rw [← named]
    rfl
  simp only [colorTokens, List.map_append, List.map_flatMap, themed, shared]

/-- A key is present exactly if it has a value. -/
theorem hasField_eq_isSome_field? (fields : Fields) (key : String) :
    Value.hasField fields key = (Value.field? fields key).isSome := by
  induction fields with
  | nil => rfl
  | cons field rest ih =>
    obtain ⟨k, v⟩ := field
    rw [Value.hasField, List.any_cons, Value.field?, List.lookup_cons, Bool.beq_comm]
    rw [Value.hasField, Value.field?] at ih
    cases key == k
    · exact ih
    · rfl

/-- A part of a text style is there or not; its property is named after the style. -/
theorem declaredAs_textStyleTokens (weights : Fields) (style : String × Value) :
    (textStyleTokens weights style.1 style.2).map Token.declaredAs = styleNames style := by
  obtain ⟨name, value⟩ := style
  cases value with
  | object parts =>
    have one : ∀ (part : String × String) (token : Value → Token),
        (∀ v, (token v).declaredAs = (.root, part.2 ++ name)) →
          ((Value.field? parts part.1).map token).toList.map Token.declaredAs =
            ([part].filter fun part => Value.hasField parts part.1).map fun part =>
              (.root, part.2 ++ name) := by
      intro part token named
      rw [List.filter_singleton, hasField_eq_isSome_field?]
      cases Value.field? parts part.1 with
      | none => rfl
      | some v => simp [named]
    have size := one ("fontSize", "font-size-")
      (fun v => { path := ⟨"font", ["size", name]⟩, value := v, type := .dimension }) fun _ =>
        congrArg (Prod.mk Bucket.root) (nameOfPath_three_keys (by decide) (by decide) "size" name)
    have height := one ("lineHeight", "line-height-")
      (fun v => { path := ⟨"line-height", [name]⟩, value := v, type := .dimension }) fun _ =>
        congrArg (Prod.mk Bucket.root) (nameOfPath_two_keys (by decide) (by decide) name)
    have weight := one ("fontWeight", "font-weight-")
      (fun v => { path := ⟨"font-weight-composite", [name]⟩, value := styleWeight weights v,
                  type := .number }) fun _ =>
        congrArg (Prod.mk Bucket.root) (nameOfPath_compositeWeight name)
    simp only [textStyleTokens, List.map_append, size, height, weight]
    rw [← List.map_append, ← List.map_append, ← List.filter_append, ← List.filter_append]
    rfl
  | null | bool | int | float | str | list => rfl

theorem declaredAs_typographyTokens (data : Fields) :
    (typographyTokens data).map Token.declaredAs =
      keyNames .root "font-family-" (groupAt data ["primitive", "family"]) ++
        keyNames .root "font-weight-" (groupAt data ["primitive", "weight"]) ++
          (group data "composite").flatMap styleNames := by
  have joined : ∀ second key, Token.nameOfPath ⟨"font", [second, key]⟩ =
      "font-" ++ second ++ "-" ++ key := nameOfPath_three_keys (by decide) (by decide)
  have families := declaredAs_entryTokens .fontFamily ["family"] (joined "family")
    (groupAt data ["primitive", "family"])
  have weights := declaredAs_entryTokens .number ["weight"] (joined "weight")
    (groupAt data ["primitive", "weight"])
  rw [typographyTokens, List.map_append, List.map_append, List.map_flatMap]
  congr 1
  · exact congrArg₂ _ families weights
  · exact List.flatMap_congr fun style _ => declaredAs_textStyleTokens _ style

/-- An entry whose path ends in its whole name has the name of its group before its own. -/
theorem declaredAs_namedTokens {name : String} (leaf : name ∈ Token.leafNamedHeads)
    (type : TokenType) (data : Fields) :
    (namedTokens type name data).map Token.declaredAs =
      keyNames .root (name ++ "-") (group data name) := by
  rw [namedTokens, List.map_map, keyNames]
  refine List.map_congr_left fun entry _ => ?_
  exact congrArg (Prod.mk Bucket.root) (nameOfPath_of_leaf leaf _)

/-- Entries under a first key that leaves no trace have their keys as names. -/
theorem declaredAs_leafTokens {head : String} (leaf : head ∈ Token.leafNamedHeads)
    (type : TokenType) (entries : Fields) :
    (entryTokens type head [] entries).map Token.declaredAs = keyNames .root "" entries := by
  refine declaredAs_entryTokens type [] (fun key => ?_) entries
  rw [String.empty_append]
  exact nameOfPath_of_leaf leaf key

/-- The shadow of a level in a theme is there or not; it is named after the level. -/
theorem declaredAs_shadowToken? (data geometry : Fields) (level : String) (m : Mode) :
    (shadowToken? data level geometry m).map Token.declaredAs =
      shadowName? data m (level, .object geometry) := by
  rw [shadowToken?, shadowName?]
  cases Value.field? (group data m.text) ("shadow-" ++ level) with
  | none => rfl
  | some color =>
    have named := congrArg (Prod.mk (Bucket.ofMode (some m))) (nameOfPath_shadow level)
    cases color with
    | null => rfl
    | bool | int | float | str | list | object => exact congrArg some named

/-- What is found row by row is found column by column, in another order. -/
theorem perm_flatMap_filterMap_comm {α β γ : Type} (f : α → β → Option γ) (rows : List α)
    (columns : List β) :
    (rows.flatMap fun row => columns.filterMap (f row)).Perm
      (columns.flatMap fun column => rows.filterMap fun row => f row column) := by
  induction rows with
  | nil => simp
  | cons row rest ih =>
    have cut : ∀ column, (row :: rest).filterMap (fun row => f row column) =
        (f row column).toList ++ rest.filterMap fun row => f row column := by
      intro column
      rw [List.filterMap_cons]
      cases f row column <;> rfl
    simp only [cut]
    rw [List.flatMap_cons, List.filterMap_eq_flatMap_toList]
    exact (ih.append_left _).trans (List.flatMap_append_perm _ _ _)

/-- Shadows are found level by level, and the promise goes theme by theme. -/
theorem declaredAs_shadowTokens_perm (data : Fields) :
    ((shadowTokens data).map Token.declaredAs).Perm
      ((Mode.all.flatMap fun m => (group data "geometry").filterMap (shadowName? data m)) ++
        keyNames .root "" (group data "blur")) := by
  have level : ∀ entry : String × Value,
      (shadowTokensOf data entry.1 entry.2).map Token.declaredAs =
        Mode.all.filterMap fun m => shadowName? data m entry := by
    rintro ⟨level, value⟩
    cases value with
    | object geometry =>
      rw [shadowTokensOf, List.map_filterMap]
      exact List.filterMap_congr fun m _ => declaredAs_shadowToken? data geometry level m
    | null | bool | int | float | str | list => rfl
  have blurs := declaredAs_leafTokens (by decide : "blur" ∈ Token.leafNamedHeads) .dimension
    (group data "blur")
  rw [shadowTokens, List.map_append, List.map_flatMap, blurs]
  simp only [level]
  exact (perm_flatMap_filterMap_comm _ _ _).append_right _

theorem declaredAs_sizingTokens (data : Fields) :
    (sizingTokens data).map Token.declaredAs =
      keyNames .root "" (group data "size") ++ keyNames .root "" (group data "space") := by
  rw [sizingTokens, List.map_append, declaredAs_leafTokens (by decide),
    declaredAs_leafTokens (by decide)]

theorem declaredAs_borderTokens (data : Fields) :
    (borderTokens data).map Token.declaredAs =
      keyNames .root "border-width-" (group data "width") ++
        keyNames .root "border-style-" (group data "style") := by
  have joined : ∀ second key, Token.nameOfPath ⟨"border", [second, key]⟩ =
      "border-" ++ second ++ "-" ++ key := nameOfPath_three_keys (by decide) (by decide)
  rw [borderTokens, List.map_append]
  exact congrArg₂ _ (declaredAs_entryTokens .dimension ["width"] (joined "width") _)
    (declaredAs_entryTokens .other ["style"] (joined "style") _)

/-- **The tokens of the files have the promised names**, each as often as it is promised. -/
theorem declaredAs_tokens_perm (content : String → Fields) :
    ((files.flatMap fun file => file.tokens (content file.name)).map Token.declaredAs).Perm
      (promisedNames content) := by
  have radii := fun data =>
    declaredAs_leafTokens (by decide : "radius" ∈ Token.leafNamedHeads) .dimension
      (group data "radius")
  have opacities := declaredAs_namedTokens (by decide : "opacity" ∈ Token.leafNamedHeads) .number
  have layers := declaredAs_namedTokens (by decide : "z" ∈ Token.leafNamedHeads) .number
  have durations :=
    declaredAs_namedTokens (by decide : "duration" ∈ Token.leafNamedHeads) .duration
  have easings :=
    declaredAs_namedTokens (by decide : "easing" ∈ Token.leafNamedHeads) .cubicBezier
  have shadows := declaredAs_shadowTokens_perm (content "shadows.json")
  -- file by file the names are the promised ones; what is left is the order of the groups
  rw [List.perm_iff_count] at shadows ⊢
  intro name
  have shadows := shadows name
  simp only [List.count_append, Mode.all, List.flatMap_cons, List.flatMap_nil,
    List.count_nil] at shadows
  simp only [files, List.flatMap_cons, List.flatMap_nil, List.map_append, List.append_nil,
    List.count_append, declaredAs_colorTokens, declaredAs_sizingTokens,
    declaredAs_typographyTokens, radiusTokens, radii, shadows, declaredAs_borderTokens, opacities,
    layers, transitionTokens, durations, easings, String.reduceAppend]
  simp only [promisedNames, nameRules, groupAt, List.flatMap_cons, List.flatMap_nil,
    List.foldl_cons, List.foldl_nil, List.append_nil, List.count_append, Mode.all, Mode.text,
    Bucket.ofMode]
  omega

/-! ### Warnings -/

theorem field?_eq_none_iff {fields : Fields} {key : String} :
    Value.field? fields key = none ↔ key ∉ fields.map Prod.fst := by
  rw [Value.field?, List.lookup_eq_none_iff, List.mem_map, not_exists]
  refine forall_congr' fun entry => ?_
  rw [bne_iff_ne, not_and, ne_comm]

/-- The warning about a text style whose weight is not a named one. -/
def weightWarning (style : String × String) : Diagnostic :=
  .unresolvedReference ("font.weight." ++ style.2) ("typography composite '" ++ style.1 ++ "'")

/-- **One warning for each weight that is not named**, in the order of the text styles. -/
theorem typographyWarnings_eq_map (data : Fields) :
    typographyWarnings data = (unnamedWeights data).map weightWarning := by
  rw [unnamedWeights, weightedStyles, List.filter_filterMap, List.map_filterMap,
    typographyWarnings]
  refine List.filterMap_congr fun style _ => ?_
  obtain ⟨name, value⟩ := style
  cases value with
  | object parts =>
    simp only [textStyleWarning?]
    cases Value.field? parts "fontWeight" with
    | none => rfl
    | some weight =>
      have weights : fontWeights data = groupAt data ["primitive", "weight"] := rfl
      simp only [weights, Option.map_some, Option.filter_some, ← field?_eq_none_iff]
      cases Value.field? (groupAt data ["primitive", "weight"]) weight.keyText <;> rfl
  | null | bool | int | float | str | list => rfl

end Legacy

/-! ### From files to declarations -/

/-- **Files that can be read are loaded** in order, with what they give and what they warn of. -/
theorem loadLegacyFiles_of_reads {t : FileTree} {root : Location} {content : String → Fields}
    {files : List Legacy.File}
    (reads : ∀ file ∈ files, readTokenFile t (root.child file.name) = .ok (content file.name)) :
    loadLegacyFiles t root files =
      ⟨(files.flatMap fun file => file.warnings (content file.name)).map .warned,
        .ok (files.flatMap fun file => file.tokens (content file.name))⟩ := by
  induction files with
  | nil => rfl
  | cons file rest ih =>
    rw [List.forall_mem_cons] at reads
    rw [loadLegacyFiles, reads.1, Traced.bind_of_ok rfl, Traced.bind_of_ok rfl, ih reads.2,
      Traced.bind_of_ok rfl]
    simp [Traced.ofExcept]

/-- **Legacy files keep their promise.** If the nine files can be read, they are loaded and resolve
to the tokens that they give, without anything to expand. The declarations made from these have the
promised names in the promised buckets, each as often as it is promised. The warnings are one for
each text style with a weight that is not named. -/
theorem legacy_names_as_promised {t : FileTree} {root : Location} {content : String → Fields}
    (reads : ∀ file ∈ Legacy.files,
      readTokenFile t (root.child file.name) = .ok (content file.name)) :
    ∃ set, (loadTokens t root .legacy).result = .ok set ∧ set.resolve = pure set.primitives ∧
      (∀ oklch, ((Emission.ofTokens oklch set.primitives).placements.map
        Placement.declaredAs).Perm (Legacy.promisedNames content)) ∧
      diagnostics (loadTokens t root .legacy).log =
        (Legacy.unnamedWeights (content "typography.json")).map Legacy.weightWarning := by
  have loaded := loadLegacyFiles_of_reads reads
  let tokens := Legacy.files.flatMap fun file => file.tokens (content file.name)
  have ran : loadLayout t root .legacy =
      ⟨(Legacy.files.flatMap fun file => file.warnings (content file.name)).map .warned,
        .ok { layout := .legacy, primitives := tokens }⟩ := by
    rw [loadLayout, loaded, Traced.bind_of_ok rfl]
    simp [tokens]
  -- only the text styles warn
  have warned : (Legacy.files.flatMap fun file => file.warnings (content file.name)) =
      Legacy.typographyWarnings (content "typography.json") := by
    simp [Legacy.files]
  refine ⟨_, by rw [loadTokens, ran, Traced.bind_of_ok rfl]; rfl, rfl, fun oklch => ?_, ?_⟩
  · exact (declaredAs_placements_perm oklch _).trans (Legacy.declaredAs_tokens_perm content)
  · rw [loadTokens, ran, Traced.bind_of_ok rfl, diagnostics_append, diagnostics_map_warned, warned,
      Legacy.typographyWarnings_eq_map]
    exact List.append_nil _

/-- Two styles, one of them with a weight that is not named; a level with a colour in one theme and
null in the other; a group that is a list. -/
theorem heading_weight_is_not_named :
    let text : String → String := fun name =>
      if name = "colors.json" then "\x7b\"dark\":\x7b\"ink\":\"#fff\"\x7d,\"light\":[1]\x7d"
      else if name = "typography.json" then
        "\x7b\"primitive\":\x7b\"weight\":\x7b\"400\":400\x7d\x7d,\"composite\":\x7b" ++
          "\"body\":\x7b\"fontSize\":16,\"fontWeight\":400\x7d," ++
          "\"heading\":\x7b\"fontWeight\":700\x7d\x7d\x7d"
      else if name = "shadows.json" then
        "\x7b\"geometry\":\x7b\"md\":\x7b\x7d\x7d,\"dark\":\x7b\"shadow-md\":\"#000\"\x7d," ++
          "\"light\":\x7b\"shadow-md\":null\x7d\x7d"
      else "\x7b\x7d"
    let t : FileTree :=
      { nodes := (["tokens"], .directory) :: Legacy.files.map fun file =>
          (["tokens", file.name], .file (text file.name).toUTF8)
        workingDirectory := [] }
    let root := Location.ofString "tokens"
    let content : String → Fields := fun name =>
      (readTokenFile t (root.child name)).toOption.getD []
    (∀ file ∈ Legacy.files, readTokenFile t (root.child file.name) = .ok (content file.name)) ∧
    Legacy.promisedNames content =
      [(.dark, "color-ink"), (.root, "font-weight-400"), (.root, "font-size-body"),
       (.root, "font-weight-body"), (.root, "font-weight-heading"), (.dark, "shadow-md")] ∧
    ∃ set, (loadTokens t root .legacy).result = .ok set ∧
      ((Emission.ofTokens false set.primitives).placements.map
        Placement.declaredAs).Perm (Legacy.promisedNames content) ∧
      diagnostics (loadTokens t root .legacy).log =
        [.unresolvedReference "font.weight.700" "typography composite 'heading'"] := by
  intro text t root content
  have returned : ∀ result : Except LoadError Fields, result.isOk →
      result = .ok (result.toOption.getD []) := by
    rintro (_ | _) ok
    · cases ok
    · rfl
  have read : ∀ file ∈ Legacy.files, (readTokenFile t (root.child file.name)).isOk := by
    decide +kernel
  have reads : ∀ file ∈ Legacy.files,
      readTokenFile t (root.child file.name) = .ok (content file.name) :=
    fun file mem => returned _ (read file mem)
  obtain ⟨set, loaded, -, names, warnings⟩ := legacy_names_as_promised reads
  exact ⟨reads, by decide +kernel, set, loaded, names false, warnings.trans (by decide +kernel)⟩

end DesignTokens
