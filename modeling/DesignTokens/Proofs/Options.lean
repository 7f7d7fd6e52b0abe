import DesignTokens.Proofs.Alias.Warnings
import DesignTokens.Proofs.Generation

/-!
# What the options add

Two runs over the same source with different options load and resolve the same tokens. The options
are asked for afterwards: whether colours are converted, and which blocks stand at the end of the
stylesheet.

* `exists_css_eq_append` — a stylesheet without enhancements is the beginning of one with as many
  options or more.
* `diagnostics_generate` — the warnings of a run that ends with a stylesheet: first those about
  missing paths, from loading and resolving, then those about colours.
* `options_only_add` — both together, for the whole way from the files to the stylesheet.
-/

namespace DesignTokens

/-! ### The text -/

/-- Further blocks leave the text of the first ones as it is. -/
theorem exists_stack_append {blocks : List String} (h : blocks ≠ []) (more : List String) :
    ∃ text, stack (blocks ++ more) ++ "\n" = (stack blocks ++ "\n") ++ text := by
  by_cases none : more = []
  · exact ⟨"", by rw [none, List.append_nil, String.append_empty]⟩
  · refine ⟨stack more ++ "\n", ?_⟩
    rw [stack, String.intercalate_append_of_ne_nil h none]
    simp only [stack, String.append_assoc]

/-- The rules of the declarations do not depend on the converted colours. -/
theorem themeBlocks_ofTokens (oklch oklch' : Bool) (tokens : List Token) :
    themeBlocks (Emission.ofTokens oklch tokens) = themeBlocks (Emission.ofTokens oklch' tokens) :=
  rfl

/-- **A stylesheet without enhancements begins every stylesheet that offers as much or more.** -/
theorem exists_css_eq_append {oklch oklch' : Bool} (modernCss : Bool) (tokens : List Token)
    (more : oklch = true → oklch' = true) :
    ∃ text, (Emission.ofTokens oklch' tokens).css oklch' modernCss =
      (Emission.ofTokens oklch tokens).css oklch false ++ text := by
  let e := Emission.ofTokens oklch' tokens
  let enhancements := if modernCss then modernBlocks oklch' e else []
  have begins : ∃ rest, e.blocks oklch' modernCss =
      (Emission.ofTokens oklch tokens).blocks oklch false ++ rest := by
    unfold Emission.blocks
    rw [themeBlocks_ofTokens oklch oklch']
    cases oklch with
    | false =>
      refine ⟨(if oklch' then oklchBlocks e.derivations else []) ++ enhancements, ?_⟩
      simp [e, enhancements]
    | true =>
      obtain rfl := more rfl
      exact ⟨enhancements, by simp [e, enhancements]⟩
  obtain ⟨rest, begins⟩ := begins
  unfold Emission.css
  rw [begins]
  exact exists_stack_append (by simp [Emission.blocks, headerBlocks]) rest

/-! ### The warnings -/

/-- A record that, if it is a warning, is about a missing path. -/
def Event.WarnsOfPaths (e : Event) : Prop :=
  ∀ d ∈ e.diagnostic?, d.kind = .unresolvedReference

theorem Legacy.kind_of_mem_warnings {file : Legacy.File} (mem : file ∈ Legacy.files)
    (data : Fields) : ∀ d ∈ file.warnings data, d.kind = .unresolvedReference := by
  have typography : ∀ d ∈ Legacy.typographyWarnings data, d.kind = .unresolvedReference := by
    intro d hd
    obtain ⟨entry, -, hd⟩ := List.mem_filterMap.1 hd
    unfold Legacy.textStyleWarning? at hd
    split at hd
    · split at hd
      · cases hd
      · split at hd
        · cases hd
        · obtain rfl := Option.some.inj hd
          rfl
    · cases hd
  simp only [Legacy.files, List.mem_cons, List.not_mem_nil, or_false] at mem
  rcases mem with rfl | rfl | rfl | rfl | rfl | rfl | rfl | rfl | rfl
  case inr.inr.inl => exact typography
  all_goals simp

variable {t : FileTree} {root : Location}

theorem warnsOfPaths_loadTier (tier : Tier) :
    ∀ e ∈ (loadTier t root tier).log, e.WarnsOfPaths := by
  unfold loadTier
  dsimp only
  split
  · rintro _ ⟨⟩
  · split
    · rintro _ ⟨⟩
    · refine Traced.forall_mem_log_bind ?_ fun _ => by simp
      rintro _ (_ | ⟨_, ⟨⟩⟩)
      rintro _ ⟨⟩

theorem warnsOfPaths_loadLegacyFiles {files : List Legacy.File}
    (h : ∀ file ∈ files, ∀ data, ∀ d ∈ file.warnings data, d.kind = .unresolvedReference) :
    ∀ e ∈ (loadLegacyFiles t root files).log, e.WarnsOfPaths := by
  induction files with
  | nil => rintro _ ⟨⟩
  | cons file rest ih =>
    rw [List.forall_mem_cons] at h
    refine Traced.forall_mem_log_bind (by rintro _ ⟨⟩) fun data => ?_
    refine Traced.forall_mem_log_bind ?_ fun _ =>
      Traced.forall_mem_log_bind (ih h.2) fun _ => by simp
    intro e he
    obtain ⟨d, hd, rfl⟩ := List.mem_map.1 he
    rintro _ ⟨⟩
    exact h.1 data d hd

/-- Loading warns about missing paths only. -/
theorem warnsOfPaths_loadSource : ∀ e ∈ (loadSource t root).log, e.WarnsOfPaths := by
  have loaded : ∀ layout, ∀ e ∈ (loadLayout t root layout).log, e.WarnsOfPaths := by
    intro layout
    cases layout with
    | legacy =>
      exact Traced.forall_mem_log_bind
        (warnsOfPaths_loadLegacyFiles fun _ => Legacy.kind_of_mem_warnings) fun _ => by simp
    | flatAlias => exact Traced.forall_mem_log_bind (by rintro _ ⟨⟩) fun _ => by simp
    | threeTier =>
      exact Traced.forall_mem_log_bind (warnsOfPaths_loadTier _) fun _ =>
        Traced.forall_mem_log_bind (warnsOfPaths_loadTier _) fun _ =>
          Traced.forall_mem_log_bind (warnsOfPaths_loadTier _) fun _ => by simp
  have silent : ∀ e : Event, e.diagnostic? = none →
      ∀ e' ∈ (Traced.record e : Loading Unit).log, e'.WarnsOfPaths := by
    rintro e none _ (_ | ⟨_, ⟨⟩⟩)
    rw [Event.WarnsOfPaths, none]
    rintro _ ⟨⟩
  refine Traced.forall_mem_log_bind (by rintro _ ⟨⟩) fun layout =>
    Traced.forall_mem_log_bind (silent _ rfl) fun _ =>
      Traced.forall_mem_log_bind (loaded layout) fun _ =>
        Traced.forall_mem_log_bind (silent _ rfl) fun _ => by simp

/-- **The warnings of a run that ends with a stylesheet**: those of loading, those of resolving,
and then those about colours, if these are checked. -/
theorem diagnostics_generate {o : Options} {set : TokenSet} {tokens : List Token}
    (loaded : (loadSource t o.tokensDir).result = .ok set) (resolved : set.ResolvesTo tokens) :
    diagnostics (generate t o).log =
      (diagnostics (loadSource t o.tokensDir).log ++ set.resolve.log) ++
        colorWarnings (o.oklch || o.modernCss) tokens := by
  have ran := resolveSet_eq_ok_iff.2 resolved
  have warned : diagnostics (resolveSet set).log = set.resolve.log := by
    have ok : (set.resolve.mapLog Event.warned).result = .ok tokens :=
      TokenSet.resolve_eq_ok_iff.2 resolved
    rw [resolveSet, Traced.log_bind_of_ok (Traced.mapError_eq_ok_iff.2 ok), diagnostics_append,
      Traced.log_mapError, Traced.log_mapLog, diagnostics_map_warned]
    -- that the tiers are resolved is no warning
    split <;> exact List.append_nil _
  have emitted : diagnostics (emitTokens o tokens).log =
      colorWarnings (o.oklch || o.modernCss) tokens := by
    have log : (emitTokens o tokens).log =
        (colorWarnings (o.oklch || o.modernCss) tokens).map Event.warned ++
          [.sectionsEmitted (Emission.ofTokens o.oklch tokens).sections.length
            (Emission.ofTokens o.oklch tokens).derivations.length] := rfl
    rw [log, diagnostics_append, diagnostics_map_warned]
    exact List.append_nil _
  have made : (emitTokens o tokens).result = .ok (Emission.ofTokens o.oklch tokens) := rfl
  rw [generate, Traced.log_bind_of_ok (Traced.mapError_eq_ok_iff.2 loaded),
    Traced.log_bind_of_ok ran, Traced.log_bind_of_ok made]
  simp only [diagnostics_append, Traced.log_mapError, warned, emitted, Traced.log_pure,
    List.append_assoc]
  exact congrArg _ (congrArg _ (List.append_nil _))

theorem kind_of_mem_colorWarnings {checkColors : Bool} {tokens : List Token} :
    ∀ d ∈ colorWarnings checkColors tokens, d.kind = .unparseableColor := by
  intro d hd
  unfold colorWarnings at hd
  split at hd
  · obtain ⟨token, -, hd⟩ := List.mem_filterMap.1 hd
    unfold Token.colorWarning? at hd
    split at hd
    · obtain rfl := Option.some.inj hd
      rfl
    · cases hd
  · cases hd

/-! ### Two runs -/

/-- **Options only add.** Let two runs over the same source end with a stylesheet. Then

* both have the same layout and count the same tokens and the same declarations in each bucket;
* if the first offers no enhancements, and converts colours only if the second does too, its text
  is the beginning of the second one's;
* if the first has no options at all, its warnings are the first ones of the second, and all about
  missing paths, while all others of the second are about colours. -/
theorem options_only_add {o o' : Options} {sheet sheet' : Stylesheet}
    (source : o'.tokensDir = o.tokensDir) (ends : (generate t o).result = .ok sheet)
    (ends' : (generate t o').result = .ok sheet') :
    (sheet'.layout = sheet.layout ∧ sheet'.stats.tierCounts = sheet.stats.tierCounts ∧
      sheet'.stats.shared = sheet.stats.shared ∧ sheet'.stats.dark = sheet.stats.dark ∧
      sheet'.stats.light = sheet.stats.light) ∧
    (o.modernCss = false → (o.oklch = true → o'.oklch = true) →
      ∃ text, sheet'.css = sheet.css ++ text) ∧
    (o.oklch = false → o.modernCss = false →
      ∃ colours, diagnostics (generate t o').log = diagnostics (generate t o).log ++ colours ∧
        (∀ d ∈ diagnostics (generate t o).log, d.kind = .unresolvedReference) ∧
        ∀ d ∈ colours, d.kind = .unparseableColor) := by
  obtain ⟨set, tokens, loaded, resolved, rfl⟩ := generate_eq_ok_iff.1 ends
  obtain ⟨set', tokens', loaded', resolved', rfl⟩ := generate_eq_ok_iff.1 ends'
  -- the second run has loaded and resolved the same tokens
  obtain rfl : set = set' := by
    rw [source, loaded] at loaded'
    exact Except.ok.inj loaded'
  obtain rfl : tokens = tokens' := by
    rw [← TokenSet.resolve_eq_ok_iff] at resolved resolved'
    rw [resolved] at resolved'
    exact Except.ok.inj resolved'
  refine ⟨⟨rfl, rfl, rfl, rfl, rfl⟩, ?_, ?_⟩
  · intro plain more
    simp only [Stylesheet.ofTokens, plain]
    exact exists_css_eq_append o'.modernCss tokens more
  · intro noColours plain
    have first : diagnostics (generate t o).log =
        diagnostics (loadSource t o.tokensDir).log ++ set.resolve.log := by
      rw [diagnostics_generate loaded resolved, noColours, plain]
      exact List.append_nil _
    refine ⟨colorWarnings (o'.oklch || o'.modernCss) tokens, ?_, ?_, kind_of_mem_colorWarnings⟩
    · rw [diagnostics_generate loaded' resolved', first, source]
    · rw [first, List.forall_mem_append]
      refine ⟨fun d hd => ?_, TokenSet.kind_of_mem_log_resolve
        (TokenSet.resolve_eq_ok_iff.2 resolved)⟩
      obtain ⟨e, he, hd⟩ := List.mem_filterMap.1 hd
      exact warnsOfPaths_loadSource e he d hd

/-- A colour that names a missing path. With all options the run warns of the colour as well, and
the stylesheet goes on where it ended without. -/
theorem missing_colour_is_warned_of_twice :
    let text := "\x7b\"color\":\x7b\"bg\":\x7b\"$value\":\"\x7bink\x7d\"\x7d\x7d\x7d"
    let t : FileTree :=
      { nodes := [(["tokens"], .directory), (["tokens", "a.tokens.json"], .file text.toUTF8)]
        workingDirectory := [] }
    let all : Options := { oklch := true, modernCss := true }
    ∃ sheet sheet', (generate t {}).result = .ok sheet ∧ (generate t all).result = .ok sheet' ∧
      diagnostics (generate t {}).log = [.unresolvedReference "ink" "color.bg"] ∧
      diagnostics (generate t all).log =
        [.unresolvedReference "ink" "color.bg", .unparseableColor "color-bg" "{ink}"] ∧
      sheet'.stats.shared = sheet.stats.shared ∧ ∃ more, sheet'.css = sheet.css ++ more := by
  intro text t all
  obtain ⟨sheet, ends⟩ : ∃ sheet, (generate t {}).result.toOption = some sheet :=
    Option.isSome_iff_exists.1 (by decide +kernel)
  obtain ⟨sheet', ends'⟩ : ∃ sheet, (generate t all).result.toOption = some sheet :=
    Option.isSome_iff_exists.1 (by decide +kernel)
  have ends := Traced.toOption_eq_some_iff.1 ends
  have ends' := Traced.toOption_eq_some_iff.1 ends'
  have source : all.tokensDir = ({} : Options).tokensDir := rfl
  obtain ⟨⟨-, -, shared, -⟩, begins, -⟩ := options_only_add source ends ends'
  exact ⟨sheet, sheet', ends, ends', by decide +kernel, by decide +kernel, shared,
    begins rfl fun none => absurd none (by decide)⟩

end DesignTokens
