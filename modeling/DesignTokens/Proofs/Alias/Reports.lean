import DesignTokens.Proofs.Alias.Occurrences
import DesignTokens.Proofs.Alias.Warnings

/-!
# Every missing alias is reported once

The records of a run over tokens are read off the places where aliases stand in these tokens, in the
order of the tokens and then of the places. A place whose path no scope defines makes one record,
any other place makes none; what an alias leads to makes none either. A run that fails has stopped
at one of these places, and has kept the records of those before it.

* `Mention` — a place: the token that it belongs to, and the path that is named there.
* `Mention.report?` — the record that it makes.
* `Value.log_expand_mentions_of_ok`, `Value.log_expand_mentions_of_error` — the records of a value.
* `Token.reports_missing_where_written` — the records of a run, whether it returns or fails.
-/

namespace DesignTokens

/-- A place where an alias stands: the dotted path of the token, and the path that is named. -/
structure Mention where
  token : String
  path : String
deriving DecidableEq, Repr

namespace Mention

/-- The record that a place makes: one if no scope defines its path. -/
def report? (scopes : Scopes) (m : Mention) : Option Diagnostic :=
  if (scopes.find? m.path).isNone then some (.unresolvedReference m.path m.token) else none

/-- The alias of a place, expanded on its own. -/
def expand (scopes : Scopes) (m : Mention) : Expansion Value :=
  Alias.expand scopes m.token (.str (Alias.aliasText m.path))

end Mention

namespace Alias

variable {scopes : Scopes} {context path written : String} {e : CyclicReference}
  {follow : (path written : String) → Expansion Value}

/-- Following references up to a failure records what those before it record, and what the failing
one has recorded until then. -/
theorem log_followAll_of_error {front back : List Reference} {r : Reference}
    (ok : ∀ s ∈ front, ∃ w, (follow s.path s.written).result = .ok w)
    (failed : (follow r.path r.written).result = .error e) :
    (followAll follow (front ++ r :: back)).log =
      (front.flatMap fun s => (follow s.path s.written).log) ++ (follow r.path r.written).log := by
  induction front with
  | nil =>
    rw [List.nil_append, followAll, Traced.bind_of_error failed]
    rfl
  | cons s front ih =>
    rw [List.forall_mem_cons] at ok
    obtain ⟨v, hv⟩ := ok.1
    rw [List.cons_append, followAll, Traced.log_bind_of_ok hv, ih ok.2, List.flatMap_cons,
      List.append_assoc]

/-- An alias that fails has a defined path, so how it is written does not matter. -/
theorem expand_aliasText_eq_error_iff (name : IsAliasName path) :
    (expand scopes context (.str (aliasText path))).result = .error e ↔
      (expandAlias scopes context [] path written).result = .error e := by
  rw [expand_aliasText name]
  cases found : scopes.find? path with
  | none =>
    have kept : ∀ text, (expandAlias scopes context [] path text).result = .ok (.str text) :=
      fun _ => result_expandAlias_of_missing List.not_mem_nil found
    rw [kept, kept]
    simp
  | some target =>
    rw [expandAlias_of_found List.not_mem_nil found, expandAlias_of_found List.not_mem_nil found]

end Alias

namespace Value

variable {scopes : Scopes} {token : String} {value w : Value} {e : CyclicReference}

/-- The places of a value, under the dotted path of its token. -/
def mentionsIn (token : String) (value : Value) : List Mention :=
  value.mentions.map (Mention.mk token)

theorem mentionsIn_eq_map_references :
    value.mentionsIn token = value.references.map fun r => Mention.mk token r.path := by
  rw [mentionsIn, ← map_path_references, List.map_map]
  rfl

/-- The places of references report the references whose path is not defined. -/
theorem filterMap_report? (references : List Reference) :
    (references.map fun r => Mention.mk token r.path).filterMap (Mention.report? scopes) =
      (references.filter fun r => (scopes.find? r.path).isNone).map (Reference.warning token) := by
  induction references with
  | nil => rfl
  | cons r rest ih =>
    rw [List.map_cons, List.filterMap_cons, ih, Mention.report?, List.filter_cons]
    by_cases missing : (scopes.find? r.path).isNone
    · rw [if_pos missing, if_pos missing]
      rfl
    · rw [if_neg missing, if_neg missing]

/-- A place fails on its own exactly when the reference that stands there does. -/
theorem expand_mention_eq_error_iff {r : Reference} (mem : r ∈ value.references) :
    (Mention.expand scopes ⟨token, r.path⟩).result = .error e ↔
      (Alias.expandAlias scopes token [] r.path r.written).result = .error e := by
  have writes := exists_reference_iff.1 ⟨r, mem, rfl⟩
  exact Alias.expand_aliasText_eq_error_iff writes.isAliasName

theorem expand_mention_ok {r : Reference} (mem : r ∈ value.references)
    (ok : ∃ v, (Alias.expandAlias scopes token [] r.path r.written).result = .ok v) :
    ∃ v, (Mention.expand scopes ⟨token, r.path⟩).result = .ok v := by
  rw [Traced.exists_ok_iff] at ok ⊢
  rintro ⟨e, failed⟩
  exact ok ⟨e, (expand_mention_eq_error_iff mem).1 failed⟩

/-- In a value that is expanded, the alias of every place can be expanded on its own. -/
theorem forall_mentionsIn_ok (ok : (Alias.expand scopes token value).result = .ok w) :
    ∀ m ∈ value.mentionsIn token, ∃ v, (m.expand scopes).result = .ok v := by
  intro m hm
  rw [mentionsIn_eq_map_references] at hm
  obtain ⟨r, hr, rfl⟩ := List.mem_map.1 hm
  exact expand_mention_ok hr (Alias.expandWith_ok_iff.1 ⟨w, ok⟩ r hr)

/-- **A value that is expanded** reports its places, each of them once. -/
theorem log_expand_mentions_of_ok (ok : (Alias.expand scopes token value).result = .ok w) :
    (Alias.expand scopes token value).log =
      (value.mentionsIn token).filterMap (Mention.report? scopes) := by
  rw [Alias.log_expand_of_ok ok, missing, mentionsIn_eq_map_references, filterMap_report?]

/-- **A value whose expansion fails** has a first place whose alias fails on its own. The places
before it are reported, and nothing else. -/
theorem log_expand_mentions_of_error
    (failed : (Alias.expand scopes token value).result = .error e) :
    ∃ front m back, value.mentionsIn token = front ++ m :: back ∧
      (∀ other ∈ front, ∃ w, (other.expand scopes).result = .ok w) ∧
      (m.expand scopes).result = .error e ∧
      (Alias.expand scopes token value).log = front.filterMap (Mention.report? scopes) := by
  -- the places are cut where the references are
  obtain ⟨front, r, back, split, ok, failed⟩ := Alias.expandWith_eq_error_iff.1 failed
  refine ⟨front.map fun s => ⟨token, s.path⟩, ⟨token, r.path⟩,
    back.map fun s => ⟨token, s.path⟩, ?_, ?_, ?_, ?_⟩
  · rw [mentionsIn_eq_map_references, split, List.map_append, List.map_cons]
  · intro other hother
    obtain ⟨s, hs, rfl⟩ := List.mem_map.1 hother
    have mem : s ∈ value.references := by simp [split, hs]
    exact expand_mention_ok mem (ok s hs)
  · have mem : r ∈ value.references := by simp [split]
    exact (expand_mention_eq_error_iff mem).2 failed
  · -- what fails has a defined path, so it reports nothing itself
    have silent : (Alias.expandAlias scopes token [] r.path r.written).log = [] := by
      rw [Alias.log_expandAlias_nil, if_neg]
      intro missing
      rw [Option.isNone_iff_eq_none] at missing
      rw [Alias.result_expandAlias_of_missing List.not_mem_nil missing] at failed
      cases failed
    rw [Alias.expand, Alias.log_expandWith, split,
      Alias.log_followAll_of_error ok failed, silent, List.append_nil,
      Alias.flatMap_log_expandAlias_nil, filterMap_report?]

end Value

namespace Token

variable {scopes : Scopes} {loaded tokens : List Token} {e : CyclicReference}

/-- The places of a token. -/
def mentions (t : Token) : List Mention :=
  t.value.mentionsIn t.path.dotted

theorem log_expand (t : Token) :
    (t.expand scopes).log = (Alias.expand scopes t.path.dotted t.value).log := by
  rw [← Traced.log_effect, expand, Traced.effect_bind_pure, Traced.log_effect]

theorem expand_eq_error_iff {t : Token} :
    (t.expand scopes).result = .error e ↔
      (Alias.expand scopes t.path.dotted t.value).result = .error e := by
  rw [← Traced.effect_eq_error_iff, expand, Traced.effect_bind_pure, Traced.effect_eq_error_iff]

/-- Tokens that are expanded report their places one token after the other. -/
theorem log_expandAll_mentions_of_ok (ok : (expandAll scopes loaded).result = .ok tokens) :
    (expandAll scopes loaded).log =
      (loaded.flatMap mentions).filterMap (Mention.report? scopes) := by
  have token : ∀ t : Token, t.mentions.filterMap (Mention.report? scopes) = warnings scopes t := by
    intro t
    rw [mentions, Value.mentionsIn_eq_map_references, Value.filterMap_report?]
    rfl
  rw [log_expandAll_of_ok ok, List.filterMap_flatMap]
  exact List.flatMap_congr fun t _ => (token t).symm

/-- A run that fails has stopped at a place of one of the tokens, and kept what was reported until
then. -/
theorem log_expandAll_mentions_of_error (failed : (expandAll scopes loaded).result = .error e) :
    ∃ front m back, loaded.flatMap mentions = front ++ m :: back ∧
      (∀ other ∈ front, ∃ w, (other.expand scopes).result = .ok w) ∧
      (m.expand scopes).result = .error e ∧
      (expandAll scopes loaded).log = front.filterMap (Mention.report? scopes) := by
  induction loaded with
  | nil => cases failed
  | cons t rest ih =>
    rw [expandAll] at failed ⊢
    rw [List.flatMap_cons]
    rcases Traced.bind_eq_error_iff.1 failed with failed | ⟨first, hfirst, failed⟩
    · -- the run stops in the first token
      obtain ⟨front, m, back, split, ok, fails, records⟩ :=
        Value.log_expand_mentions_of_error (expand_eq_error_iff.1 failed)
      refine ⟨front, m, back ++ rest.flatMap mentions, ?_, ok, fails, ?_⟩
      · rw [mentions, split, List.append_assoc, List.cons_append]
      · rw [Traced.bind_of_error failed]
        exact (log_expand t).trans records
    · -- it stops later, and all places of the first token precede
      obtain ⟨v, hv, -⟩ := expand_eq_ok_iff.1 hfirst
      have failed : (expandAll scopes rest).result = .error e := by
        rcases Traced.bind_eq_error_iff.1 failed with failed | ⟨more, -, returned⟩
        · exact failed
        · cases returned
      obtain ⟨front, m, back, split, ok, fails, records⟩ := ih failed
      refine ⟨t.mentions ++ front, m, back, ?_, ?_, fails, ?_⟩
      · rw [split, List.append_assoc]
      · rw [List.forall_mem_append]
        exact ⟨Value.forall_mentionsIn_ok hv, ok⟩
      · rw [Traced.log_bind_of_ok hfirst, Traced.bind_of_error failed, log_expand,
          Value.log_expand_mentions_of_ok hv, records, List.filterMap_append]
        rfl

/-- **Every missing alias is reported once, where it is written.** A run over tokens that returns
has made one record for each place of a token whose path no scope defines, in the order of the
tokens and of the places in them, and no other record. A run that fails has come to a place whose
alias fails on its own, with the same cycle; the aliases of the places before it can be expanded,
and exactly these places have been reported. -/
theorem reports_missing_where_written (scopes : Scopes) (loaded : List Token) :
    (∀ tokens, (expandAll scopes loaded).result = .ok tokens →
      (expandAll scopes loaded).log =
        (loaded.flatMap mentions).filterMap (Mention.report? scopes)) ∧
    ∀ e, (expandAll scopes loaded).result = .error e →
      ∃ front m back, loaded.flatMap mentions = front ++ m :: back ∧
        (∀ other ∈ front, ∃ w, (other.expand scopes).result = .ok w) ∧
        (m.expand scopes).result = .error e ∧
        (expandAll scopes loaded).log = front.filterMap (Mention.report? scopes) :=
  ⟨fun _ => log_expandAll_mentions_of_ok, fun _ => log_expandAll_mentions_of_error⟩

/-- A border names a missing width twice, and then a style that leads back to itself. The list in it
is not looked at, and the shadow that follows is not reached. -/
theorem border_reports_until_its_cycle :
    let named := Alias.aliasText
    let scopes : Scopes := [[("style", .str (named "style"))]]
    let border : Token :=
      { path := ⟨"border", []⟩
        value := .object [("width", .str (named "width" ++ " " ++ named "width")),
          ("dash", .list [.str (named "dash")]), ("style", .str ("1px " ++ named "style"))] }
    let shadow : Token := { path := ⟨"shadow", []⟩, value := .str (named "blur") }
    let loaded := [border, shadow]
    let cycle : CyclicReference := ⟨["style", "style"]⟩
    (expandAll scopes loaded).result = .error cycle ∧
    (expandAll scopes loaded).log =
      [.unresolvedReference "width" "border", .unresolvedReference "width" "border"] ∧
    loaded.flatMap mentions =
      [⟨"border", "width"⟩, ⟨"border", "width"⟩, ⟨"border", "style"⟩, ⟨"shadow", "blur"⟩] ∧
    ∃ front m back, loaded.flatMap mentions = front ++ m :: back ∧
      (∀ other ∈ front, ∃ w, (other.expand scopes).result = .ok w) ∧
      (m.expand scopes).result = .error cycle ∧
      (expandAll scopes loaded).log = front.filterMap (Mention.report? scopes) := by
  intro named scopes border shadow loaded cycle
  have failed : (expandAll scopes loaded).result = .error cycle := by decide +kernel
  exact ⟨failed, by decide +kernel, by decide +kernel,
    (reports_missing_where_written scopes loaded).2 cycle failed⟩

end Token

end DesignTokens
