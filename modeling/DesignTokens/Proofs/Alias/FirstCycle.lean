import DesignTokens.Proofs.Alias.Occurrences
import Mathlib.Data.List.Chain
import Mathlib.Data.List.Nodup

/-!
# The cycle that is reported

An expansion that fails reports a chain of paths: those that were entered, and at the end the one
that was met again. The chain is a walk in the graph of paths (`Scopes.Refers`) that begins at a
path of the value, may pass through paths outside any cycle, and stops as soon as it comes back to
itself. There may be many such walks. The one that is reported is the first in depth-first order.

* `Scopes.ReachesAgain` — a chain is a walk from a value that comes back to itself, and does so at
  its last path only.
* `Scopes.MetBefore` — the depth-first order of chains: where two of them part, the one whose path
  is written first comes first.
* `Scopes.Closes` — a walk comes back, to itself or to the paths of a chain that was there before.
  In this form the rest of a walk is a walk again, under a longer chain (`closes_iff`).
* `Scopes.FirstWalk` — the first walk that comes back and begins at one of some paths. It is found
  path by path: what stands before its first path comes back nowhere (`FirstWalk.append`), and the
  rest of it is the first walk from there (`FirstWalk.cons`).
* `expand_eq_error_iff_first_cycle` — an expansion fails with exactly this chain.
-/

namespace DesignTokens

/-- The paths that stand in a value as aliases are those that it writes. -/
theorem Value.mem_mentions_iff {value : Value} {path : String} :
    path ∈ value.mentions ↔ value.Writes path := by
  rw [← map_path_references, List.mem_map, exists_reference_iff]

namespace Scopes

/-- A chain of paths **reaches one of its paths again**: it begins at a path that the value writes,
every path but the last is defined and refers to the next one, all but the last are different, and
the last is one of them. -/
structure ReachesAgain (scopes : Scopes) (value : Value) (chain : List String) : Prop where
  two_le_length : 2 ≤ chain.length
  begins : ∃ path ∈ chain.head?, value.Writes path
  leads : chain.IsChain scopes.Refers
  distinct : chain.dropLast.Nodup
  again : ∃ path ∈ chain.getLast?, chain.dropLast.count path = 1

/-- **Depth-first order.** Of two chains that begin at paths of a list, the one whose path stands
first in it is met first. If they begin at the same path, the value that it stands for decides in
the same way about what follows. -/
inductive MetBefore (scopes : Scopes) : (mentions chain chain' : List String) → Prop
  | here {mentions : List String} {path path' : String} {rest rest' : List String}
      (first : mentions.idxOf path < mentions.idxOf path') :
      MetBefore scopes mentions (path :: rest) (path' :: rest')
  | deeper {mentions : List String} {path : String} {rest rest' : List String} {target : Value}
      (found : scopes.find? path = some target)
      (later : MetBefore scopes target.mentions rest rest') :
      MetBefore scopes mentions (path :: rest) (path :: rest')

/-- A walk **closes** after the paths of a chain: it goes on along references, through paths that
are new, until it comes to a path that is not. -/
inductive Closes (scopes : Scopes) : (chain walk : List String) → Prop
  | again {chain : List String} {path : String} (entered : path ∈ chain) :
      Closes scopes chain [path]
  | enter {chain rest : List String} {path next : String} (fresh : path ∉ chain)
      (refers : scopes.Refers path next) (later : Closes scopes (chain ++ [path]) (next :: rest)) :
      Closes scopes chain (path :: next :: rest)

variable {scopes : Scopes} {chain mentions walk walk' rest : List String} {path : String}
  {target value : Value}

/-! ### Walks that close -/

/-- **A walk that closes** follows references, enters no path twice, and ends with a path that was
entered. -/
theorem closes_iff (nodup : chain.Nodup) :
    scopes.Closes chain walk ↔
      walk.IsChain scopes.Refers ∧ (chain ++ walk.dropLast).Nodup ∧
        ∃ path ∈ walk.getLast?, path ∈ chain ++ walk.dropLast := by
  induction walk generalizing chain with
  | nil =>
    refine iff_of_false (fun closes => nomatch closes) ?_
    rintro ⟨-, -, path, last, -⟩
    exact nomatch last
  | cons path walk ih =>
    cases walk with
    | nil =>
      -- one path alone closes at once or not at all
      have once : scopes.Closes chain [path] ↔ path ∈ chain :=
        ⟨fun closes => by cases closes; assumption, .again⟩
      simp [once, nodup]
    | cons next rest =>
      have split : chain ++ path :: (next :: rest).dropLast =
          (chain ++ [path]) ++ (next :: rest).dropLast := by
        rw [List.append_assoc, List.singleton_append]
      rw [List.isChain_cons_cons, List.getLast?_cons_cons, List.dropLast_cons_cons, split]
      refine ⟨?_, ?_⟩
      · rintro (_ | ⟨fresh, refers, later⟩)
        -- the path is entered, and the rest is a walk after the longer chain
        have longer : (chain ++ [path]).Nodup := List.concat_eq_append ▸ nodup.concat fresh
        obtain ⟨leads, distinct, again⟩ := (ih longer).1 later
        exact ⟨⟨refers, leads⟩, distinct, again⟩
      · rintro ⟨⟨refers, leads⟩, distinct, again⟩
        have longer : (chain ++ [path]).Nodup := distinct.of_append_left
        have fresh : path ∉ chain := fun entered =>
          List.disjoint_of_nodup_append longer entered (List.mem_singleton_self path)
        exact .enter fresh refers ((ih longer).2 ⟨leads, distinct, again⟩)

/-- The chains that reach one of their paths again are the walks that close on their own. -/
theorem reachesAgain_iff :
    scopes.ReachesAgain value chain ↔
      (∃ path ∈ chain.head?, value.Writes path) ∧ scopes.Closes [] chain := by
  rw [closes_iff List.nodup_nil, List.nil_append]
  refine ⟨?_, ?_⟩
  · rintro ⟨-, begins, leads, distinct, path, last, once⟩
    exact ⟨begins, leads, distinct, path, last, List.count_pos_iff.1 (by omega)⟩
  · rintro ⟨begins, leads, distinct, path, last, entered⟩
    refine ⟨?_, begins, leads, distinct, path, last, List.count_eq_one_of_mem distinct entered⟩
    -- the path that is met again was entered before, so the chain holds it and one more
    have nonempty := List.length_pos_of_mem entered
    rw [List.length_dropLast] at nonempty
    omega

/-- A walk that closes leads back, so following an alias of its first path fails. -/
theorem Closes.leadsBack (closes : scopes.Closes chain (path :: rest)) :
    scopes.LeadsBack chain path := by
  generalize hwalk : path :: rest = walk at closes
  induction closes generalizing path rest with
  | again entered =>
    obtain ⟨rfl, -⟩ := List.cons.inj hwalk
    exact .of_mem entered
  | enter fresh refers later ih =>
    obtain ⟨rfl, -⟩ := List.cons.inj hwalk
    exact .of_refers refers (ih rfl)

/-! ### Depth-first order -/

/-- Of two chains at most one is met before the other. -/
theorem MetBefore.asymm (before : scopes.MetBefore mentions walk walk') :
    ¬ scopes.MetBefore mentions walk' walk := by
  induction before with
  | here first =>
    rintro (second | ⟨-, -⟩)
    · exact lt_asymm first second
    · exact lt_irrefl _ first
  | deeper found later ih =>
    rintro (first | ⟨found', later'⟩)
    · exact lt_irrefl _ first
    · -- both go on from the same value
      rw [found] at found'
      obtain rfl := Option.some.inj found'
      exact ih later'

/-- The **first walk** that closes after a chain, of those that begin at one of some paths. -/
structure FirstWalk (scopes : Scopes) (chain mentions walk : List String) : Prop where
  begins : ∃ path ∈ walk.head?, path ∈ mentions
  closes : scopes.Closes chain walk
  first : ∀ walk', (∃ path ∈ walk'.head?, path ∈ mentions) → scopes.Closes chain walk' →
    walk' = walk ∨ scopes.MetBefore mentions walk walk'

namespace FirstWalk

/-- There is only one first walk. -/
theorem unique (h : scopes.FirstWalk chain mentions walk)
    (h' : scopes.FirstWalk chain mentions walk') : walk = walk' := by
  rcases h.first walk' h'.begins h'.closes with same | before
  · exact same.symm
  · exact (h'.first walk h.begins h.closes).resolve_right before.asymm

/-- A path that was entered is a walk of its own, and there is no other one from there. -/
theorem of_mem (entered : path ∈ chain) : scopes.FirstWalk chain [path] [path] := by
  refine ⟨⟨path, rfl, List.mem_singleton_self path⟩, .again entered, ?_⟩
  rintro walk' ⟨path', first, mem⟩ closes
  obtain rfl := List.mem_singleton.1 mem
  cases closes with
  | again _ =>
    obtain rfl := Option.some.inj first
    exact Or.inl rfl
  | enter fresh _ _ =>
    obtain rfl := Option.some.inj first
    exact absurd entered fresh

/-- The first walk from a defined path goes on with the first walk from what its value writes. -/
theorem cons (fresh : path ∉ chain) (found : scopes.find? path = some target)
    (h : scopes.FirstWalk (chain ++ [path]) target.mentions walk) :
    scopes.FirstWalk chain [path] (path :: walk) := by
  obtain ⟨⟨next, head, mem⟩, closes, first⟩ := h
  obtain ⟨rest, rfl⟩ := List.head?_eq_some_iff.1 head
  have refers : scopes.Refers path next := ⟨target, found, Value.mem_mentions_iff.1 mem⟩
  refine ⟨⟨path, rfl, List.mem_singleton_self path⟩, .enter fresh refers closes, ?_⟩
  rintro walk' ⟨path', head', mem'⟩ closes'
  obtain rfl := List.mem_singleton.1 mem'
  cases closes' with
  | again entered =>
    obtain rfl := Option.some.inj head'
    exact absurd entered fresh
  | enter _ refers' later' =>
    obtain rfl := Option.some.inj head'
    -- any other walk goes on from a path of the same value, and is compared there
    obtain ⟨target', found', writes'⟩ := refers'
    rw [found] at found'
    obtain rfl := Option.some.inj found'
    rcases first _ ⟨_, rfl, Value.mem_mentions_iff.2 writes'⟩ later' with same | before
    · exact Or.inl (congrArg _ same)
    · exact Or.inr (.deeper found before)

/-- Paths from which no walk closes may stand before the one that the first walk begins at. -/
theorem append {front back : List String} (h : scopes.FirstWalk chain [path] walk)
    (none : ∀ other ∈ front, ¬ scopes.LeadsBack chain other) :
    scopes.FirstWalk chain (front ++ path :: back) walk := by
  obtain ⟨⟨path', head, mem⟩, closes, first⟩ := h
  obtain rfl := List.mem_singleton.1 mem
  obtain ⟨rest, rfl⟩ := List.head?_eq_some_iff.1 head
  refine ⟨⟨path', rfl, by simp⟩, closes, ?_⟩
  rintro walk' ⟨other, head', mem'⟩ closes'
  obtain ⟨rest', rfl⟩ := List.head?_eq_some_iff.1 head'
  have passed : ∀ {p more}, scopes.Closes chain (p :: more) → p ∉ front :=
    fun closes mem => none _ mem closes.leadsBack
  by_cases same : other = path'
  · -- from the same path the walk was the first one already
    subst same
    rcases first _ ⟨other, rfl, List.mem_singleton_self other⟩ closes' with equal | before
    · exact Or.inl equal
    · cases before with
      | here before => exact absurd before (lt_irrefl _)
      | deeper found later => exact Or.inr (.deeper found later)
  · -- a walk from another path begins further back
    refine Or.inr (.here ?_)
    rw [List.idxOf_append_of_notMem (passed closes), List.idxOf_append_of_notMem (passed closes'),
      List.idxOf_cons_self, List.idxOf_cons_ne _ (Ne.symm same)]
    omega

end FirstWalk

end Scopes

namespace Alias

open Scopes

variable {scopes : Scopes} {context : String} {chain : List String} {path written : String}
  {value : Value} {e : CyclicReference}

/-! ### Failures -/

/-- If aliases that fail report first walks, a value that fails reports the first walk from the
paths that it writes. -/
theorem exists_firstWalk_of_expandWith
    (each : ∀ r ∈ value.references, ∀ e,
      (expandAlias scopes context chain r.path r.written).result = .error e →
        ∃ walk, e.chain = chain ++ walk ∧ scopes.FirstWalk chain [r.path] walk)
    (failed : (expandWith (expandAlias scopes context chain) value).result = .error e) :
    ∃ walk, e.chain = chain ++ walk ∧ scopes.FirstWalk chain value.mentions walk := by
  obtain ⟨front, r, back, split, ok, failed⟩ := expandWith_eq_error_iff.1 failed
  have mem : r ∈ value.references := by simp [split]
  obtain ⟨walk, reported, first⟩ := each r mem e failed
  -- the references before it could be followed, so none of them leads back
  have none : ∀ other ∈ front.map Reference.path, ¬ scopes.LeadsBack chain other := by
    intro other hother
    obtain ⟨s, hs, rfl⟩ := List.mem_map.1 hother
    exact expandAlias_ok_iff.1 (ok s hs)
  refine ⟨walk, reported, ?_⟩
  rw [← Value.map_path_references, split, List.map_append, List.map_cons]
  exact first.append none

/-- **An alias that fails reports the first walk from its path**, after the chain that was there. -/
theorem exists_firstWalk_of_expandAlias
    (failed : (expandAlias scopes context chain path written).result = .error e) :
    ∃ walk, e.chain = chain ++ walk ∧ scopes.FirstWalk chain [path] walk := by
  induction chain using chainInduction scopes generalizing path written e with
  | step chain ih =>
    by_cases entered : path ∈ chain
    · rw [expandAlias_of_mem entered] at failed
      obtain rfl := Except.error.inj failed
      exact ⟨[path], rfl, .of_mem entered⟩
    cases found : scopes.find? path with
    | none =>
      rw [result_expandAlias_of_missing entered found] at failed
      cases failed
    | some target =>
      rw [expandAlias_of_found entered found] at failed
      obtain ⟨walk, reported, first⟩ := exists_firstWalk_of_expandWith
        (fun r _ e failed => ih path target entered found failed) failed
      refine ⟨path :: walk, ?_, first.cons entered found⟩
      rw [reported, List.append_assoc, List.singleton_append]

/-- An expansion that fails reports the first walk from the paths that its value writes. -/
theorem expand_eq_error_iff_firstWalk :
    (expand scopes context value).result = .error e ↔
      scopes.FirstWalk [] value.mentions e.chain := by
  have reports : ∀ {e}, (expand scopes context value).result = .error e →
      scopes.FirstWalk [] value.mentions e.chain := by
    intro e failed
    obtain ⟨walk, reported, first⟩ := exists_firstWalk_of_expandWith
      (fun r _ e failed => exists_firstWalk_of_expandAlias failed) failed
    rwa [reported, List.nil_append]
  refine ⟨reports, fun first => ?_⟩
  -- a walk that closes makes the expansion fail, and then it reports this walk
  obtain ⟨path, head, mem⟩ := first.begins
  obtain ⟨rest, hrest⟩ := List.head?_eq_some_iff.1 head
  have back : scopes.LeadsBack [] path := (hrest ▸ first.closes).leadsBack
  obtain ⟨r, hr, rfl⟩ := Value.exists_reference_iff.2 (Value.mem_mentions_iff.1 mem)
  obtain ⟨e', failed⟩ := expandWith_error_iff.2 ⟨r, hr, expandAlias_error_iff.2 back⟩
  have same : e'.chain = e.chain := (reports failed).unique first
  rwa [show e = e' from congrArg CyclicReference.mk same.symm]

/-- **A reported cycle is a real one, and the first one.** An expansion fails with a chain exactly
if the chain is a walk from its value that comes back to itself, at its last path only, and every
other such walk is met later in depth-first order. -/
theorem expand_eq_error_iff_first_cycle (scopes : Scopes) (context : String) (value : Value)
    (e : CyclicReference) :
    (expand scopes context value).result = .error e ↔
      scopes.ReachesAgain value e.chain ∧
        ∀ chain, scopes.ReachesAgain value chain →
          chain = e.chain ∨ scopes.MetBefore value.mentions e.chain chain := by
  rw [expand_eq_error_iff_firstWalk, reachesAgain_iff]
  simp only [reachesAgain_iff, ← Value.mem_mentions_iff]
  refine ⟨?_, ?_⟩
  · rintro ⟨begins, closes, first⟩
    exact ⟨⟨begins, closes⟩, fun chain h => first chain h.1 h.2⟩
  · rintro ⟨⟨begins, closes⟩, first⟩
    exact ⟨begins, closes, fun chain begins closes => first chain ⟨begins, closes⟩⟩

/-- A border leads through a style to a ring of two paths, from where it is entered back to there.
Another cycle that the border names later is not reported. -/
example :
    let named := aliasText
    let scopes : Scopes :=
      [[("style", .object [("width", .str (named "width")), ("line", .str (named "ring"))]),
        ("ring", .str ("2px " ++ named "gap")), ("gap", .str (named "ring")),
        ("loop", .str (named "loop"))]]
    (expand scopes "border" (.str (named "style" ++ named "loop"))).result =
      .error ⟨["style", "ring", "gap", "ring"]⟩ := by
  decide +kernel

end Alias

end DesignTokens
