import ViewCompiler.Proofs.Places

/-!
# Aliases

That the sources of a compiled query can be told apart, and that every reference
reaches the one it is meant for.

Aliases come from a counter that is handed from level to level, and from a field
to the next one beside it. What comes out does not depend on how the request is
nested: the level with the number `i` has the aliases `2 * i` and `2 * i + 1`, so
the aliases of a statement are those from zero on, each of them once.

References are counted per select. A level refers to its own columns by its own
alias, and its link holds one reference more, to the level around it
(`Place.Hygienic`). That is a statement about numbers and says nothing yet about
what an alias stands for where it is used. `Select.WellScoped` does: it follows
the tree downwards with the aliases that can be seen, the innermost first, asks
of every reference that it reaches no further than to the first of them, and of
every source that its alias is new. A nested select could only come between a
reference and its source if two sources had the same alias, one inside the other.

## Main definitions

* `Select.fromAliases`: The aliases that a tree introduces.
* `Select.WellScoped`: All references are in scope, and none is captured.
* `Place.linkAliases`: What the link of a place refers to.
* `Place.Hygienic`: A select whose references keep to their level.

## Theorems

* `fromAliases_laidOut`: The aliases of numbered levels.
* `Place.FilledBy.hygienic`: The rows of a place keep to their level.
* `Place.FilledBy.wellScoped`: And to the aliases that they can see.
* `resolve_wellScoped`: So do all the levels below.
* `compileQuery_aliases`: The aliases of a query.
-/

namespace ViewCompiler

open Json Sql Schema

namespace Sql

/-- The aliases that a tree introduces, those of an outer select first. -/
def Select.fromAliases (s : Select) : List String :=
  s.selects.filterMap Select.fromAlias?

/-- The selects that a column holds, without those inside of them. -/
def Column.inner : Column → List Select
  | .jsonAgg c => c.inner
  | .array c _ => c.inner
  | .subSelect s => [s]
  | _ => []

/-- The aliases that can be seen inside of a select, which stands where those of
    `scope` can be. -/
def Select.scopeInside (scope : List String) (s : Select) : List String :=
  s.fromAlias?.toList ++ scope

/-- Where the aliases of `scope` can be seen, the innermost first, a select takes
    rows of its own source and refers to columns of that and of the innermost one
    around it. No source has an alias that can already be seen where it stands. A
    source does not see its own alias, and neither does what is inside of it. -/
inductive Select.WellScoped : List String → Select → Prop
  | intro (scope : List String) (s : Select)
      (fresh : ∀ aliasName ∈ s.fromAlias?, aliasName ∉ scope)
      (references : ∀ r ∈ s.references, r.1 ∈ s.fromAlias? ∨ r.1 ∈ scope.head?)
      (rowAliases : ∀ aliasName ∈ s.rowAliases, aliasName ∈ s.fromAlias?)
      (source : ∀ rows aliasName, s.source = some (.subSelect rows aliasName) →
        Select.WellScoped scope rows)
      (inner : ∀ column ∈ s.ownColumns, ∀ t ∈ column.inner,
        Select.WellScoped (s.scopeInside scope) t) :
      Select.WellScoped scope s

theorem Column.inner_eq_nil (c : Column) (h : c.selects = []) : c.inner = [] := by
  match c with
  | .physical _ _ => rfl
  | .param _ => rfl
  | .rowToJson _ => rfl
  | .null => rfl
  | .jsonAgg c =>
      rw [Column.selects] at h
      exact Column.inner_eq_nil c h
  | .array c _ =>
      rw [Column.selects] at h
      exact Column.inner_eq_nil c h
  | .subSelect ⟨_, _, _, _, _, _⟩ =>
      rw [Column.selects, Select.selects] at h
      exact absurd h (List.cons_ne_nil _ _)

end Sql

/-! ### Numbers -/

/-- Levels that are numbered one by one have their aliases one by one. -/
theorem fromAliases_laidOut (ps : List Place) (ws : List (Fetch × Select)) (number : Nat)
    (hsources : List.Forall₂ (fun p w => w.2.fromAlias? = some p.rowsAlias) ps ws)
    (hnumbers : ps.map Place.number = List.range' number ps.length) :
    (laidOut number ws).filterMap Select.fromAlias? =
      (List.range' (2 * number) (2 * ps.length)).map localAlias := by
  induction hsources generalizing number with
  | nil => rfl
  | @cons p w ps ws hsource _ ih =>
      rcases w with ⟨fetch, rows⟩
      rw [List.map_cons, List.length_cons, List.range'_succ, List.cons.injEq] at hnumbers
      have hjson : (asJson fetch (localAlias (2 * number)) rows).fromAlias? =
          some (localAlias (2 * number)) := rfl
      have hrows : rows.fromAlias? = some (localAlias (2 * number + 1)) := by
        rw [← hnumbers.1]
        exact hsource
      -- Each place takes two aliases out of the range.
      have hlength : 2 * (ps.length + 1) = 2 * ps.length + 1 + 1 := by omega
      rw [laidOut, List.filterMap_cons, hjson, List.filterMap_cons, hrows, ih _ hnumbers.2,
        List.length_cons, hlength, List.range'_succ, List.range'_succ, List.map_cons, List.map_cons]
      rfl

/-! ### The references of a level -/

namespace Place

/-- The aliases that the condition refers to by which the rows of a place are
    chosen, in some order. Rows that belong to a row of another level are matched
    by one column of each. -/
def linkAliases (p : Place) : List String :=
  match p.entry with
  | .all => []
  | .anchored _ => [p.rowsAlias]
  | .related enclosing _ => [p.rowsAlias, localAlias (2 * enclosing + 1)]

/-- A select of the rows of a place that refers to its own columns by its own
    alias, and to another only in its link. -/
structure Hygienic (schema : Schema) (p : Place) (s : Select) : Prop where
  source : s.source = some (.view (p.level.view schema) p.rowsAlias)
  columns : ∀ item ∈ s.columns, ∀ r ∈ item.column.references, r.1 = p.rowsAlias
  predicate : ∃ link filter : Predicate, s.predicate = link.conj filter ∧
    s.predicate.references = link.references ++ filter.references ∧
    (link.references.map Prod.fst).Perm p.linkAliases ∧
    ∀ r ∈ filter.references, r.1 = p.rowsAlias
  orderBy : ∀ term ∈ s.orderBy.getD [], ∀ r ∈ term.column.references, r.1 = p.rowsAlias
  rowAliases : s.rowAliases = []

/-- A link refers to the sides that it links, each by one column. -/
theorem link_aliases (schema : Schema) (p : Place) (link : Predicate)
    (h : p.entry.LinkedBy schema p.level.entity p.rowsAlias link) :
    link.columns.flatMap Column.rowAliases = [] ∧
      (link.references.map Prod.fst).Perm p.linkAliases := by
  rcases p with ⟨number, entry, level⟩
  cases entry with
  | all =>
      rw [show link = .always from h]
      exact ⟨rfl, List.Perm.refl _⟩
  | anchored child =>
      rcases h with ⟨v, rfl⟩
      rcases literal_cases v with hnull | ⟨text, htext⟩
      · rw [hnull]
        exact ⟨rfl, List.Perm.refl _⟩
      · rw [htext]
        exact ⟨rfl, List.Perm.refl _⟩
  | related enclosing use =>
      rcases h with ⟨sides, _, hlink⟩
      rcases use.link?_references sides level.entity _ _ link hlink with
        ⟨hrows, innerName, outerName, hreferences, _⟩
      exact ⟨hrows, hreferences.map Prod.fst⟩

variable {schema : Schema} {p : Place} {s : Select}

theorem FilledBy.hygienic (h : p.FilledBy schema s) : p.Hygienic schema s := by
  rcases h.predicate with ⟨link, filter, hconj, hcolumns, hlinked, _, hfilter⟩
  rcases p.link_aliases schema link hlinked with ⟨hrows, haliases⟩
  refine ⟨h.source, fun item hitem r hr => ((h.columns item hitem).2 r hr).1,
    ⟨link, filter, hconj, ?_, haliases, ?_⟩,
    fun term hterm r hr => ((h.orderBy term hterm).2 r hr).1, ?_⟩
  · rw [Predicate.references, hcolumns, List.flatMap_append]
    rfl
  · intro r hr
    rcases List.mem_flatMap.mp hr with ⟨c, hc, hr⟩
    exact ((hfilter c hc).2 r hr).1
  · rw [Select.rowAliases, Select.ownColumns, hcolumns, List.flatMap_append, List.flatMap_append,
      List.flatMap_append, hrows]
    simp only [List.nil_append, List.append_eq_nil_iff, List.flatMap_eq_nil_iff, List.mem_map,
      forall_exists_index, and_imp, forall_apply_eq_imp_iff₂]
    exact ⟨⟨fun item hitem => (h.columns item hitem).1, fun c hc => (hfilter c hc).1⟩,
      fun term hterm => (h.orderBy term hterm).1⟩

/-- The references of a hygienic select name its own alias, or one of its link. -/
theorem Hygienic.references (h : p.Hygienic schema s) :
    ∀ r ∈ s.references, r.1 = p.rowsAlias ∨ r.1 ∈ p.linkAliases := by
  rcases h.predicate with ⟨link, filter, _, hreferences, haliases, hfilter⟩
  intro r hr
  simp only [Select.references, Select.ownColumns, List.flatMap_append, List.mem_append] at hr
  rcases hr with (hcolumns | hpredicate) | horder
  · rcases List.mem_flatMap.mp hcolumns with ⟨c, hc, hr⟩
    rcases List.mem_map.mp hc with ⟨item, hitem, rfl⟩
    exact Or.inl (h.columns item hitem r hr)
  · rw [show List.flatMap Column.references s.predicate.columns = _ from hreferences,
      List.mem_append] at hpredicate
    rcases hpredicate with hlink | hown
    · exact Or.inr (haliases.mem_iff.mp (List.mem_map_of_mem hlink))
    · exact Or.inl (hfilter r hown)
  · rcases List.mem_flatMap.mp horder with ⟨c, hc, hr⟩
    rcases List.mem_map.mp hc with ⟨term, hterm, rfl⟩
    exact Or.inl (h.orderBy term hterm r hr)

/-- The rows of a place are in scope if the level around it is the innermost one
    that can be seen, and if what they hold is in scope. -/
theorem FilledBy.wellScoped (h : p.FilledBy schema s) (scope : List String)
    (hfresh : p.rowsAlias ∉ scope)
    (henclosing : ∀ enclosing use, p.entry = .related enclosing use →
      scope.head? = some (localAlias (2 * enclosing + 1)))
    (hinner : ∀ column ∈ s.ownColumns, ∀ t ∈ column.inner, t.WellScoped (p.rowsAlias :: scope)) :
    s.WellScoped scope := by
  have halias : s.fromAlias? = some p.rowsAlias := by rw [Select.fromAlias?, h.source]; rfl
  have hlink : ∀ aliasName ∈ p.linkAliases,
      aliasName = p.rowsAlias ∨ aliasName ∈ scope.head? := by
    intro aliasName hmem
    unfold linkAliases at hmem
    split at hmem
    · exact absurd hmem List.not_mem_nil
    · exact Or.inl (List.mem_singleton.mp hmem)
    · rename_i enclosing use hentry
      simp only [List.mem_cons, List.not_mem_nil, or_false] at hmem
      rw [henclosing enclosing use hentry]
      exact hmem.imp_right fun heq => congrArg some heq.symm
  refine .intro scope s ?_ ?_ ?_ ?_ ?_
  · rw [halias]
    rintro aliasName ⟨rfl⟩
    exact hfresh
  · intro r hr
    rw [halias]
    rcases h.hygienic.references r hr with hown | hother
    · exact Or.inl (congrArg some hown.symm)
    · exact (hlink r.1 hother).imp_left fun heq => congrArg some heq.symm
  · rw [h.hygienic.rowAliases]
    exact fun aliasName hmem => absurd hmem List.not_mem_nil
  · intro rows aliasName hsource
    rw [h.source] at hsource
    simp only [Option.some.injEq, reduceCtorEq] at hsource
  · rw [Select.scopeInside, halias]
    exact hinner

end Place

/-! ### Scopes -/

theorem asJson_wellScoped (fetch : Fetch) (aliasName : String) (rows : Select)
    (scope : List String) (hfresh : aliasName ∉ scope) (hrows : rows.WellScoped scope) :
    (asJson fetch aliasName rows).WellScoped scope := by
  rcases asJson_references fetch aliasName rows with ⟨hreferences, hrowAliases⟩
  refine .intro scope _ ?_ ?_ ?_ ?_ ?_
  · rintro _ ⟨rfl⟩
    exact hfresh
  · rw [hreferences]
    exact fun r hr => absurd hr List.not_mem_nil
  · rw [hrowAliases]
    intro name hname
    rw [List.mem_singleton.mp hname]
    rfl
  · rintro _ _ ⟨rfl⟩
    exact hrows
  · intro column hcolumn t ht
    cases fetch <;>
      (rw [List.mem_singleton.mp hcolumn] at ht
       exact absurd ht List.not_mem_nil)

/-- Levels are in scope, together with what is inside of them. By induction over
    the request; all aliases that can be seen have numbers below the counter, so
    those that a level takes are new. -/
theorem resolve_wellScoped (schema : Schema) :
    (∀ (node : QueryNode) (authenticated : Bool) (fetch : Fetch) (position : Position)
      (constraint : Option Constraint) (entry : Entry) (number : Nat) (scope : List String)
      (r : Resolved),
      resolveLevel schema authenticated fetch position constraint (2 * number) node = .ok r →
      entry.Fits schema constraint → (∀ a ∈ scope, ∃ k < 2 * number, a = localAlias k) →
      (∀ enclosing use, entry = .related enclosing use →
        scope.head? = some (localAlias (2 * enclosing + 1))) →
        (asJson fetch (localAlias (2 * number)) r.select).WellScoped scope) ∧
    ∀ (fields : List (String × QueryNode)) (level : Level) (own number : Nat)
      (scope : List String) (r : ResolvedFields),
      resolveFields schema level (2 * number) fields = .ok r →
      level.aliasName = localAlias (2 * own + 1) →
      (∀ a ∈ scope, ∃ k < 2 * number, a = localAlias k) → scope.head? = some level.aliasName →
        ∀ item ∈ r.columns, ∀ t ∈ item.column.inner, t.WellScoped scope := by
  refine QueryNode.induction ?_ ?_ ?_ ?_
  · intro name aliasName args authenticated fetch position constraint entry number scope r h
    simp only [resolveLevel, reduceCtorEq] at h
  · intro name aliasName typeName fields more args ih authenticated fetch position constraint entry
      number scope r h hfits hbelow henclosing
    rcases (resolve_places schema).1 _ authenticated fetch position constraint entry number r h
      hfits with ⟨_, _, _, hfilled⟩
    rcases resolveLevel_eq_ok schema authenticated fetch position constraint _ name aliasName
      typeName fields more args r h with
      ⟨entity, selected, clauses, matching, hentity, hselected, hclauses, hmatching, rfl⟩
    rw [QueryNode.places, hentity] at hfilled
    rcases hfilled with _ | ⟨hplace, _⟩
    -- The aliases of the level start at the counter, and all others are below it.
    have hfresh : ∀ k, 2 * number ≤ k → localAlias k ∉ scope := by
      intro k hk hmem
      rcases hbelow _ hmem with ⟨m, hm, heq⟩
      have := localAlias_injective k m heq
      omega
    refine asJson_wellScoped fetch _ _ scope (hfresh _ (Nat.le_refl _)) ?_
    refine hplace.wellScoped scope (hfresh (2 * number + 1) (Nat.le_succ _)) henclosing
      fun column hcolumn t ht => ?_
    -- What is nested is in the columns: neither a condition nor a sort holds a select.
    have hnone : column.selects ≠ [] := by
      intro hselects
      rw [column.inner_eq_nil hselects] at ht
      exact absurd ht List.not_mem_nil
    simp only [Select.ownColumns, assembleLevel, List.mem_append, List.mem_map] at hcolumn
    rcases hcolumn with (⟨item, hitem, rfl⟩ | hpredicate) | ⟨term, hterm, rfl⟩
    · have hnext : 2 * number + 2 = 2 * (number + 1) := by omega
      rw [hnext] at hselected
      refine ih _ number (number + 1) _ selected hselected rfl ?_ rfl item hitem t ht
      refine List.forall_mem_cons.mpr ⟨⟨2 * number + 1, by omega, rfl⟩, fun a ha => ?_⟩
      rcases hbelow a ha with ⟨k, hk, heq⟩
      exact ⟨k, by omega, heq⟩
    · exact absurd (conj_columns_selects _ args constraint clauses matching hclauses hmatching
        column hpredicate) hnone
    · exact absurd (orderBy_columns_selects _ args clauses hclauses term hterm) hnone
  · intro level own number scope r h _ _ _ item hitem
    simp only [resolveFields, Except.ok.injEq] at h
    rw [← h] at hitem
    exact absurd hitem List.not_mem_nil
  · intro key node rest ihnode ihrest level own number scope r h halias hbelow hown item hitem t ht
    rcases resolveFields_cons_eq_ok schema level (2 * number) key node rest r h with
      ⟨field, _, ⟨_, others, hothers, rfl⟩ |
        ⟨use, fetch, constraint, below, others, hrelation, hlink, hnode, hothers, rfl⟩⟩
    · rcases List.mem_cons.mp hitem with rfl | hother
      · exact absurd ht List.not_mem_nil
      · exact ihrest level own number scope others hothers halias hbelow hown item hother t ht
    · rcases hvalue : field.value with ⟨column, relation⟩
      rw [hvalue] at hrelation hlink
      simp only at hrelation
      subst hrelation
      have hfits := Entry.related_fits schema level own node column use fetch constraint halias
        hlink
      rcases List.mem_cons.mp hitem with rfl | hother
      · rw [List.mem_singleton.mp ht]
        refine ihnode _ fetch _ _ _ number scope below hnode hfits hbelow ?_
        rintro _ _ ⟨rfl, rfl⟩
        rw [← halias]
        exact hown
      -- The other fields see the same aliases, and the counter has gone on.
      · rcases (resolve_places schema).1 node _ fetch _ _ _ number below hnode hfits with
          ⟨inner, _, hnext, _⟩
        rw [hnext] at hothers
        refine ihrest level own _ scope others hothers halias (fun a ha => ?_) hown item hother t ht
        rcases hbelow a ha with ⟨k, hk, heq⟩
        exact ⟨k, by omega, heq⟩

theorem compileQuery_wellScoped (schema : Schema) (minDepth : Nat) (authenticated : Bool)
    (anchor : Option (ChildColumn × Value)) (node : QueryNode) (c : CompiledQuery)
    (h : schema.compileQuery minDepth authenticated
      (anchor.map fun a => .equals a.1 (.value a.2)) node = .ok c) :
    c.statement.WellScoped [] := by
  simp only [Schema.compileQuery, bind_eq_ok_iff, pure, Except.pure, Except.ok.injEq] at h
  rcases h with ⟨r, hr, rfl⟩
  have hjson := (resolve_wellScoped schema).1 node _ _ _ _ (.outermost anchor) 0 [] r hr
    (Entry.outermost_fits schema anchor) (fun a ha => absurd ha List.not_mem_nil) (by
      intro enclosing use hentry
      cases anchor <;> simp only [Entry.outermost, reduceCtorEq] at hentry)
  -- The statement has no source, so its only column sees no alias at all.
  refine .intro [] _ ?_ ?_ ?_ ?_ ?_
  · rintro _ ⟨⟩
  · exact fun r hr => absurd hr List.not_mem_nil
  · exact fun a ha => absurd ha List.not_mem_nil
  · rintro _ _ ⟨⟩
  · intro column hcolumn t ht
    rw [List.mem_singleton.mp hcolumn] at ht
    rw [List.mem_singleton.mp ht]
    exact hjson

/-! ### Queries -/

/-- The aliases of a compiled query, whose outermost level is not restricted, or
    by a value.

    A query with `m` levels introduces the first `2 * m` aliases, each of them
    once. Its selects are the statement and two for each level, the JSON under the
    alias of twice the number of the level and the rows under the next one. Whole
    rows are taken of the source of the select that takes them. The rows of a level
    refer to columns by the alias of the level, and where they belong to a row of
    the level around them, by one reference to that one's alias. No other select
    refers to a column. All that is referred to is in scope, and no source comes
    between a reference and what it refers to. -/
theorem compileQuery_aliases (schema : Schema) (minDepth : Nat) (authenticated : Bool)
    (anchor : Option (ChildColumn × Value)) (node : QueryNode) (c : CompiledQuery)
    (h : schema.compileQuery minDepth authenticated
      (anchor.map fun a => .equals a.1 (.value a.2)) node = .ok c) :
    let places := node.places schema (.outermost anchor) 0
    c.statement.fromAliases =
        (List.range (2 * (node.levels schema).length)).map localAlias ∧
      c.statement.fromAliases.Nodup ∧
      places.map Place.level = node.levels schema ∧
      places.map Place.number = List.range (node.levels schema).length ∧
      (∀ q ∈ places, q.entry = .outermost anchor ∨
        ∃ p ∈ places, ∃ use, q.entry = .related p.number use ∧ p.level.Selects use) ∧
      (∃ wrapped, c.statement.selects = c.statement :: laidOut 0 wrapped ∧
        List.Forall₂ (fun p w => p.Hygienic schema w.2) places wrapped ∧
        ∀ s ∈ c.statement.selects, s.references ≠ [] → ∃ w ∈ wrapped, s = w.2) ∧
      (∀ s ∈ c.statement.selects, ∀ aliasName ∈ s.rowAliases,
        ∃ rows, s.source = some (.subSelect rows aliasName)) ∧
      c.statement.WellScoped [] := by
  intro places
  rcases compileQuery_places schema minDepth authenticated anchor node c h with
    ⟨wrapped, hselects, hfilled⟩
  have hlevels := (QueryNode.map_level_places schema).1 node (.outermost anchor) 0
  have hlength : places.length = (node.levels schema).length := by
    rw [← hlevels, List.length_map]
  have hnumbers := (QueryNode.map_number_places schema).1 node (.outermost anchor) 0
  rcases compileQuery_statement schema minDepth authenticated _ node c h with
    ⟨hsource, hreferences, hrowAliases⟩
  have haliases : c.statement.fromAliases =
      (List.range (2 * (node.levels schema).length)).map localAlias := by
    have hsources : List.Forall₂ (fun p w => w.2.fromAlias? = some p.rowsAlias) places wrapped :=
      hfilled.imp fun p w hw => by rw [Select.fromAlias?, hw.source]; rfl
    rw [Select.fromAliases, hselects, List.filterMap_cons, hsource, ← hlength,
      List.range_eq_range']
    exact fromAliases_laidOut places wrapped 0 hsources hnumbers
  refine ⟨haliases, ?_, hlevels, ?_, (QueryNode.entry_places schema).1 node (.outermost anchor) 0,
    ⟨wrapped, hselects, hfilled.imp fun p w hw => hw.hygienic,
      eq_rows_of_references c.statement wrapped hreferences hselects⟩, ?_,
    compileQuery_wellScoped schema minDepth authenticated anchor node c h⟩
  · rw [haliases]
    exact (List.nodup_range).map fun m n heq => localAlias_injective m n heq
  · rw [← hlength, List.range_eq_range']
    exact hnumbers
  -- A select is the statement, the rows of a level, or the JSON around these.
  · intro s hs aliasName hmem
    rw [hselects, List.mem_cons] at hs
    rcases hs with rfl | hs
    · rw [hrowAliases] at hmem
      exact absurd hmem List.not_mem_nil
    · rcases mem_laidOut 0 wrapped s hs with ⟨w, hw, rfl | ⟨name, rfl⟩⟩
      · rcases List.forall₂_iff_get.mp hfilled with ⟨hcount, hget⟩
        rcases List.mem_iff_get.mp hw with ⟨i, rfl⟩
        have hplace := hget i.1 (Nat.lt_of_lt_of_eq i.2 hcount.symm) i.2
        rw [hplace.hygienic.rowAliases] at hmem
        exact absurd hmem List.not_mem_nil
      · rw [(asJson_references w.1 name w.2).2, List.mem_singleton] at hmem
        rw [hmem]
        exact ⟨w.2, rfl⟩

/-- The blog's request for one user has three levels and six aliases. The posts are
    linked to the user, and the authors to the posts. -/
theorem compileQuery_aliases_blog :
    ∃ c, Blog.schema.compileQuery 3 true (some (.onId (.string "7"))) Blog.request = .ok c ∧
      c.statement.fromAliases =
        ["_local_0_", "_local_1_", "_local_2_", "_local_3_", "_local_4_", "_local_5_"] ∧
      (Blog.request.places Blog.schema (.anchored .primaryKey) 0).map Place.linkAliases =
        [["_local_1_"], ["_local_3_", "_local_1_"], ["_local_5_", "_local_3_"]] ∧
      c.statement.WellScoped [] := by
  have hcompiles : ∃ c,
      Blog.schema.compileQuery 3 true (some (.onId (.string "7"))) Blog.request = .ok c := ⟨_, rfl⟩
  rcases hcompiles with ⟨c, hc⟩
  rcases compileQuery_aliases Blog.schema 3 true (some (.primaryKey, .string "7")) Blog.request c
    hc with ⟨haliases, _, _, _, _, _, _, hscoped⟩
  exact ⟨c, hc, haliases, rfl, hscoped⟩

end ViewCompiler
