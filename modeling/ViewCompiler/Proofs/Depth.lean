import ViewCompiler.Proofs.Rendering
import ViewCompiler.Proofs.Views

/-!
# The Depth of a Query

How deep a query nests, and how deep its cost tree says it does.

There are three numbers. A statement nests selects that read views, one inside
the other (`Select.nesting`). A request nests levels, one for each relation on
the way down (`QueryNode.depth`). And the cost tree of a compiled query has a
depth, which decides whether the query is marked as potentially of high cost.

The first two are the same. The third need not be. A statement has a column for
every field, but a cost tree holds its children by the names of their results,
and of several siblings with one name it keeps the last. What it counts are
therefore the levels below the fields that no sibling overwrites. That is never
too much, and it is right if the relations of each level have different names,
but an alias can hide a deep field behind a shallow one
(`maxDepth_lt_nesting_hidden`).

## Main definitions

* `Select.nesting`: How many selects that read views nest in a tree.
* `Counting`: Which fields of a level are counted as levels below it.
* `everyRelation`, `lastRelation`: All relations, or those that are not
  overwritten.
* `QueryNode.depth`: The number of levels on the longest way down.
* `QueryNode.distinctKeys`: No two relations of a level have the same name.
* `Entries.last`: The writes of a list that no later one overwrites.

## Theorems

* `nesting_le_selects`: A tree nests no more selects than it has.
* `Entries.mem_ofList_iff`: What is left after the writes of a list.
* `resolve_depth`: The nesting and the cost tree of a level.
* `compileQuery_depth`: The nesting and the cost tree of a query.
-/

namespace ViewCompiler

open Json Sql Schema

namespace Sql

/-! ### Nesting -/

/-- The number of views that a select itself reads. -/
def Source.viewCount : Option Source → Nat
  | some (.view _ _) => 1
  | _ => 0

mutual
/-- The nesting of a column. -/
def Column.nesting : Column → Nat
  | .physical _ _ => 0
  | .param _ => 0
  | .rowToJson _ => 0
  | .jsonAgg c => c.nesting
  | .subSelect s => s.nesting
  | .array c _ => c.nesting
  | .null => 0
/-- The greatest nesting of a list of columns. -/
def Column.nestingOfList : List Column → Nat
  | [] => 0
  | c :: cs => max c.nesting (Column.nestingOfList cs)
/-- The nesting of a predicate. -/
def Predicate.nesting : Predicate → Nat
  | .always => 0
  | .never => 0
  | .compare _ l r => max l.nesting r.nesting
  | .isIn c es => max c.nesting (Column.nestingOfList es)
  | .isNull c => c.nesting
  | .isNotNull c => c.nesting
  | .and l r => max l.nesting r.nesting
/-- The greatest nesting of the columns of a select. -/
def SelectItem.nestingOfList : List SelectItem → Nat
  | [] => 0
  | ⟨c, _⟩ :: is => max c.nesting (SelectItem.nestingOfList is)
/-- The nesting inside an optional source. -/
def Source.nestingOfOption : Option Source → Nat
  | some (.subSelect s _) => s.nesting
  | _ => 0
/-- The greatest nesting of the columns of a sort. -/
def OrderTerm.nestingOfList : List OrderTerm → Nat
  | [] => 0
  | ⟨c, _⟩ :: ts => max c.nesting (OrderTerm.nestingOfList ts)
/-- The greatest nesting of an optional sort. -/
def OrderTerm.nestingOfOption : Option (List OrderTerm) → Nat
  | none => 0
  | some ts => OrderTerm.nestingOfList ts
/-- The greatest number of selects that read views and are nested inside one
    another. -/
def Select.nesting : Select → Nat
  | ⟨columns, source, predicate, orderBy, _, _⟩ =>
      Source.viewCount source + max (max (SelectItem.nestingOfList columns) (Source.nestingOfOption source))
        (max predicate.nesting (OrderTerm.nestingOfOption orderBy))
end

theorem Column.nestingOfList_le (cs : List Column)
    (h : ∀ c ∈ cs, c.nesting ≤ c.selects.length) :
    Column.nestingOfList cs ≤ (Column.selectsOfList cs).length := by
  induction cs with
  | nil => exact Nat.zero_le _
  | cons c rest ih =>
      have hc := h c List.mem_cons_self
      have hrest := ih fun d hd => h d (List.mem_cons_of_mem c hd)
      rw [Column.nestingOfList, Column.selectsOfList, List.length_append]
      omega

theorem SelectItem.nestingOfList_le (is : List SelectItem)
    (h : ∀ i ∈ is, i.column.nesting ≤ i.column.selects.length) :
    SelectItem.nestingOfList is ≤ (SelectItem.selectsOfList is).length := by
  induction is with
  | nil => exact Nat.zero_le _
  | cons i rest ih =>
      rcases i with ⟨c, a⟩
      have hc : c.nesting ≤ c.selects.length := h ⟨c, a⟩ List.mem_cons_self
      have hrest := ih fun j hj => h j (List.mem_cons_of_mem _ hj)
      rw [SelectItem.nestingOfList, SelectItem.selectsOfList, SelectItem.selects, List.length_append]
      omega

theorem OrderTerm.nestingOfList_le (ts : List OrderTerm)
    (h : ∀ t ∈ ts, t.column.nesting ≤ t.column.selects.length) :
    OrderTerm.nestingOfList ts ≤ (OrderTerm.selectsOfList ts).length := by
  induction ts with
  | nil => exact Nat.zero_le _
  | cons t rest ih =>
      rcases t with ⟨c, d⟩
      have hc : c.nesting ≤ c.selects.length := h ⟨c, d⟩ List.mem_cons_self
      have hrest := ih fun u hu => h u (List.mem_cons_of_mem _ hu)
      rw [OrderTerm.nestingOfList, OrderTerm.selectsOfList, OrderTerm.selects, List.length_append]
      omega

/-- A tree nests no more selects than it has. -/
theorem nesting_le_selects :
    TreeInduction (fun c => c.nesting ≤ c.selects.length) (fun p => p.nesting ≤ p.selects.length)
      (fun s => s.nesting ≤ s.selects.length) where
  physical tableAlias name := by rw [Column.nesting]; exact Nat.zero_le _
  param p := by rw [Column.nesting]; exact Nat.zero_le _
  rowToJson tableAlias := by rw [Column.nesting]; exact Nat.zero_le _
  jsonAgg c ih := by rw [Column.nesting, Column.selects]; exact ih
  subSelect s ih := by rw [Column.nesting, Column.selects]; exact ih
  array c elementType ih := by rw [Column.nesting, Column.selects]; exact ih
  null := by rw [Column.nesting]; exact Nat.zero_le _
  always := by rw [Predicate.nesting]; exact Nat.zero_le _
  never := by rw [Predicate.nesting]; exact Nat.zero_le _
  compare op l r ihl ihr := by
    rw [Predicate.nesting, Predicate.selects, List.length_append]
    omega
  isIn c es ihc ihes := by
    have hes := Column.nestingOfList_le es ihes
    rw [Predicate.nesting, Predicate.selects, List.length_append]
    omega
  isNull c ih := by rw [Predicate.nesting, Predicate.selects]; exact ih
  isNotNull c ih := by rw [Predicate.nesting, Predicate.selects]; exact ih
  and l r ihl ihr := by
    rw [Predicate.nesting, Predicate.selects, List.length_append]
    omega
  select columns source predicate orderBy limit offset ihcolumns ihsource ihpredicate ihorder := by
    have hcolumns := SelectItem.nestingOfList_le columns ihcolumns
    have hcount : Source.viewCount source ≤ 1 := by
      unfold Source.viewCount
      split <;> decide
    have hsource : Source.nestingOfOption source ≤ (Source.selectsOfOption source).length := by
      cases source with
      | none => exact Nat.zero_le _
      | some source =>
          cases source with
          | view v a => exact Nat.zero_le _
          | subSelect s a =>
              rw [Source.nestingOfOption, Source.selectsOfOption, Source.selects]
              exact ihsource s a rfl
    have horder : OrderTerm.nestingOfOption orderBy ≤
        (OrderTerm.selectsOfOption orderBy).length := by
      cases orderBy with
      | none => exact Nat.zero_le _
      | some terms =>
          rw [OrderTerm.nestingOfOption, OrderTerm.selectsOfOption]
          exact OrderTerm.nestingOfList_le terms (ihorder terms rfl)
    rw [Select.nesting, Select.selects]
    simp only [List.length_cons, List.length_append]
    omega

end Sql

/-! ### What writes leave behind -/

namespace Entries

variable {α : Type}

/-- The writes of a list that no later one overwrites. -/
def last : List (String × α) → List (String × α)
  | [] => []
  | (key, value) :: rest => if key ∈ keys rest then last rest else (key, value) :: last rest

theorem mem_put_iff (key : String) (value : α) (entries : Entries α) (h : (keys entries).Nodup)
    (p : String × α) :
    p ∈ put key value entries ↔ p = (key, value) ∨ (p ∈ entries ∧ p.1 ≠ key) := by
  induction entries with
  | nil => simp [put]
  | cons head rest ih =>
      rcases head with ⟨k, v⟩
      rw [keys, List.map_cons, List.nodup_cons] at h
      by_cases hk : k = key
      · subst hk
        -- The name occurs once, so no other entry has to be left out.
        have hother : ∀ q ∈ rest, q.1 ≠ k := fun q hq heq =>
          h.1 (List.mem_map.mpr ⟨q, hq, heq⟩)
        simp only [put, if_pos, List.mem_cons]
        grind
      · simp only [put, if_neg hk, List.mem_cons, ih h.2]
        grind

/-- What is left after writes is what they leave behind, and what they do not
    overwrite. -/
theorem mem_foldl_put_iff (writes : List (String × α)) (entries : Entries α)
    (h : (keys entries).Nodup) (p : String × α) :
    p ∈ writes.foldl (fun entries w => put w.1 w.2 entries) entries ↔
      p ∈ last writes ∨ (p ∈ entries ∧ p.1 ∉ keys writes) := by
  induction writes generalizing entries with
  | nil => simp [last, keys]
  | cons w rest ih =>
      rcases w with ⟨k, v⟩
      rw [List.foldl_cons, ih _ (nodup_keys_put k v entries h), mem_put_iff k v entries h, last]
      have hkeys : keys ((k, v) :: rest) = k :: keys rest := rfl
      rw [hkeys, List.mem_cons]
      by_cases hk : k ∈ keys rest
      -- A later write of the same name makes this one void.
      · rw [if_pos hk]
        grind
      · rw [if_neg hk, List.mem_cons]
        grind

/-- The entries after the writes of a list are the last ones of each name. -/
theorem mem_ofList_iff (writes : List (String × α)) (p : String × α) :
    p ∈ ofList writes ↔ p ∈ last writes := by
  rw [ofList, mem_foldl_put_iff writes [] List.nodup_nil]
  simp only [List.not_mem_nil, false_and, or_false]

end Entries

namespace CostTree

theorem deepest_le_iff (trees : List (String × CostTree)) (n : Nat) :
    deepest trees ≤ n ↔ ∀ p ∈ trees, p.2.maxDepth ≤ n := by
  induction trees with
  | nil => simp [deepest]
  | cons head rest ih =>
      rw [deepest, Nat.max_le, ih, List.forall_mem_cons]

/-- The depth of trees depends on nothing but which trees there are. -/
theorem deepest_ofList (trees : List (String × CostTree)) :
    deepest (Entries.ofList trees) = deepest (Entries.last trees) := by
  apply Nat.le_antisymm
  · rw [deepest_le_iff]
    intro p hp
    exact (deepest_le_iff _ _).mp (Nat.le_refl _) p ((Entries.mem_ofList_iff trees p).mp hp)
  · rw [deepest_le_iff]
    intro p hp
    exact (deepest_le_iff _ _).mp (Nat.le_refl _) p ((Entries.mem_ofList_iff trees p).mpr hp)

end CostTree

/-! ### The depth of a request -/

/-- Whether a field stands for a relation. -/
def Schema.Entity.isRelation (entity : Entity) (name : String) : Bool :=
  ((entity.field? name).bind Field.relation).isSome

/-- A level gives out a field with its relation, so the name stands for one exactly if
    the field does. -/
theorem Level.isRelation_of_field (level : Level) (name : String) (field : Guarded Field)
    (h : level.field name = .ok field) :
    level.entity.isRelation name = field.value.relation.isSome := by
  rw [Entity.isRelation, ((level.field_eq_ok_iff name field).mp h).1, Option.bind_some]

/-- The result names of the relations among fields. -/
def relationKeys (entity : Entity) (fields : List (String × QueryNode)) : List String :=
  (fields.filter fun field => entity.isRelation field.2.name).map fun field => field.2.resultKey

/-- Which fields are counted as levels below that of an entity. It may depend on
    the fields that come after. -/
abbrev Counting := Entity → QueryNode → List (String × QueryNode) → Bool

/-- Every relation counts. -/
def everyRelation : Counting := fun entity node _ => entity.isRelation node.name

/-- A relation counts if no later one has the same result name. -/
def lastRelation : Counting := fun entity node rest =>
  entity.isRelation node.name && !(relationKeys entity rest).contains node.resultKey

mutual
/-- The number of levels on the longest way down through the fields that
    count. -/
def QueryNode.depth (schema : Schema) (counts : Counting) : QueryNode → Nat
  | .mk _ _ [] _ => 0
  | .mk _ _ ((typeName, fields) :: _) _ =>
      match schema.entity? typeName with
      | none => 0
      | some entity => 1 + QueryNode.depthBelow schema counts entity fields
/-- The greatest depth below the fields of an entity. -/
def QueryNode.depthBelow (schema : Schema) (counts : Counting) (entity : Entity) :
    List (String × QueryNode) → Nat
  | [] => 0
  | (_, node) :: rest =>
      max (if counts entity node rest then node.depth schema counts else 0)
        (QueryNode.depthBelow schema counts entity rest)
end

mutual
/-- Whether the relations of each level have different result names. -/
def QueryNode.distinctKeys (schema : Schema) : QueryNode → Bool
  | .mk _ _ [] _ => true
  | .mk _ _ ((typeName, fields) :: _) _ =>
      match schema.entity? typeName with
      | none => true
      | some entity => decide (relationKeys entity fields).Nodup &&
          QueryNode.distinctKeysBelow schema entity fields
def QueryNode.distinctKeysBelow (schema : Schema) (entity : Entity) :
    List (String × QueryNode) → Bool
  | [] => true
  | (_, node) :: rest => (!entity.isRelation node.name || node.distinctKeys schema) &&
      QueryNode.distinctKeysBelow schema entity rest
end

/-- Counting more fields gives a depth that is not less. -/
theorem depth_mono (schema : Schema) (counts more : Counting)
    (h : ∀ entity node rest, counts entity node rest = true → more entity node rest = true) :
    (∀ node : QueryNode, node.depth schema counts ≤ node.depth schema more) ∧
    ∀ (fields : List (String × QueryNode)) (entity : Entity),
      QueryNode.depthBelow schema counts entity fields ≤
        QueryNode.depthBelow schema more entity fields := by
  refine QueryNode.induction ?_ ?_ ?_ ?_
  · intro name aliasName args
    rw [QueryNode.depth]
    exact Nat.zero_le _
  · intro name aliasName typeName fields more args ih
    rw [QueryNode.depth, QueryNode.depth]
    cases schema.entity? typeName with
    | none => exact Nat.le_refl _
    | some entity => exact Nat.add_le_add_left (ih entity) 1
  · intro entity
    rw [QueryNode.depthBelow]
    exact Nat.zero_le _
  · intro key node rest ihnode ihrest entity
    have hrest := ihrest entity
    rw [QueryNode.depthBelow, QueryNode.depthBelow]
    by_cases hcounts : counts entity node rest = true
    · rw [if_pos hcounts, if_pos (h entity node rest hcounts)]
      omega
    · rw [if_neg hcounts]
      omega

/-- The result names of the relations, seen from the first field. -/
theorem relationKeys_cons (entity : Entity) (key : String) (node : QueryNode)
    (rest : List (String × QueryNode)) :
    relationKeys entity ((key, node) :: rest) =
      if entity.isRelation node.name then node.resultKey :: relationKeys entity rest
      else relationKeys entity rest := by
  simp only [relationKeys, List.filter_cons]
  split <;> rfl

/-- Where no result name repeats, no relation is overwritten. -/
theorem depth_lastRelation (schema : Schema) :
    (∀ node : QueryNode, node.distinctKeys schema = true →
      node.depth schema lastRelation = node.depth schema everyRelation) ∧
    ∀ (fields : List (String × QueryNode)) (entity : Entity),
      (relationKeys entity fields).Nodup →
      QueryNode.distinctKeysBelow schema entity fields = true →
      QueryNode.depthBelow schema lastRelation entity fields =
        QueryNode.depthBelow schema everyRelation entity fields := by
  refine QueryNode.induction ?_ ?_ ?_ ?_
  · intro name aliasName args _
    rw [QueryNode.depth, QueryNode.depth]
  · intro name aliasName typeName fields more args ih h
    rw [QueryNode.distinctKeys] at h
    rw [QueryNode.depth, QueryNode.depth]
    cases hentity : schema.entity? typeName with
    | none => rfl
    | some entity =>
        rw [hentity, Bool.and_eq_true, decide_eq_true_eq] at h
        simp only [ih entity h.1 h.2]
  · intro entity _ _
    rw [QueryNode.depthBelow, QueryNode.depthBelow]
  · intro key node rest ihnode ihrest entity hnodup h
    rw [QueryNode.distinctKeysBelow, Bool.and_eq_true, Bool.or_eq_true, Bool.not_eq_true'] at h
    rw [relationKeys_cons] at hnodup
    rw [QueryNode.depthBelow, QueryNode.depthBelow]
    cases hrelation : entity.isRelation node.name with
    | false =>
        rw [hrelation, if_neg Bool.false_ne_true] at hnodup
        have hrest := ihrest entity hnodup h.2
        simp only [lastRelation, everyRelation, hrelation, Bool.false_and, Bool.false_eq_true,
          if_false, hrest]
    -- No later relation has the name, so this one counts either way.
    | true =>
        rw [hrelation, if_pos rfl, List.nodup_cons] at hnodup
        have hnode := ihnode (h.1.resolve_left (by rw [hrelation]; decide))
        have hrest := ihrest entity hnodup.2 h.2
        simp only [lastRelation, everyRelation, hrelation, List.contains_eq_mem, hnodup.1,
          decide_false, Bool.not_false, Bool.and_self, if_true, hnode, hrest]

/-! ### The depth of a compiled query -/

/-- The JSON around the rows of a level nests no further. -/
theorem levelColumn_nesting (fetch : Fetch) (aliasName : String) (rows : Select)
    (resultKey : String) :
    (levelColumn fetch aliasName rows resultKey).column.nesting = rows.nesting := by
  have hjson : (asJson fetch aliasName rows).nesting = rows.nesting := by
    cases fetch <;>
      simp only [asJson, Select.ofSource, Select.nesting, Source.viewCount, Source.nestingOfOption,
        SelectItem.nestingOfList, Column.nesting, Predicate.nesting, OrderTerm.nestingOfOption,
        Nat.max_self, Nat.max_zero, Nat.zero_max, Nat.zero_add]
  rw [levelColumn, Column.nesting, hjson]

/-- A level reads one view, inside of which only its columns nest further. -/
theorem assembleLevel_nesting (schema : Schema) (fetch : Fetch) (level : Level)
    (args : List (String × Value)) (constraint : Option Constraint) (selected : ResolvedFields)
    (clauses : Guarded Clauses) (matching : Predicate) (hclauses : level.clauses args = .ok clauses)
    (hmatching : matchPredicate constraint level.typeName level.entity level.aliasName =
      .ok matching) :
    (assembleLevel schema fetch level selected clauses matching).select.nesting =
      1 + SelectItem.nestingOfList selected.columns := by
  -- Neither the conditions nor the sort hold a select, so they nest none.
  have hpredicate : (matching.conj clauses.value.predicate).nesting = 0 := by
    have hle := nesting_le_selects.forPredicate (matching.conj clauses.value.predicate)
    rw [conj_selects_eq_nil level args constraint clauses matching hclauses hmatching] at hle
    exact Nat.le_zero.mp hle
  have horder : OrderTerm.nestingOfOption clauses.value.orderBy = 0 := by
    have hselects := orderBy_selects_eq_nil level args clauses hclauses
    cases hterms : clauses.value.orderBy with
    | none => rfl
    | some terms =>
        rw [hterms, OrderTerm.selectsOfOption] at hselects
        have hle := OrderTerm.nestingOfList_le terms fun t _ =>
          nesting_le_selects.forColumn t.column
        rw [hselects] at hle
        exact Nat.le_zero.mp hle
  simp only [assembleLevel, Select.nesting, Source.viewCount, Source.nestingOfOption, hpredicate, horder,
    Nat.max_zero]

/-- A level nests as deep as its request, and its cost tree is as deep as the
    request without the relations that are overwritten. By induction over the
    request; the children of a cost tree are followed as the list of writes that
    they come from. -/
theorem resolve_depth (schema : Schema) :
    (∀ (node : QueryNode) (authenticated : Bool) (fetch : Fetch) (position : Position)
      (constraint : Option Constraint) (next : Nat) (r : Resolved),
      resolveLevel schema authenticated fetch position constraint next node = .ok r →
        r.select.nesting = node.depth schema everyRelation ∧
          r.cost.maxDepth = node.depth schema lastRelation) ∧
    ∀ (fields : List (String × QueryNode)) (level : Level) (next : Nat) (r : ResolvedFields),
      resolveFields schema level next fields = .ok r →
        SelectItem.nestingOfList r.columns =
            QueryNode.depthBelow schema everyRelation level.entity fields ∧
          Entries.keys r.children = relationKeys level.entity fields ∧
          CostTree.deepest (Entries.last r.children) =
            QueryNode.depthBelow schema lastRelation level.entity fields := by
  refine QueryNode.induction ?_ ?_ ?_ ?_
  · intro name aliasName args authenticated fetch position constraint next r h
    simp only [resolveLevel, reduceCtorEq] at h
  · intro name aliasName typeName fields more args ih authenticated fetch position constraint next
      r h
    rcases resolveLevel_eq_ok schema authenticated fetch position constraint next name aliasName
      typeName fields more args r h with
      ⟨entity, selected, clauses, matching, hentity, hselected, hclauses, hmatching, rfl⟩
    rcases ih _ _ selected hselected with ⟨hnesting, _, hdeepest⟩
    rw [QueryNode.depth, QueryNode.depth, hentity]
    constructor
    · rw [assembleLevel_nesting schema fetch _ args constraint selected clauses matching hclauses
        hmatching, hnesting]
    · simp only [assembleLevel, CostTree.maxDepth, CostTree.deepest_ofList, hdeepest]
  · intro level next r h
    simp only [resolveFields, Except.ok.injEq] at h
    rw [← h]
    exact ⟨rfl, rfl, rfl⟩
  · intro key node rest ihnode ihrest level next r h
    rcases resolveFields_cons_eq_ok schema level next key node rest r h with
      ⟨field, hfield, ⟨hrel, others, hothers, rfl⟩ |
        ⟨use, fetch, constraint, below, others, hrel, _, hbelow, hothers, rfl⟩⟩
    -- A field that stands for no relation nests nothing.
    · have hrelation : level.entity.isRelation node.name = false := by
        rw [level.isRelation_of_field node.name field hfield, hrel, Option.isSome_none]
      rcases ihrest level next others hothers with ⟨hnesting, hkeys, hdeepest⟩
      rw [relationKeys_cons, QueryNode.depthBelow, QueryNode.depthBelow]
      simp only [ResolvedFields.addColumn, SelectItem.nestingOfList, Column.nesting, lastRelation,
        everyRelation, hrelation, Bool.false_and, Bool.false_eq_true, if_false, hnesting, hkeys,
        hdeepest, Nat.zero_max, and_self]
    -- A relation nests its level, in the statement and among the writes alike.
    · have hrelation : level.entity.isRelation node.name = true := by
        rw [level.isRelation_of_field node.name field hfield, hrel, Option.isSome_some]
      rcases ihnode _ _ _ _ _ below hbelow with ⟨hbelowNesting, hbelowDepth⟩
      rcases ihrest level below.next others hothers with ⟨hnesting, hkeys, hdeepest⟩
      rw [relationKeys_cons, QueryNode.depthBelow, QueryNode.depthBelow, hrelation, if_pos rfl]
      refine ⟨?_, congrArg (node.resultKey :: ·) hkeys, ?_⟩
      · have hcolumn := levelColumn_nesting fetch (localAlias next) below.select node.resultKey
        simp only [ResolvedFields.addLevel, levelColumn, SelectItem.nestingOfList, everyRelation,
          hrelation, if_true, hnesting] at hcolumn ⊢
        rw [hcolumn, hbelowNesting]
      -- Whether the tree below stays depends on the names that come after it.
      · simp only [ResolvedFields.addLevel, Entries.last, hkeys, lastRelation, hrelation,
          Bool.true_and, Bool.not_eq_true', List.contains_eq_mem, decide_eq_false_iff_not]
        by_cases hlater : node.resultKey ∈ relationKeys level.entity rest
        · rw [if_pos hlater, if_neg (not_not_intro hlater), hdeepest, Nat.zero_max]
        · rw [if_neg hlater, if_pos hlater, CostTree.deepest, hbelowDepth, hdeepest]

/-- The nesting of a compiled query and the depth of its cost tree. -/
theorem compileQuery_nesting (schema : Schema) (minDepth : Nat) (authenticated : Bool)
    (constraint : Option Constraint) (node : QueryNode) (c : CompiledQuery)
    (h : schema.compileQuery minDepth authenticated constraint node = .ok c) :
    c.statement.nesting = node.depth schema everyRelation ∧
      c.maxDepth = node.depth schema lastRelation ∧
      c.potentiallyHighCost = decide (minDepth ≤ c.maxDepth) := by
  simp only [Schema.compileQuery, bind_eq_ok_iff, pure, Except.pure, Except.ok.injEq] at h
  rcases h with ⟨r, hr, rfl⟩
  rcases (resolve_depth schema).1 node authenticated .aggregation .top constraint 0 r hr with
    ⟨hnesting, hdepth⟩
  refine ⟨?_, hdepth, rfl⟩
  have hcolumn := levelColumn_nesting .aggregation (localAlias 0) r.select node.resultKey
  simp only [levelColumn] at hcolumn
  simp only [Select.expression, levelColumn, Select.nesting, SelectItem.nestingOfList,
    Source.viewCount, Source.nestingOfOption, Predicate.nesting, OrderTerm.nestingOfOption, hcolumn,
    hnesting, Nat.max_zero, Nat.zero_add]

/-- The depth of a compiled query. Its statement nests as many selects that read
    views as the request nests levels, one more than the relations on the longest
    way down. Its cost tree has the depth of the request without the relations
    that a later sibling of the same result name overwrites, and that depth
    decides whether the query is marked. It is not more than the nesting, and the
    same if no result name repeats among the relations of a level. -/
theorem compileQuery_depth (schema : Schema) (minDepth : Nat) (authenticated : Bool)
    (constraint : Option Constraint) (node : QueryNode) (c : CompiledQuery)
    (h : schema.compileQuery minDepth authenticated constraint node = .ok c) :
    c.statement.nesting = node.depth schema everyRelation ∧
      c.maxDepth = node.depth schema lastRelation ∧
      c.maxDepth ≤ c.statement.nesting ∧
      (c.potentiallyHighCost = true ↔ minDepth ≤ c.maxDepth) ∧
      (node.distinctKeys schema = true →
        c.maxDepth = c.statement.nesting ∧
          (c.potentiallyHighCost = true ↔ minDepth ≤ c.statement.nesting)) := by
  rcases compileQuery_nesting schema minDepth authenticated constraint node c h with
    ⟨hnesting, hdepth, hcost⟩
  have hflag : c.potentiallyHighCost = true ↔ minDepth ≤ c.maxDepth := by
    rw [hcost, decide_eq_true_iff]
  refine ⟨hnesting, hdepth, ?_, hflag, fun hdistinct => ?_⟩
  · rw [hnesting, hdepth]
    refine (depth_mono schema lastRelation everyRelation ?_).1 node
    intro entity node rest hlast
    rw [lastRelation, Bool.and_eq_true] at hlast
    exact hlast.1
  · have hsame : c.maxDepth = c.statement.nesting := by
      rw [hnesting, hdepth, (depth_lastRelation schema).1 node hdistinct]
    rw [← hsame]
    exact ⟨rfl, hflag⟩

/-- The result names of the blog's request are all different, so its three levels
    are counted, and it is marked from a depth of three on. -/
theorem compileQuery_depth_blog :
    ∃ c, Blog.schema.compileQuery 3 true none Blog.request = .ok c ∧
      Blog.request.distinctKeys Blog.schema = true ∧
      c.statement.nesting = 3 ∧ c.maxDepth = 3 ∧ c.potentiallyHighCost = true := by
  have hcompiles : ∃ c, Blog.schema.compileQuery 3 true none Blog.request = .ok c := ⟨_, rfl⟩
  rcases hcompiles with ⟨c, hc⟩
  rcases compileQuery_depth Blog.schema 3 true none Blog.request c hc with
    ⟨hnesting, _, _, _, hdistinct⟩
  rcases hdistinct (by decide) with ⟨hdepth, hcost⟩
  have hthree : c.statement.nesting = 3 := hnesting.trans (by decide)
  exact ⟨c, hc, by decide, hthree, hdepth.trans hthree, hcost.mpr (Nat.le_of_eq hthree.symm)⟩

namespace Blog

/-- The posts of all users with their authors, and once more without, under one
    result name. -/
def hidden : QueryNode where
  name := "users"
  aliasName := none
  fieldsByTypeName := [("User", [
    ("a", ⟨"posts", some "p", [("Post", [
      ("author", ⟨"author", none, [("User", [leaf "name"])], []⟩)])], []⟩),
    ("b", ⟨"posts", some "p", [("Post", [leaf "title"])], []⟩)])]
  args := []

end Blog

/-- A deep field behind a shallow one of the same result name is not counted. The
    statement nests three levels, but the depth of the query is two, and it is
    not marked although three levels are to be. -/
theorem maxDepth_lt_nesting_hidden :
    ∃ c, Blog.schema.compileQuery 3 false none Blog.hidden = .ok c ∧
      c.statement.nesting = 3 ∧ c.maxDepth = 2 ∧ c.potentiallyHighCost = false := by
  have hcompiles : ∃ c, Blog.schema.compileQuery 3 false none Blog.hidden = .ok c := ⟨_, rfl⟩
  rcases hcompiles with ⟨c, hc⟩
  rcases compileQuery_nesting Blog.schema 3 false none Blog.hidden c hc with
    ⟨hnesting, hdepth, hcost⟩
  have htwo : c.maxDepth = 2 := hdepth.trans (by decide)
  refine ⟨c, hc, hnesting.trans (by decide), htwo, ?_⟩
  rw [hcost, htwo]
  decide

end ViewCompiler
