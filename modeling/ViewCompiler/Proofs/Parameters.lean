import ViewCompiler.Proofs.Correctness
import ViewCompiler.Proofs.Literals
import ViewCompiler.Proofs.Sites
import ViewCompiler.Proofs.SortedValues

/-!
# Which Value Is Bound to Which Placeholder

The parameters of a compiled query, read off its request.

A level reads its arguments after it has resolved the levels below it, but that
does not decide in which order values are bound. They are bound in the order in
which the statement is written, and there the nested levels stand in the list of
columns, in front of the conditions and the page. `QueryNode.params` lists the
values of a request in that order: those of the levels below, field by field,
then a value that the rows are matched with, then the operands of the filter,
then the bounds of the page. The order of the arguments plays no part in it.

A tree *binds* values if these are its leaves, in order, and each of them is
written behind a word that calls for it. This is what every part of a level is
shown to do, from the operators of a condition up to the statement as a whole.

## Main definitions

* `boundParams`, `operandParams`, `filterParams`, `countParams`: The parameters
  of an argument.
* `QueryNode.params`: The parameters of a request.
* `Predicate.Binds`, `Select.Binds`: Trees with their parameters.

## Theorems

* `Predicate.Binds.conj`, `Predicate.Binds.all`: Conjunctions bind the values of
  their parts.
* `Level.filter_binds`: A filter binds its operands.
* `resolve_binds`: A level binds the values of its node.
* `compileQuery_params`: A query binds the values of its request.
-/

namespace ViewCompiler

open Json Sql Schema

/-! ### The parameters of a request -/

/-- A value as a parameter. There is none for `null`. -/
def boundParams (v : Value) : List Param :=
  (boundText? v).toList.map fun text => .text (some text)

/-- The parameters of an operator: one for each element of a list, none for a
    test. -/
def operandParams (operator : String) (operand : Value) : List Param :=
  if operator = "isNull" then []
  else if operator = "in" then
    match operand with
    | .array elements => elements.flatMap boundParams
    | _ => []
  else boundParams operand

/-- The parameters of a condition on a field. -/
def conditionParams (entry : String × Value) : List Param :=
  match entry.2 with
  | .object operations => operations.flatMap fun operation => operandParams operation.1 operation.2
  | v => boundParams v

/-- The parameters of a filter, condition by condition. -/
def filterParams : Value → List Param
  | .object conditions => conditions.flatMap conditionParams
  | _ => []

/-- A page bound as a parameter, if there is one. -/
def countParams (v : Value) : List Param :=
  (rowCount v).toList.map Param.int8

/-- The parameters of a constraint: the value that the caller gives. -/
def Constraint.params : Constraint → List Param
  | .equals _ (.value v) => boundParams v
  | _ => []

mutual
/-- The parameters of a request, in the order in which they are bound, with those
    of the constraint on its outermost level. -/
def QueryNode.params (schema : Schema) (matched : List Param) : QueryNode → List Param
  | .mk _ _ [] _ => []
  | .mk _ _ ((typeName, fields) :: _) args =>
      match schema.entity? typeName with
      | none => []
      | some entity =>
          QueryNode.paramsBelow schema entity fields ++ matched ++
            filterParams (given args "where") ++ countParams (given args "limit") ++
            countParams (given args "offset")
/-- The parameters of the levels that the relations among the fields of an entity
    lead to. -/
def QueryNode.paramsBelow (schema : Schema) (entity : Entity) :
    List (String × QueryNode) → List Param
  | [] => []
  | (_, node) :: rest =>
      (if ((entity.field? node.name).bind Field.relation).isSome then node.params schema []
        else []) ++ QueryNode.paramsBelow schema entity rest
end

namespace Sql

/-! ### Predicates -/

/-- A predicate that binds the given values. The predicate that no row satisfies
    is left out, because it would swallow the values of others. -/
structure Predicate.Binds (p : Predicate) (params : List Param) : Prop where
  live : p ≠ .never
  values : valuesOf p.leaves = params
  sited : Sited (p.pieces true)

namespace Predicate.Binds

theorem always : Predicate.always.Binds [] :=
  ⟨by rintro ⟨⟩, by rw [Predicate.leaves]; rfl, Sited.text _ Sited.nil⟩

/-- A conjunction binds the values of its parts, one after the other. -/
theorem conj {p q : Predicate} {ps qs : List Param} (hp : p.Binds ps) (hq : q.Binds qs) :
    (p.conj q).Binds (ps ++ qs) := by
  unfold Predicate.conj
  split
  · exact absurd rfl hp.live
  · exact absurd rfl hq.live
  · rw [← hp.values, Predicate.leaves]
    exact hq
  · rw [← hq.values, Predicate.leaves]
    exact (List.append_nil ps).symm ▸ hp
  · refine ⟨by rintro ⟨⟩, ?_, ?_⟩
    · rw [Predicate.leaves, valuesOf_append, hp.values, hq.values]
    · rw [Predicate.pieces]
      exact (hp.sited.append ((hq.sited.append (Sited.text ")" Sited.nil)).text " AND ")).text "("

theorem all {predicates : List Predicate} {params : List (List Param)}
    (h : List.Forall₂ Predicate.Binds predicates params) :
    (Predicate.all predicates).Binds params.flatten := by
  suffices hfold : ∀ (start : Predicate) (ps : List Param), start.Binds ps →
      (predicates.foldl Predicate.conj start).Binds (ps ++ params.flatten) from hfold _ [] always
  induction h with
  | nil =>
      intro start ps hstart
      rw [List.flatten_nil, List.append_nil]
      exact hstart
  | cons hp _ ih =>
      intro start ps hstart
      rw [List.flatten_cons, ← List.append_assoc]
      exact ih _ _ (hstart.conj hp)

theorem compare (op : Comparison) (tableAlias name text : String) (hop : op ≠ .contains) :
    (Predicate.compare op (.physical tableAlias name) (.param (.text (some text)))).Binds
      [.text (some text)] := by
  refine ⟨by rintro ⟨⟩, by simp only [Predicate.leaves, Column.leaves, List.nil_append]; rfl, ?_⟩
  have hword : (" " ++ op.sign ++ " ") ∈ operandWords := by
    cases op <;> first | decide | exact absurd rfl hop
  rw [Predicate.pieces]
  refine (Sited.physical tableAlias name).append ?_
  rw [Column.pieces]
  exact Sited.bind _ _ (.operand _ text hword) Sited.nil

theorem isNull (tableAlias name : String) :
    (Predicate.isNull (.physical tableAlias name)).Binds [] :=
  ⟨by rintro ⟨⟩, by simp only [Predicate.leaves, Column.leaves]; rfl, by
    rw [Predicate.pieces]
    exact (Sited.physical tableAlias name).append (Sited.text _ Sited.nil)⟩

theorem isNotNull (tableAlias name : String) :
    (Predicate.isNotNull (.physical tableAlias name)).Binds [] :=
  ⟨by rintro ⟨⟩, by simp only [Predicate.leaves, Column.leaves]; rfl, by
    rw [Predicate.pieces]
    exact (Sited.physical tableAlias name).append (Sited.text _ Sited.nil)⟩

/-- A comparison with a value binds it, and a test for `null` binds nothing. -/
theorem equality (tableAlias name : String) (v : Value) :
    (Predicate.equal (.physical tableAlias name) (literal v)).Binds (boundParams v) ∧
      (Predicate.notEqual (.physical tableAlias name) (literal v)).Binds (boundParams v) := by
  unfold literal boundParams
  cases boundText? v with
  | none => exact ⟨isNull tableAlias name, isNotNull tableAlias name⟩
  | some text =>
      exact ⟨compare .eq tableAlias name text (by decide),
        compare .neq tableAlias name text (by decide)⟩

theorem isIn (tableAlias name : String) (texts : List String) (htexts : texts ≠ []) :
    (Predicate.within (.physical tableAlias name)
      (texts.map fun t => .param (.text (some t)))).Binds (texts.map fun t => .text (some t)) := by
  have hwithin : Predicate.within (.physical tableAlias name)
      (texts.map fun t => .param (.text (some t))) =
        .isIn (.physical tableAlias name) (texts.map fun t => .param (.text (some t))) := by
    cases texts with
    | nil => exact absurd rfl htexts
    | cons first more => rfl
  rw [hwithin]
  refine ⟨by rintro ⟨⟩, ?_, ?_⟩
  · simp only [Predicate.leaves, Column.leaves, Column.leavesOfList_eq, List.nil_append,
      List.flatMap_map]
    clear htexts hwithin
    induction texts with
    | nil => rfl
    | cons t rest ih =>
        rw [List.flatMap_cons, valuesOf_append, ih]
        rfl
  · have hportions : Column.portions true (texts.map fun t => .param (.text (some t))) =
        texts.map fun t => [.bind (.text (some t))] := by
      rw [Column.portions_eq_map, List.map_map]
      exact List.map_congr_left fun t _ => by rw [Function.comp_apply, Column.pieces]
    rw [Predicate.pieces, hportions]
    exact (Sited.physical tableAlias name).append
      ((Sited.list " IN (" (by decide) texts).append (Sited.text ")" Sited.nil))

end Predicate.Binds

end Sql

/-! ### Clauses -/

theorem scalarOperands_eq_ok (op : Operator) (fieldName : String) (vs : List Value)
    (columns : List Column) (h : vs.mapM (scalarOperand op fieldName) = .ok columns) :
    ∃ texts : List String, columns = texts.map (fun t => .param (.text (some t))) ∧
      vs.flatMap boundParams = texts.map fun t => .text (some t) := by
  rw [mapM_eq_ok_iff] at h
  induction h with
  | nil => exact ⟨[], rfl, rfl⟩
  | cons hv _ ih =>
      rcases ih with ⟨texts, rfl, hparams⟩
      rcases scalarOperand_eq_ok _ _ _ _ hv with ⟨text, htext, rfl⟩
      refine ⟨text :: texts, rfl, ?_⟩
      rw [List.flatMap_cons, hparams, boundParams, htext]
      rfl

/-- An operator binds its operand. -/
theorem Operator.predicate_binds (op : Operator) (fieldName : String) (operand : Value)
    (tableAlias name : String) (p : Predicate)
    (h : op.predicate fieldName operand (.physical tableAlias name) = .ok p) :
    p.Binds (operandParams op.name operand) := by
  have hscalar : ∀ (op' : Operator) (comparison : Comparison), comparison ≠ .contains →
      (scalarOperand op' fieldName operand).map
        (Predicate.compare comparison (.physical tableAlias name)) = .ok p →
      p.Binds (boundParams operand) := by
    intro op' comparison hcomparison hp
    rw [map_eq_ok_iff] at hp
    rcases hp with ⟨right, hright, rfl⟩
    rcases scalarOperand_eq_ok op' fieldName operand right hright with ⟨text, htext, rfl⟩
    rw [boundParams, htext]
    exact Predicate.Binds.compare comparison tableAlias name text hcomparison
  cases op with
  | eq =>
      simp only [Operator.predicate, Except.ok.injEq] at h
      rw [← h]
      exact (Predicate.Binds.equality tableAlias name operand).1
  | neq =>
      simp only [Operator.predicate, Except.ok.injEq] at h
      rw [← h]
      exact (Predicate.Binds.equality tableAlias name operand).2
  | gt => exact hscalar .gt .gt (by decide) h
  | gte => exact hscalar .gte .gte (by decide) h
  | lt => exact hscalar .lt .lt (by decide) h
  | lte => exact hscalar .lte .lte (by decide) h
  | isIn =>
      simp only [Operator.predicate] at h
      split at h
      · rename_i v vs
        rw [map_eq_ok_iff] at h
        rcases h with ⟨columns, hcolumns, rfl⟩
        rcases scalarOperands_eq_ok _ _ _ columns hcolumns with ⟨texts, rfl, hparams⟩
        have htexts : texts ≠ [] := by
          rintro rfl
          have hlength := (mapM_eq_ok_iff _ _ _).mp hcolumns
          cases hlength
        change Predicate.Binds _ ((v :: vs).flatMap boundParams)
        rw [hparams]
        exact Predicate.Binds.isIn tableAlias name texts htexts
      · simp only [reduceCtorEq] at h
  | isNull =>
      simp only [Operator.predicate] at h
      split at h <;> simp only [reduceCtorEq, Except.ok.injEq] at h <;> rw [← h]
      · exact Predicate.Binds.isNull tableAlias name
      · exact Predicate.Binds.isNotNull tableAlias name

/-- The conjunction of what is made of the items of a list binds the values of the
    items. -/
theorem Guarded.all_binds {α : Type} (f : α → Except Failure (Guarded Predicate))
    (params : α → List Param) (hf : ∀ a g, f a = .ok g → g.value.Binds (params a))
    (as : List α) (gs : List (Guarded Predicate)) (h : as.mapM f = .ok gs) :
    (Guarded.all gs).value.Binds (as.flatMap params) := by
  rw [List.flatMap_def]
  refine Predicate.Binds.all ?_
  rw [mapM_eq_ok_iff] at h
  induction h with
  | nil => exact List.Forall₂.nil
  | cons hg _ ih => exact List.Forall₂.cons (hf _ _ hg) ih

namespace Level

theorem operation_binds (level : Level) (fieldName : String) (operation : String × Value)
    (g : Guarded Predicate) (h : level.operation fieldName operation = .ok g) :
    g.value.Binds (operandParams operation.1 operation.2) := by
  rcases level.operation_eq_ok fieldName operation g h with ⟨column, op, p, hcolumn, hop, hp, rfl⟩
  rcases (level.column_eq_ok_iff fieldName column).mp hcolumn with ⟨_, _, _, _, _, hvalue⟩
  rw [hvalue] at hp
  rw [← Operator.name_of_named? operation.1 op hop]
  exact op.predicate_binds fieldName operation.2 _ _ p hp

theorem condition_binds (level : Level) (entry : String × Value) (g : Guarded Predicate)
    (h : level.condition entry = .ok g) : g.value.Binds (conditionParams entry) := by
  rcases entry with ⟨fieldName, v⟩
  rcases level.condition_eq_ok (fieldName, v) g h with
    ⟨operations, gs, hv, hgs, rfl⟩ | ⟨hv, column, hcolumn, rfl⟩
  · simp only at hv
    rw [hv]
    exact Guarded.all_binds _ _ (level.operation_binds fieldName) operations gs hgs
  · rcases (level.column_eq_ok_iff fieldName column).mp hcolumn with ⟨_, _, _, _, _, hvalue⟩
    have hparams : conditionParams (fieldName, v) = boundParams v := by
      unfold conditionParams
      split
      · rename_i operations hobject
        exact absurd hobject (hv operations)
      · rfl
    rw [hparams, hvalue]
    exact (Predicate.Binds.equality _ _ v).1

/-- A filter binds the operands of its conditions. -/
theorem filter_binds (level : Level) (v : Value) (g : Guarded Predicate)
    (h : level.filter v = .ok g) : g.value.Binds (filterParams v) := by
  rcases level.filter_eq_ok v g h with ⟨rfl, rfl⟩ | ⟨conditions, gs, rfl, hgs, rfl⟩
  · exact Predicate.Binds.always
  · exact Guarded.all_binds _ _ level.condition_binds conditions gs hgs

/-- The predicate of the clauses is the filter that is asked for. -/
theorem clauses_filteredBy (level : Level) (args : List (String × Value)) (c : Guarded Clauses)
    (h : level.clauses args = .ok c) : level.FilteredBy args c.value.predicate := by
  rcases (level.clauses_asked args c h).predicate with ⟨g, hg, hpredicate⟩
  refine ⟨⟨g, hg, hpredicate⟩, ?_⟩
  rw [hpredicate]
  exact (level.filter_binds _ g hg).live

/-- A sort binds nothing. -/
theorem sort_binds (level : Level) (v : Value) (g : Guarded (Option (List OrderTerm)))
    (h : level.sort v = .ok g) :
    valuesOf (OrderTerm.leavesOfOption g.value) = [] ∧ Sited (sortPieces true g.value) := by
  cases hvalue : g.value with
  | none => exact ⟨rfl, Sited.nil⟩
  | some terms =>
      have hcolumn : ∀ term ∈ terms, ∃ name, term.column = .physical level.aliasName name := by
        intro term hterm
        rcases level.sort_columns v g h terms hvalue term hterm with ⟨name, _, c, hc, hcolumn⟩
        rcases (level.column_eq_ok_iff name c).mp hc with ⟨_, columnName, _, _, _, hphysical⟩
        exact ⟨columnName, hcolumn.trans hphysical⟩
      constructor
      · rw [OrderTerm.leavesOfOption, OrderTerm.leavesOfList_eq, List.flatMap_eq_nil_iff.mpr]
        · rfl
        · intro term hterm
          rcases hcolumn term hterm with ⟨name, hname⟩
          rw [hname, Column.leaves]
      · rw [sortPieces, OrderTerm.portions_eq_map]
        refine Sited.text " " (Sited.text _ (Sited.separated ?_))
        intro portion hportion
        rcases List.mem_map.mp hportion with ⟨⟨column, direction⟩, hterm, rfl⟩
        rcases hcolumn _ hterm with ⟨name, hname⟩
        simp only at hname
        rw [OrderTerm.pieces, hname]
        exact (Sited.physical _ _).append (Sited.text _ Sited.nil)

end Level

theorem count_nonneg (argument : String) (v : Value) (n : Option Int)
    (h : count argument v = .ok n) : ∀ k ∈ n, 0 ≤ k := by
  cases v with
  | null =>
      simp only [count, Except.ok.injEq] at h
      rw [← h]
      exact fun k hk => absurd hk (Option.not_mem_none k)
  | _ =>
      simp only [count] at h
      split at h
      · split at h
        · rename_i hsign
          rw [← Except.ok.inj h]
          intro k hk
          rw [← Option.some.inj hk]
          exact hsign
        · simp only [reduceCtorEq] at h
      · simp only [reduceCtorEq] at h

/-- A constraint binds the value that the caller gives. The columns of rows around
    it are no values. -/
theorem matchPredicate_binds (constraint : Option Constraint) (typeName : String)
    (entity : Entity) (aliasName : String) (p : Predicate)
    (h : matchPredicate constraint typeName entity aliasName = .ok p) :
    p.Binds (constraint.elim [] Constraint.params) := by
  cases constraint with
  | none =>
      simp only [matchPredicate, Except.ok.injEq] at h
      rw [← h]
      exact Predicate.Binds.always
  | some c =>
      cases c with
      | equals child operand =>
          simp only [matchPredicate, Constraint.predicate, bind_eq_ok_iff, pure, Except.pure,
            Except.ok.injEq] at h
          rcases h with ⟨column, hcolumn, rfl⟩
          rw [child.toColumn_eq_ok typeName entity aliasName column hcolumn]
          cases operand with
          | value v => exact (Predicate.Binds.equality _ _ v).1
          | column tableAlias name =>
              refine ⟨by rintro ⟨⟩, ?_, ?_⟩
              · simp only [Operand.toColumn, Predicate.equal, Predicate.leaves, Column.leaves]
                rfl
              · simp only [Operand.toColumn, Predicate.equal, Predicate.pieces]
                exact (Sited.physical _ _).append (Sited.text _ (Sited.physical _ _))
      | elementOf tableAlias arrayColumn child elementType =>
          simp only [matchPredicate, Constraint.predicate, bind_eq_ok_iff, pure, Except.pure,
            Except.ok.injEq] at h
          rcases h with ⟨column, hcolumn, rfl⟩
          rw [child.toColumn_eq_ok typeName entity aliasName column hcolumn]
          refine ⟨by rintro ⟨⟩, ?_, ?_⟩
          · simp only [Predicate.leaves, Column.leaves, List.nil_append]
            rfl
          · simp only [Predicate.pieces, Column.pieces]
            exact (Sited.physical _ _).append (Sited.text _ (Sited.text _
              ((Sited.physical _ _).append (Sited.text _ (Sited.text _ (Sited.text _ Sited.nil))))))

/-! ### Levels -/

namespace Sql

/-- A select that binds the given values. -/
structure Select.Binds (s : Select) (params : List Param) : Prop where
  values : valuesOf s.leaves = params
  sited : Sited (s.pieces true)

/-- The JSON around rows binds what the rows bind. -/
theorem Select.Binds.asJson {rows : Select} {params : List Param} (h : rows.Binds params)
    (fetch : Fetch) (aliasName : String) : (asJson fetch aliasName rows).Binds params := by
  have hselect : ∀ column : Column, column.leaves = [] → Sited (column.pieces true) →
      (Select.ofSource [⟨column, none⟩] (.subSelect rows aliasName)).Binds params := by
    intro column hleaves hpieces
    constructor
    · simp only [Select.ofSource, Select.leaves, SelectItem.leavesOfList, hleaves,
        Source.leavesOfOption, Source.leaves, Predicate.leaves, OrderTerm.leavesOfOption,
        Option.toList_none, List.map_nil, List.nil_append, List.append_nil]
      exact h.values
    · rw [Select.ofSource, Select.pieces_eq]
      simp only [SelectItem.portions, SelectItem.pieces, Sql.separated, fromPieces, Source.pieces,
        wherePieces, Predicate.isAlways, if_true, sortPieces, Option.map_none, clausePieces,
        List.append_nil]
      exact (((hpieces.append Sited.nil).append (((h.sited.append
        ((Sited.aliasPieces (some aliasName)).text ")")).text "(").text " FROM "))).text "SELECT "
  cases fetch with
  | row => exact hselect _ (by rw [Column.leaves]) trivial
  | aggregation => exact hselect _ (by rw [Column.leaves, Column.leaves]) trivial

end Sql

/-- A level binds the values of its columns, then those of its conditions, then
    those of its page. -/
theorem assembleLevel_binds (schema : Schema) (fetch : Fetch) (level : Level)
    (args : List (String × Value)) (selected : ResolvedFields) (clauses : Guarded Clauses)
    (matching : Predicate) (below matched : List Param)
    (hvalues : valuesOf (SelectItem.leavesOfList selected.columns) = below)
    (hsited : ∀ item ∈ selected.columns, Sited (item.pieces true))
    (hclauses : level.clauses args = .ok clauses) (hmatching : matching.Binds matched) :
    (assembleLevel schema fetch level selected clauses matching).select.Binds
      (below ++ matched ++ filterParams (given args "where") ++
        countParams (given args "limit") ++ countParams (given args "offset")) := by
  rcases level.clauses_asked args clauses hclauses with
    ⟨⟨filter, hfilter, hpredicate⟩, ⟨sort, hsort, horderBy⟩, hlimit, hoffset⟩
  have hconditions := hmatching.conj (level.filter_binds _ filter hfilter)
  rcases level.sort_binds _ sort hsort with ⟨hsortValues, hsortSited⟩
  have hpage : ∀ n : Option Int, valuesOf (n.toList.map fun k => Leaf.value (.int8 k)) =
      n.toList.map Param.int8 := by
    intro n
    cases n <;> rfl
  rw [← hpredicate] at hconditions
  rw [← horderBy] at hsortValues hsortSited
  constructor
  · simp only [assembleLevel, Select.leaves, Source.leavesOfOption, Source.leaves, valuesOf_append,
      hvalues, hconditions.values, hsortValues, hpage, countParams,
      rowCount_of_count _ _ _ hlimit, rowCount_of_count _ _ _ hoffset]
    simp only [valuesOf, List.filterMap_nil, List.append_nil, List.append_assoc]
  · have hcolumns : Sited (Sql.separated ", " (SelectItem.portions true selected.columns)) := by
      rw [SelectItem.portions_eq_map]
      refine Sited.separated fun portion hportion => ?_
      rcases List.mem_map.mp hportion with ⟨item, hitem, rfl⟩
      exact hsited item hitem
    have hsource : Sited (fromPieces true (some (.view ⟨schema.entityViewSchema level.entity,
        level.entity.viewName (selected.restricted || clauses.restricted)⟩ level.aliasName))) :=
      trivial
    have hwhere : Sited (wherePieces (matching.conj clauses.value.predicate).isAlways
        ((matching.conj clauses.value.predicate).pieces true)) := by
      unfold wherePieces
      split
      · exact Sited.nil
      · exact hconditions.sited.text " WHERE "
    rw [assembleLevel, Select.pieces_eq]
    exact (((((hcolumns.append hsource).append hwhere).append hsortSited).append
      (Sited.limit _ (count_nonneg _ _ _ hlimit))).append
      (Sited.offset _ (count_nonneg _ _ _ hoffset))).text "SELECT "

/-- A level binds the values of its node. By induction over the request; the
    columns that hold nested levels bind the values of these. -/
theorem resolve_binds (schema : Schema) :
    (∀ (node : QueryNode) (authenticated : Bool) (fetch : Fetch) (position : Position)
      (constraint : Option Constraint) (next : Nat) (r : Resolved),
      resolveLevel schema authenticated fetch position constraint next node = .ok r →
        r.select.Binds (node.params schema (constraint.elim [] Constraint.params))) ∧
    ∀ (fields : List (String × QueryNode)) (level : Level) (next : Nat) (r : ResolvedFields),
      resolveFields schema level next fields = .ok r →
        valuesOf (SelectItem.leavesOfList r.columns) =
            QueryNode.paramsBelow schema level.entity fields ∧
          ∀ item ∈ r.columns, Sited (item.pieces true) := by
  refine QueryNode.induction ?_ ?_ ?_ ?_
  · intro name aliasName args authenticated fetch position constraint next r h
    simp only [resolveLevel, reduceCtorEq] at h
  · intro name aliasName typeName fields more args ih authenticated fetch position constraint next
      r h
    rcases resolveLevel_eq_ok schema authenticated fetch position constraint next name aliasName
      typeName fields more args r h with
      ⟨entity, selected, clauses, matching, hentity, hselected, hclauses, hmatching, rfl⟩
    rcases ih _ _ selected hselected with ⟨hvalues, hsited⟩
    rw [QueryNode.params, hentity]
    exact assembleLevel_binds schema fetch _ args selected clauses matching _ _ hvalues hsited
      hclauses (matchPredicate_binds constraint typeName entity _ matching hmatching)
  · intro level next r h
    simp only [resolveFields, Except.ok.injEq] at h
    rw [← h, QueryNode.paramsBelow]
    exact ⟨rfl, fun item hitem => absurd hitem List.not_mem_nil⟩
  · intro key node rest ihnode ihrest level next r h
    rcases resolveFields_cons_eq_ok schema level next key node rest r h with
      ⟨field, hfield, ⟨hrelation, others, hothers, rfl⟩ |
        ⟨use, fetch, constraint, below, others, hrelation, hlink, hbelow, hothers, rfl⟩⟩
    -- A plain field binds nothing.
    · rcases ihrest level next others hothers with ⟨hvalues, hsited⟩
      rw [QueryNode.paramsBelow, ((level.field_eq_ok_iff node.name field).mp hfield).1]
      simp only [ResolvedFields.addColumn, SelectItem.leavesOfList, Column.leaves, List.nil_append,
        Option.bind_some, hrelation, Option.isSome_none, Bool.false_eq_true, if_false]
      refine ⟨hvalues, List.forall_mem_cons.mpr ⟨?_, hsited⟩⟩
      rw [SelectItem.pieces]
      exact (Sited.physical _ _).append (Sited.aliasPieces _)
    -- A nested level is matched with a row, not with a value.
    · rcases ihrest level below.next others hothers with ⟨hvalues, hsited⟩
      have hmatched : constraint.params = [] := by
        rcases schema.link_eq_ok level node.name field.value use fetch constraint hlink with
          ⟨_, _, _, _, ⟨_, _, _, _, rfl⟩ | ⟨_, _, _, _, _, rfl⟩ | ⟨_, _, _, _, _, rfl⟩⟩ <;> rfl
      have hrows := (ihnode _ _ _ _ _ below hbelow).asJson fetch (localAlias next)
      rw [Option.elim_some, hmatched] at hrows
      rw [QueryNode.paramsBelow, ((level.field_eq_ok_iff node.name field).mp hfield).1]
      simp only [ResolvedFields.addLevel, levelColumn, SelectItem.leavesOfList, Column.leaves,
        valuesOf_append, hrows.values, hvalues, Option.bind_some, hrelation, Option.isSome_some,
        if_true, true_and]
      refine List.forall_mem_cons.mpr ⟨?_, hsited⟩
      rw [SelectItem.pieces, Column.pieces]
      exact ((hrows.sited.append (Sited.text ")" Sited.nil)).text "(").append (Sited.aliasPieces _)

/-! ### Queries -/

/-- Which value is bound to which placeholder. The parameters of a compiled query
    are those of its request. Its text consists of as many portions, each with a
    placeholder at its end, and the value of a placeholder is a count if the
    portion ends in one of the words of a page, and a text otherwise. No text is
    absent, and no count is negative. If the element types of arrays hold no quote
    and no dollar sign, there are no other placeholders. The members of objects
    are taken as they come, which is in the order of their names for all requests
    that are read from a text. -/
theorem compileQuery_params (schema : Schema) (minDepth : Nat) (authenticated : Bool)
    (constraint : Option Constraint) (node : QueryNode) (c : CompiledQuery)
    (h : schema.compileQuery minDepth authenticated constraint node = .ok c) :
    c.values = node.params schema (constraint.elim [] Constraint.params) ∧
      (∃ portions ending, c.sql = woven 0 portions ending ∧
        List.Forall₂ (fun portion p => (∃ n, p = .int8 n) ↔
            "LIMIT ".toList <:+ portion.toList ∨ "OFFSET ".toList <:+ portion.toList)
          portions c.values) ∧
      (∀ p ∈ c.values, (∃ text, p = .text (some text)) ∨ ∃ n, p = .int8 n ∧ 0 ≤ n) ∧
      ((∀ t ∈ elementTypesOf c.statement.leaves,
          '"' ∉ t.toList ∧ '\'' ∉ t.toList ∧ '$' ∉ t.toList) →
        placeholders c.sql = numbered 0 c.values.length) ∧
      ∀ text, QueryNode.ofText? text = some node → node.Sorted := by
  simp only [Schema.compileQuery, bind_eq_ok_iff, pure, Except.pure, Except.ok.injEq] at h
  rcases h with ⟨r, hr, rfl⟩
  have hrows := ((resolve_binds schema).1 node _ _ _ _ _ r hr).asJson .aggregation (localAlias 0)
  -- The statement consists of a single column, which holds the outermost level.
  have hstatement : (Select.expression [levelColumn .aggregation (localAlias 0) r.select
      node.resultKey]).Binds (node.params schema (constraint.elim [] Constraint.params)) := by
    constructor
    · simp only [Select.expression, Select.leaves, SelectItem.leavesOfList, levelColumn,
        Column.leaves, Source.leavesOfOption, Predicate.leaves, OrderTerm.leavesOfOption,
        Option.toList_none, List.map_nil, List.append_nil]
      exact hrows.values
    · rw [Select.expression, Select.pieces_eq]
      simp only [SelectItem.portions, SelectItem.pieces, levelColumn, Column.pieces, Sql.separated,
        fromPieces, wherePieces, Predicate.isAlways, if_true, sortPieces, Option.map_none,
        clausePieces, List.append_nil]
      exact (((hrows.sited.append (Sited.text ")" Sited.nil)).text "(").append
        (Sited.aliasPieces _)).text "SELECT "
  generalize Select.expression [levelColumn .aggregation (localAlias 0) r.select node.resultKey] = s
    at hstatement
  have hvalues : s.render.params = valuesOf s.leaves := by
    rw [Select.render, Draft.ofPieces_eq]
    exact (pieces_params true).forSelect s
  have hparams : s.render.params = paramsOf (s.pieces true) := by
    rw [Select.render, Draft.ofPieces_eq]
  have hportions := portionsFrom_sited none "" (s.pieces true) hstatement.sited
    fun word hword => absurd hword (Option.not_mem_none word)
  rw [← hparams] at hportions
  refine ⟨hvalues.trans hstatement.values, ⟨(portionsFrom "" (s.pieces true)).1,
    (portionsFrom "" (s.pieces true)).2, ?_, ?_⟩, ?_, ?_,
    fun text => QueryNode.sorted_of_ofText? text node⟩
  · rw [woven_portionsFrom, String.empty_append]
    simp only [CompiledQuery.sql, Select.render, Draft.ofPieces_eq]
  · refine hportions.imp fun portion p hportion => ?_
    rcases hportion with ⟨word, hsite, hsuffix⟩
    exact hsite.isCount_iff hsuffix
  · intro p hp
    rw [CompiledQuery.values, hparams] at hp
    rcases hstatement.sited.exists_site p hp with ⟨_, hsite⟩
    cases hsite with
    | page n _ hn => exact Or.inr ⟨n, rfl, hn⟩
    | operand text _ => exact Or.inl ⟨text, rfl⟩
  · intro htypes
    have hscan := ((pieces_numbered true).forSelect s htypes).scan_eq 0 [] noDigit_nil
    rw [List.append_nil, ← hparams] at hscan
    simp only [CompiledQuery.sql, CompiledQuery.values, Select.render, Draft.ofPieces_eq] at hscan ⊢
    rw [placeholders, String.toList_ofList, hscan, scan, List.append_nil]

/-- Two users with a page of their posts, with the arguments in no particular
    order. -/
def Blog.paged : QueryNode where
  name := "users"
  aliasName := none
  fieldsByTypeName := [("User", [leaf "name",
    ("posts", ⟨"posts", none, [("Post", [leaf "title"])],
      [("limit", .int 3), ("where", .object [("title", .string "Engines")])]⟩)])]
  args := [("offset", .int 5), ("limit", .int 2), ("where", .object [("name", .object
    [("in", .array [.string "Ada", .string "$1"]), ("neq", .null)])])]

/-- The values of the posts come first, then the identifier that the users are
    matched with, the names they are filtered by, and their page. -/
theorem compileQuery_params_paged :
    ∃ c, Blog.schema.compileQuery 3 false (some (.onId (.string "u1"))) Blog.paged = .ok c ∧
      c.values = [.text (some "Engines"), .int8 3, .text (some "u1"), .text (some "Ada"),
        .text (some "$1"), .int8 2, .int8 5] ∧
      placeholders c.sql = ["$1", "$2", "$3", "$4", "$5", "$6", "$7"] := by
  have hcompiles : ∃ c, Blog.schema.compileQuery 3 false (some (.onId (.string "u1"))) Blog.paged =
      .ok c ∧ elementTypesOf c.statement.leaves = [] := ⟨_, rfl, by decide⟩
  rcases hcompiles with ⟨c, hc, htypes⟩
  rcases compileQuery_params Blog.schema 3 false _ Blog.paged c hc with
    ⟨hvalues, _, _, hplaceholders, _⟩
  have hlist := hvalues.trans (show _ = [.text (some "Engines"), .int8 3, .text (some "u1"),
    .text (some "Ada"), .text (some "$1"), .int8 2, .int8 5] by decide)
  refine ⟨c, hc, hlist, (hplaceholders ?_).trans ?_⟩
  · rw [htypes]
    exact fun t ht => absurd ht List.not_mem_nil
  · rw [hlist]
    decide

end ViewCompiler
