import Mathlib.Data.List.Forall2
import ViewCompiler.Query.Compile

/-!
# Resolution, Step by Step

What resolving a level does, in the order in which it does it.

A level is resolved in four stages: its entity is found and may refuse the
level, its fields are resolved, its arguments become clauses, and the
constraint becomes a predicate. What they yield is then put together without
any further way to fail. `resolveLevel_typed` says so in one equation, and
`resolveFields_cons` does the same for one field of a level. Everything that
is proved about compiling starts from these two, whether it follows one run or
compares two of them.

A request is a tree of nodes below lists of fields, and every argument about
it takes turns between the two. `QueryNode.induction` is that argument once
and for all.

## Main definitions

* `Schema.levelEntity`: The entity of a level, unless the level is refused.
* `matchPredicate`: The predicate of an optional constraint.
* `ChildColumn.nameIn`: The column by which rows are matched.
* `assembleLevel`: A level put together from its parts.
* `ResolvedFields.addColumn`, `ResolvedFields.addLevel`: The columns of a
  level with one more field.

## Theorems

* `QueryNode.induction`: Induction over nodes and lists of fields.
* `resolveLevel_typed`, `resolveFields_cons`: The stages of resolving.
* `resolveLevel_eq_ok`, `resolveFields_cons_eq_ok`: What a success consists
  of.
* `Level.field_eq_ok_iff`, `Level.column_eq_ok_iff`: When a level gives out a
  field or a column.
* `Schema.link_eq_ok`: The ways in which a relation links two rows.
-/

namespace ViewCompiler

open Sql Schema

/-! ### Outcomes -/

theorem bind_eq_ok_iff {ε α β : Type} (x : Except ε α) (f : α → Except ε β) (b : β) :
    (x >>= f) = .ok b ↔ ∃ a, x = .ok a ∧ f a = .ok b := by
  cases x <;> simp [bind, Except.bind]

theorem map_eq_ok_iff {ε α β : Type} (f : α → β) (x : Except ε α) (b : β) :
    x.map f = .ok b ↔ ∃ a, x = .ok a ∧ f a = b := by
  cases x <;> simp [Except.map]

theorem mapError_eq_ok_iff {ε ε' α : Type} (f : ε → ε') (x : Except ε α) (a : α) :
    x.mapError f = .ok a ↔ x = .ok a := by
  cases x <;> simp [Except.mapError]

theorem mapM_eq_ok_iff {ε α β : Type} (f : α → Except ε β) (as : List α) (bs : List β) :
    as.mapM f = .ok bs ↔ List.Forall₂ (fun a b => f a = .ok b) as bs := by
  induction as generalizing bs with
  | nil =>
      simp only [List.mapM_nil, pure, Except.pure, Except.ok.injEq, List.forall₂_nil_left_iff]
      exact eq_comm
  | cons a rest ih =>
      simp only [List.mapM_cons, bind_eq_ok_iff, pure, Except.pure, Except.ok.injEq,
        List.forall₂_cons_left_iff, ih]
      constructor
      · rintro ⟨b, hb, bs', hbs', rfl⟩
        exact ⟨b, bs', hb, hbs', rfl⟩
      · rintro ⟨b, bs', hb, hbs', rfl⟩
        exact ⟨b, hb, bs', hbs', rfl⟩

theorem exists_of_mem_mapM {ε α β : Type} (f : α → Except ε β) (as : List α) (bs : List β)
    (h : as.mapM f = .ok bs) (b : β) (hb : b ∈ bs) : ∃ a ∈ as, f a = .ok b := by
  rw [mapM_eq_ok_iff] at h
  induction h with
  | nil => exact absurd hb List.not_mem_nil
  | @cons a _ as _ ha _ ih =>
      rcases List.mem_cons.mp hb with rfl | hrest
      · exact ⟨a, List.mem_cons_self, ha⟩
      · rcases ih hrest with ⟨a', ha', hok⟩
        exact ⟨a', List.mem_cons_of_mem a ha', hok⟩

/-! ### Requests -/

/-- Induction over a request: a property of nodes and one of lists of fields,
    each from the other. Only the first type of a node is followed, as it is
    the only one that counts. -/
theorem QueryNode.induction {P : QueryNode → Prop} {Q : List (String × QueryNode) → Prop}
    (untyped : ∀ name aliasName args, P ⟨name, aliasName, [], args⟩)
    (typed : ∀ name aliasName typeName fields more args, Q fields →
      P ⟨name, aliasName, (typeName, fields) :: more, args⟩)
    (nil : Q [])
    (cons : ∀ key node rest, P node → Q rest → Q ((key, node) :: rest)) :
    (∀ node : QueryNode, P node) ∧ ∀ fields : List (String × QueryNode), Q fields := by
  have hnode : ∀ node : QueryNode, P node := by
    intro node
    -- The recursor has a motive for every kind of list on the way down. The one
    -- for the list of types speaks of its first entry only.
    refine @QueryNode.rec P (fun types => ∀ entry ∈ types.head?, Q entry.2) (fun entry => Q entry.2)
      Q (fun entry => P entry.2) ?_ ?_ ?_ (fun _ _ h => h) nil
      (fun head tail hhead htail => cons head.1 head.2 tail hhead htail) (fun _ _ h => h) node
    · intro name aliasName types args htypes
      cases types with
      | nil => exact untyped name aliasName args
      | cons entry more => exact typed name aliasName entry.1 entry.2 more args (htypes entry rfl)
    · intro entry hentry
      simp only [List.head?_nil, Option.mem_def, reduceCtorEq] at hentry
    · intro head tail hhead _ entry hentry
      simp only [List.head?_cons, Option.mem_def, Option.some.injEq] at hentry
      rw [← hentry]
      exact hhead
  refine ⟨hnode, fun fields => ?_⟩
  induction fields with
  | nil => exact nil
  | cons entry rest ih => exact cons entry.1 entry.2 rest (hnode entry.2) ih

/-! ### Levels -/

/-- Whether a name is that of a field which the authorized view alone has. -/
def Schema.Entity.restricts (entity : Entity) (name : String) : Bool :=
  (entity.field? name).any (entity.requiresAuthorization name)

/-- A level gives out a field exactly if its entity has the field and the
    caller may see it. -/
theorem Level.field_eq_ok_iff (level : Level) (name : String) (g : Guarded Field) :
    level.field name = .ok g ↔
      level.entity.field? name = some g.value ∧ g.restricted = level.entity.restricts name ∧
        (g.restricted = true → level.authenticated = true) := by
  rcases g with ⟨field, restricted⟩
  unfold Level.field Schema.Entity.restricts
  cases level.entity.field? name with
  | none => simp only [reduceCtorEq, false_and]
  | some f =>
      -- The flag of the field and that of the caller decide.
      cases hr : level.entity.requiresAuthorization name f <;> cases hauth : level.authenticated <;>
        simp [hr, eq_comm]

/-- A level gives out a column exactly if it gives out the field, which is
    stored in that column and stands for no relation. -/
theorem Level.column_eq_ok_iff (level : Level) (name : String) (g : Guarded Column) :
    level.column name = .ok g ↔
      ∃ field columnName, level.field name = .ok ⟨field, g.restricted⟩ ∧
        field.relation = none ∧ field.nativeColumnName = some columnName ∧
        g.value = .physical level.aliasName columnName := by
  rcases g with ⟨column, restricted⟩
  unfold Level.column
  rw [bind_eq_ok_iff]
  constructor
  · rintro ⟨⟨field, r⟩, hfield, h⟩
    cases hrel : field.relation <;> cases hnat : field.nativeColumnName <;>
      simp only [hrel, hnat, throw, throwThe, MonadExceptOf.throw, pure, Except.pure, reduceCtorEq,
        Except.ok.injEq, Guarded.mk.injEq] at h
    rw [h.2] at hfield
    exact ⟨field, _, hfield, hrel, hnat, h.1.symm⟩
  · rintro ⟨field, columnName, hfield, hrel, hnat, hcol⟩
    refine ⟨_, hfield, ?_⟩
    simp only [hrel, hnat, pure, Except.pure]
    rw [← hcol]

/-- The entity of a level, unless there is none, the entity may be reached by
    relations only, or nothing is selected. -/
def Schema.levelEntity (schema : Schema) (position : Position) (fetch : Fetch)
    (constraint : Option Constraint) (typeName : String) (fields : List (String × QueryNode)) :
    Except Failure Entity :=
  match schema.entity? typeName with
  | none => .error (.unknownType typeName)
  | some entity =>
      if isGenericRootAggregation position fetch constraint &&
          entity.disallowGenericRootLevelAggregation then
        .error (.rootAggregation typeName)
      else if fields.isEmpty then .error (.noFieldsSelected typeName)
      else .ok entity

theorem Schema.levelEntity_eq_ok (schema : Schema) (position : Position) (fetch : Fetch)
    (constraint : Option Constraint) (typeName : String) (fields : List (String × QueryNode))
    (entity : Entity)
    (h : schema.levelEntity position fetch constraint typeName fields = .ok entity) :
    schema.entity? typeName = some entity := by
  unfold Schema.levelEntity at h
  cases hentity : schema.entity? typeName with
  | none => simp only [hentity, reduceCtorEq] at h
  | some e =>
      simp only [hentity] at h
      split at h
      · simp only [reduceCtorEq] at h
      · split at h
        · simp only [reduceCtorEq] at h
        · simp only [Except.ok.injEq] at h
          rw [h]

/-- The predicate of a constraint, which every row satisfies if there is no
    constraint. -/
def matchPredicate (constraint : Option Constraint) (typeName : String) (entity : Entity)
    (aliasName : String) : Except Failure Predicate :=
  match constraint with
  | none => .ok .always
  | some c => c.predicate typeName entity aliasName

/-- A level put together from its columns, its clauses and the predicate of
    its constraint. -/
def assembleLevel (schema : Schema) (fetch : Fetch) (level : Level) (selected : ResolvedFields)
    (clauses : Guarded Clauses) (matching : Predicate) : Resolved where
  select :=
    { columns := selected.columns
      source := some (.view ⟨schema.entityViewSchema level.entity,
        level.entity.viewName (selected.restricted || clauses.restricted)⟩ level.aliasName)
      predicate := matching.conj clauses.value.predicate
      orderBy := clauses.value.orderBy
      limit := clauses.value.limit
      offset := clauses.value.offset }
  cost :=
    { fetch := fetch
      tableName := level.entity.tableName
      tableSchemaName := level.entity.tableSchemaName
      limit := clauses.value.limit
      children := Entries.ofList selected.children }
  authRequired := (selected.restricted || clauses.restricted) || selected.authBelow
  next := selected.next

/-- The stages of a level: its entity, its fields, its clauses, its
    constraint. -/
theorem resolveLevel_typed (schema : Schema) (authenticated : Bool) (fetch : Fetch)
    (position : Position) (constraint : Option Constraint) (next : Nat) (name : String)
    (aliasName : Option String) (typeName : String) (fields : List (String × QueryNode))
    (more : List (String × List (String × QueryNode))) (args : List (String × Json.Value)) :
    resolveLevel schema authenticated fetch position constraint next
        ⟨name, aliasName, (typeName, fields) :: more, args⟩ =
      (schema.levelEntity position fetch constraint typeName fields >>= fun entity =>
        let level : Level := ⟨typeName, entity, localAlias (next + 1), authenticated⟩
        resolveFields schema level (next + 2) fields >>= fun selected =>
          level.clauses args >>= fun clauses =>
            (matchPredicate constraint typeName entity level.aliasName).map
              (assembleLevel schema fetch level selected clauses)) := by
  -- Both sides do the same once it is known which stages succeed.
  rw [resolveLevel]
  unfold Schema.levelEntity matchPredicate
  cases schema.entity? typeName with
  | none => rfl
  | some entity =>
      simp only []
      split
      · rfl
      · split
        · rfl
        · cases constraint with
          | none => rfl
          | some c =>
              simp only [bind, Except.bind]
              cases resolveFields schema ⟨typeName, entity, localAlias (next + 1), authenticated⟩
                (next + 2) fields with
              | error e => rfl
              | ok selected =>
                  simp only []
                  cases Level.clauses ⟨typeName, entity, localAlias (next + 1), authenticated⟩
                    args with
                  | error e => rfl
                  | ok clauses =>
                      simp only []
                      cases c.predicate typeName entity (localAlias (next + 1)) <;> rfl

/-- What a resolved level consists of. -/
theorem resolveLevel_eq_ok (schema : Schema) (authenticated : Bool) (fetch : Fetch)
    (position : Position) (constraint : Option Constraint) (next : Nat) (name : String)
    (aliasName : Option String) (typeName : String) (fields : List (String × QueryNode))
    (more : List (String × List (String × QueryNode))) (args : List (String × Json.Value))
    (r : Resolved)
    (h : resolveLevel schema authenticated fetch position constraint next
      ⟨name, aliasName, (typeName, fields) :: more, args⟩ = .ok r) :
    ∃ entity selected clauses matching,
      schema.entity? typeName = some entity ∧
      resolveFields schema ⟨typeName, entity, localAlias (next + 1), authenticated⟩ (next + 2)
        fields = .ok selected ∧
      Level.clauses ⟨typeName, entity, localAlias (next + 1), authenticated⟩ args = .ok clauses ∧
      matchPredicate constraint typeName entity (localAlias (next + 1)) = .ok matching ∧
      r = assembleLevel schema fetch ⟨typeName, entity, localAlias (next + 1), authenticated⟩
        selected clauses matching := by
  rw [resolveLevel_typed] at h
  simp only [bind_eq_ok_iff, map_eq_ok_iff] at h
  -- Four stages, each of which has succeeded.
  rcases h with ⟨entity, hentity, selected, hselected, clauses, hclauses, matching, hmatching, hr⟩
  exact ⟨entity, selected, clauses, matching,
    schema.levelEntity_eq_ok position fetch constraint typeName fields entity hentity,
    hselected, hclauses, hmatching, hr.symm⟩

/-! ### Links -/

/-- The name of the column by which rows of an entity are matched. -/
def ChildColumn.nameIn (child : ChildColumn) (entity : Entity) : String :=
  match child with
  | .primaryKey => entity.idColumnName
  | .named name => name

theorem ChildColumn.toColumn_eq_ok (child : ChildColumn) (typeName : String) (entity : Entity)
    (aliasName : String) (column : Column)
    (h : child.toColumn typeName entity aliasName = .ok column) :
    column = .physical aliasName (child.nameIn entity) := by
  cases child with
  | primaryKey =>
      simp only [ChildColumn.toColumn, Except.ok.injEq] at h
      exact h.symm
  | named name =>
      simp only [ChildColumn.toColumn] at h
      split at h
      · simp only [Except.ok.injEq] at h
        exact h.symm
      · simp only [reduceCtorEq] at h

/-- What a link consists of. There are three ways in which the rows of two
    tables are linked: the own row stores the key of the other, the own row
    stores an array of them, or the other row stores the key of the own. -/
theorem Schema.link_eq_ok (schema : Schema) (level : Level) (fieldName : String) (field : Field)
    (use : FieldLink) (fetch : Fetch) (constraint : Constraint)
    (h : schema.link level fieldName field use = .ok (fetch, constraint)) :
    ∃ relation sides, schema.relation? use.relationName = some relation ∧
      relation.endpoints? use.ownerTable use.isListType field.nativeColumnName = some sides ∧
      ((sides.own.cardinality = .one ∧
          ∃ key, (sides.own.columnName <|> field.nativeColumnName) = some key ∧
            fetch = .row ∧ constraint = .equals .primaryKey (.column level.aliasName key)) ∨
        (sides.own.cardinality = .many ∧ sides.foreign.cardinality = .many ∧
          ∃ array, (sides.own.columnName <|> field.nativeColumnName) = some array ∧
            fetch = .aggregation ∧ constraint =
              .elementOf level.aliasName array .primaryKey sides.own.arrayElementType) ∨
        (sides.own.cardinality = .many ∧ sides.foreign.cardinality = .one ∧
          ∃ key, sides.foreign.columnName = some key ∧
            fetch = .aggregation ∧ constraint =
              .equals (.named key) (.column level.aliasName level.entity.idColumnName))) := by
  unfold Schema.link at h
  cases hrelation : schema.relation? use.relationName with
  | none =>
      rw [hrelation] at h
      simp only [throw, throwThe, MonadExceptOf.throw, reduceCtorEq] at h
  | some relation =>
      simp only [hrelation] at h
      cases hsides : relation.endpoints? use.ownerTable use.isListType field.nativeColumnName with
      | none =>
          rw [hsides] at h
          simp only [throw, throwThe, MonadExceptOf.throw, reduceCtorEq] at h
      | some sides =>
          -- Relation and sides are found. What remains is where the key is stored.
          refine ⟨relation, sides, rfl, hsides, ?_⟩
          simp only [hsides] at h
          cases hown : sides.own.cardinality with
          | one =>
              cases hkey : (sides.own.columnName <|> field.nativeColumnName) with
              | none => simp [hown, hkey, throw, throwThe, MonadExceptOf.throw] at h
              | some key =>
                  simp only [hown, hkey, pure, Except.pure, Except.ok.injEq, Prod.mk.injEq] at h
                  exact Or.inl ⟨rfl, key, rfl, h.1.symm, h.2.symm⟩
          | many =>
              refine Or.inr ?_
              cases hforeign : sides.foreign.cardinality with
              | many =>
                  cases harray : (sides.own.columnName <|> field.nativeColumnName) with
                  | none => simp [hown, hforeign, harray, throw, throwThe, MonadExceptOf.throw] at h
                  | some array =>
                      simp only [hown, hforeign, harray, pure, Except.pure, Except.ok.injEq,
                        Prod.mk.injEq] at h
                      exact Or.inl ⟨rfl, rfl, array, rfl, h.1.symm, h.2.symm⟩
              | one =>
                  cases hkey : sides.foreign.columnName with
                  | none => simp [hown, hforeign, hkey, throw, throwThe, MonadExceptOf.throw] at h
                  | some key =>
                      simp only [hown, hforeign, hkey, pure, Except.pure, Except.ok.injEq,
                        Prod.mk.injEq] at h
                      exact Or.inr ⟨rfl, rfl, key, rfl, h.1.symm, h.2.symm⟩

/-! ### Fields -/

/-- The columns of a level with one more in front, of a field that stands for
    no relation. -/
def ResolvedFields.addColumn (others : ResolvedFields) (level : Level) (node : QueryNode)
    (field : Guarded Field) : ResolvedFields :=
  { others with
    columns := ⟨.physical level.aliasName (field.value.columnName node.name),
      some node.resultKey⟩ :: others.columns
    restricted := field.restricted || others.restricted }

/-- The columns of a level with one more in front, which holds the rows of a
    nested level. -/
def ResolvedFields.addLevel (others : ResolvedFields) (node : QueryNode) (field : Guarded Field)
    (fetch : Fetch) (next : Nat) (below : Resolved) : ResolvedFields where
  columns := levelColumn fetch (localAlias next) below.select node.resultKey :: others.columns
  children := (node.resultKey, below.cost) :: others.children
  restricted := field.restricted || others.restricted
  authBelow := below.authRequired || others.authBelow
  next := others.next

/-- The stages of a field of a level. -/
theorem resolveFields_cons (schema : Schema) (level : Level) (next : Nat) (key : String)
    (node : QueryNode) (rest : List (String × QueryNode)) :
    resolveFields schema level next ((key, node) :: rest) =
      (level.field node.name >>= fun field =>
        match field.value.relation with
        | none =>
            (resolveFields schema level next rest).map fun others =>
              others.addColumn level node field
        | some use =>
            schema.link level node.name field.value use >>= fun linked =>
              (resolveLevel schema level.authenticated linked.1 .nested (some linked.2) next
                node).mapError (.inContext (Failure.relationContext level.typeName node.name))
                >>= fun below =>
                (resolveFields schema level below.next rest).map fun others =>
                  others.addLevel node field linked.1 next below) := by
  rw [resolveFields]
  congr 1

/-- What the columns of a level consist of, seen from its first field. -/
theorem resolveFields_cons_eq_ok (schema : Schema) (level : Level) (next : Nat) (key : String)
    (node : QueryNode) (rest : List (String × QueryNode)) (r : ResolvedFields)
    (h : resolveFields schema level next ((key, node) :: rest) = .ok r) :
    ∃ field, level.field node.name = .ok field ∧
      ((field.value.relation = none ∧
          ∃ others, resolveFields schema level next rest = .ok others ∧
            r = others.addColumn level node field) ∨
        ∃ use fetch constraint below others,
          field.value.relation = some use ∧
          schema.link level node.name field.value use = .ok (fetch, constraint) ∧
          resolveLevel schema level.authenticated fetch .nested (some constraint) next node =
            .ok below ∧
          resolveFields schema level below.next rest = .ok others ∧
          r = others.addLevel node field fetch next below) := by
  rw [resolveFields_cons, bind_eq_ok_iff] at h
  rcases h with ⟨field, hfield, h⟩
  refine ⟨field, hfield, ?_⟩
  cases hrel : field.value.relation with
  | none =>
      rw [hrel] at h
      simp only [map_eq_ok_iff] at h
      rcases h with ⟨others, hothers, hr⟩
      exact Or.inl ⟨rfl, others, hothers, hr.symm⟩
  | some use =>
      rw [hrel] at h
      simp only [bind_eq_ok_iff, map_eq_ok_iff, mapError_eq_ok_iff] at h
      rcases h with ⟨⟨fetch, constraint⟩, hlink, below, hbelow, others, hothers, hr⟩
      exact Or.inr ⟨use, fetch, constraint, below, others, rfl, hlink, hbelow, hothers, hr.symm⟩

end ViewCompiler
