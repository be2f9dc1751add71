import ViewCompiler.Proofs.Relations
import ViewCompiler.Proofs.Rendering

/-!
# Where Names Come From

Every name in a compiled query is traced back to where it was taken from.

Texts of the request and texts of the metadata go through the same functions: a
field is looked up by the name that a node gives, a computed field is shown under
that very name, and a row is matched by a column that the caller names. What
keeps them apart is that a text of the request is looked up and then left behind,
and what is written is what was found. The one exception are the names of results,
which go into the statement as they are, and only behind the column that they
name.

`Select.identifiers` lists the names of a tree with the roles that they play, in
the order in which they are written, and the element types of arrays, which are
written without quotes. `pieces_names` says that there are no others. A role says
what a name has to be: the alias of a number, a name of a view, a column, or the
name of a result (`Identifier.Traced`). For the latter there has to be a node that
the column stands for. `QueryNode.Produces` finds it by position alone: the request
stands for the statement's column, and the nodes selected below a node stand for
the columns of its rows, one by one.

## Main definitions

* `Identifier`: A name of a tree with its role.
* `Column.identifiers`, `Predicate.identifiers`, `Select.identifiers`: The names of
  a tree.
* `Entity.Names`: The names of columns in the metadata of an entity.
* `QueryNode.Produces`: The node that a column stands for.
* `Identifier.Traced`: Where a name may come from.

## Theorems

* `pieces_names`: The names of a tree are those that are written.
* `Constraint.traced_link`: A link refers to columns of its relation.
* `resolve_traced`: The names of a level are traced.
* `compileQuery_identifiers`: So are those of a query.
-/

namespace ViewCompiler

open Json Sql Schema

namespace Sql

/-! ### The names of a tree -/

/-- A name of a tree with its role. -/
inductive Identifier where
  /-- The alias of a source, where it is introduced and where it is referred to. -/
  | aliasName (text : String)
  /-- The database schema of a view. -/
  | viewSchema (text : String)
  | viewName (text : String)
  /-- A column of a source. -/
  | column (text : String)
  /-- The name under which a column of a select is returned. -/
  | output (item : SelectItem) (text : String)
  /-- The element type of an array, which is written as it is. -/
  | elementType (text : String)

/-- The text of an identifier that is written between quotes. -/
def Identifier.name? : Identifier → Option String
  | .aliasName text => some text
  | .viewSchema text => some text
  | .viewName text => some text
  | .column text => some text
  | .output _ text => some text
  | .elementType _ => none

mutual
/-- The names of a column, in the order in which they are written. -/
def Column.identifiers : Column → List Identifier
  | .physical tableAlias name => [.aliasName tableAlias, .column name]
  | .param _ => []
  | .rowToJson tableAlias => [.aliasName tableAlias]
  | .jsonAgg c => c.identifiers
  | .subSelect s => s.identifiers
  | .array c elementType => c.identifiers ++ [.elementType elementType]
  | .null => []
def Column.identifiersOfList : List Column → List Identifier
  | [] => []
  | c :: cs => c.identifiers ++ Column.identifiersOfList cs
/-- The names of a predicate. -/
def Predicate.identifiers : Predicate → List Identifier
  | .always => []
  | .never => []
  | .compare _ l r => l.identifiers ++ r.identifiers
  | .isIn c es => c.identifiers ++ Column.identifiersOfList es
  | .isNull c => c.identifiers
  | .isNotNull c => c.identifiers
  | .and l r => l.identifiers ++ r.identifiers
def SelectItem.identifiersOfList : List SelectItem → List Identifier
  | [] => []
  | ⟨c, a⟩ :: is =>
      c.identifiers ++ a.toList.map (.output ⟨c, a⟩) ++ SelectItem.identifiersOfList is
def Source.identifiers : Source → List Identifier
  | .view v a => [.viewSchema v.schemaName, .viewName v.name, .aliasName a]
  | .subSelect s a => s.identifiers ++ [.aliasName a]
def Source.identifiersOfOption : Option Source → List Identifier
  | none => []
  | some s => s.identifiers
def OrderTerm.identifiersOfList : List OrderTerm → List Identifier
  | [] => []
  | ⟨c, _⟩ :: ts => c.identifiers ++ OrderTerm.identifiersOfList ts
def OrderTerm.identifiersOfOption : Option (List OrderTerm) → List Identifier
  | none => []
  | some ts => OrderTerm.identifiersOfList ts
/-- The names of a query. -/
def Select.identifiers : Select → List Identifier
  | ⟨columns, source, predicate, orderBy, _, _⟩ =>
      SelectItem.identifiersOfList columns ++ Source.identifiersOfOption source ++
        predicate.identifiers ++ OrderTerm.identifiersOfOption orderBy
end

/-- The names of a column of a select, the one of its result included. -/
def SelectItem.identifiers (i : SelectItem) : List Identifier :=
  i.column.identifiers ++ i.aliasName.toList.map (.output i)

theorem Column.identifiersOfList_eq (cs : List Column) :
    Column.identifiersOfList cs = cs.flatMap Column.identifiers := by
  induction cs with
  | nil => rw [Column.identifiersOfList, List.flatMap_nil]
  | cons c rest ih => rw [Column.identifiersOfList, List.flatMap_cons, ih]

theorem SelectItem.identifiersOfList_eq (is : List SelectItem) :
    SelectItem.identifiersOfList is = is.flatMap SelectItem.identifiers := by
  induction is with
  | nil => rw [SelectItem.identifiersOfList, List.flatMap_nil]
  | cons i rest ih =>
      rcases i with ⟨c, a⟩
      rw [SelectItem.identifiersOfList, List.flatMap_cons, ih]
      rfl

theorem OrderTerm.identifiersOfList_eq (ts : List OrderTerm) :
    OrderTerm.identifiersOfList ts = ts.flatMap fun t => t.column.identifiers := by
  induction ts with
  | nil => rw [OrderTerm.identifiersOfList, List.flatMap_nil]
  | cons t rest ih =>
      rcases t with ⟨c, d⟩
      rw [OrderTerm.identifiersOfList, List.flatMap_cons, ih]

theorem SelectItem.mem_identifiersOfList_cons (c : Column) (text : String) (rest : List SelectItem)
    (i : Identifier) (h : i ∈ SelectItem.identifiersOfList (⟨c, some text⟩ :: rest)) :
    i ∈ c.identifiers ∨ i = .output ⟨c, some text⟩ text ∨
      i ∈ SelectItem.identifiersOfList rest := by
  rw [SelectItem.identifiersOfList, List.append_assoc, List.mem_append, List.mem_append] at h
  exact h.imp_right fun h => h.imp_left fun houtput => List.mem_singleton.mp houtput

/-- The names of a predicate are those of its columns. -/
theorem Predicate.exists_column_of_mem (p : Predicate) (i : Identifier) (h : i ∈ p.identifiers) :
    ∃ c ∈ p.columns, i ∈ c.identifiers := by
  match p with
  | .always => exact absurd h List.not_mem_nil
  | .never => exact absurd h List.not_mem_nil
  | .compare _ l r =>
      rw [Predicate.identifiers, List.mem_append] at h
      rcases h with hl | hr
      · exact ⟨l, List.mem_cons_self, hl⟩
      · exact ⟨r, List.mem_cons_of_mem l List.mem_cons_self, hr⟩
  | .isIn c es =>
      rw [Predicate.identifiers, Column.identifiersOfList_eq, List.mem_append,
        List.mem_flatMap] at h
      rcases h with hc | ⟨e, he, hi⟩
      · exact ⟨c, List.mem_cons_self, hc⟩
      · exact ⟨e, List.mem_cons_of_mem c he, hi⟩
  | .isNull c => exact ⟨c, List.mem_cons_self, h⟩
  | .isNotNull c => exact ⟨c, List.mem_cons_self, h⟩
  | .and l r =>
      rw [Predicate.identifiers, List.mem_append] at h
      rcases h with hl | hr
      · rcases l.exists_column_of_mem i hl with ⟨c, hc, hi⟩
        exact ⟨c, List.mem_append_left _ hc, hi⟩
      · rcases r.exists_column_of_mem i hr with ⟨c, hc, hi⟩
        exact ⟨c, List.mem_append_right _ hc, hi⟩

/-- The names of a sort are those of its columns. -/
theorem OrderTerm.exists_term_of_mem (orderBy : Option (List OrderTerm)) (i : Identifier)
    (h : i ∈ OrderTerm.identifiersOfOption orderBy) :
    ∃ term ∈ orderBy.getD [], i ∈ term.column.identifiers := by
  cases orderBy with
  | none => exact absurd h List.not_mem_nil
  | some terms =>
      rw [OrderTerm.identifiersOfOption, OrderTerm.identifiersOfList_eq] at h
      exact List.mem_flatMap.mp h

/-! ### The names that are written -/

/-- The name in a piece, if it is one. -/
def Piece.name? : Piece → Option String
  | .name s => some s
  | _ => none

/-- The names among pieces. -/
def namesOf (pieces : List Piece) : List String := pieces.filterMap Piece.name?

/-- The texts of identifiers that are written between quotes. -/
def quotedOf (identifiers : List Identifier) : List String :=
  identifiers.filterMap Identifier.name?

@[simp] theorem namesOf_nil : namesOf [] = [] := rfl

@[simp] theorem namesOf_text (s : String) (rest : List Piece) :
    namesOf (.text s :: rest) = namesOf rest := rfl

theorem namesOf_append (ps qs : List Piece) : namesOf (ps ++ qs) = namesOf ps ++ namesOf qs :=
  List.filterMap_append

theorem quotedOf_append (is js : List Identifier) :
    quotedOf (is ++ js) = quotedOf is ++ quotedOf js :=
  List.filterMap_append

/-- Separators are no names. -/
theorem namesOf_separated (separator : String) (portions : List (List Piece)) :
    namesOf (separated separator portions) = portions.flatMap namesOf := by
  induction portions with
  | nil => rfl
  | cons portion rest ih =>
      cases rest with
      | nil => simp only [separated, List.flatMap_cons, List.flatMap_nil, List.append_nil]
      | cons next more =>
          simp only [separated, namesOf_append, namesOf_text, ih, List.flatMap_cons]

theorem namesOf_separated_map {α : Type} (separator : String) (items : List α)
    (pieces : α → List Piece) (identifiers : α → List Identifier)
    (h : ∀ a ∈ items, namesOf (pieces a) = quotedOf (identifiers a)) :
    namesOf (separated separator (items.map pieces)) = quotedOf (items.flatMap identifiers) := by
  rw [namesOf_separated, List.flatMap_map]
  induction items with
  | nil => rfl
  | cons a rest ih =>
      rw [List.flatMap_cons, List.flatMap_cons, quotedOf_append, h a List.mem_cons_self,
        ih fun b hb => h b (List.mem_cons_of_mem a hb)]

theorem namesOf_wherePieces (p : Predicate) (condition : List Piece)
    (h : namesOf condition = quotedOf p.identifiers) :
    namesOf (wherePieces p.isAlways condition) = quotedOf p.identifiers := by
  -- The condition that is left out has no names.
  cases p with
  | always => simp only [Predicate.isAlways, wherePieces, if_true, Predicate.identifiers]; rfl
  | _ => simpa only [Predicate.isAlways, wherePieces, Bool.false_eq_true, if_false, namesOf_text]
      using h

theorem SelectItem.pieces_names (i : SelectItem)
    (h : namesOf (i.column.pieces true) = quotedOf i.column.identifiers) :
    namesOf (i.pieces true) = quotedOf i.identifiers := by
  rcases i with ⟨c, a⟩
  rw [SelectItem.pieces, SelectItem.identifiers, namesOf_append, quotedOf_append, h]
  cases a <;> rfl

theorem Source.pieces_names (source : Source)
    (h : ∀ s a, source = .subSelect s a → namesOf (s.pieces true) = quotedOf s.identifiers) :
    namesOf (source.pieces true) = quotedOf source.identifiers := by
  cases source with
  | view v a =>
      rw [Source.pieces, Source.identifiers]
      rfl
  | subSelect s a =>
      rw [Source.pieces, Source.identifiers, namesOf_text, namesOf_append, quotedOf_append,
        h s a rfl]
      rfl

/-- The names of a tree are those that are written, in the order of both. -/
theorem pieces_names :
    TreeInduction (fun c => namesOf (c.pieces true) = quotedOf c.identifiers)
      (fun p => namesOf (p.pieces true) = quotedOf p.identifiers)
      (fun s => namesOf (s.pieces true) = quotedOf s.identifiers) where
  physical tableAlias name := by rw [Column.pieces, Column.identifiers]; rfl
  param p := by rw [Column.pieces, Column.identifiers]; rfl
  rowToJson tableAlias := by rw [Column.pieces, Column.identifiers]; rfl
  jsonAgg c ih := by
    rw [Column.pieces, Column.identifiers, namesOf_text, namesOf_append, ih]
    exact List.append_nil _
  subSelect s ih := by
    rw [Column.pieces, Column.identifiers, namesOf_text, namesOf_append, ih]
    exact List.append_nil _
  array c elementType ih := by
    rw [Column.pieces, Column.identifiers, namesOf_text, namesOf_append, quotedOf_append, ih]
    rfl
  null := by rw [Column.pieces, Column.identifiers]; rfl
  always := by rw [Predicate.pieces, Predicate.identifiers]; rfl
  never := by rw [Predicate.pieces, Predicate.identifiers]; rfl
  compare op l r ihl ihr := by
    rw [Predicate.pieces, Predicate.identifiers, namesOf_append, namesOf_text, quotedOf_append,
      ihl, ihr]
  isIn c es ihc ihes := by
    rw [Predicate.pieces, Predicate.identifiers, Column.portions_eq_map,
      Column.identifiersOfList_eq, namesOf_append, namesOf_text, namesOf_append, quotedOf_append,
      ihc, namesOf_separated_map ", " es _ _ ihes]
    simp only [namesOf_text, namesOf_nil, List.append_nil]
  isNull c ih := by
    rw [Predicate.pieces, Predicate.identifiers, namesOf_append, ih]
    exact List.append_nil _
  isNotNull c ih := by
    rw [Predicate.pieces, Predicate.identifiers, namesOf_append, ih]
    exact List.append_nil _
  and l r ihl ihr := by
    rw [Predicate.pieces, Predicate.identifiers, namesOf_text, namesOf_append, namesOf_text,
      namesOf_append, quotedOf_append, ihl, ihr]
    simp only [namesOf_text, namesOf_nil, List.append_nil]
  select columns source predicate orderBy limit offset ihcolumns ihsource ihpredicate ihorder := by
    have hcolumns : namesOf (separated ", " (SelectItem.portions true columns)) =
        quotedOf (SelectItem.identifiersOfList columns) := by
      rw [SelectItem.portions_eq_map, SelectItem.identifiersOfList_eq]
      exact namesOf_separated_map ", " columns _ _ fun item hitem =>
        item.pieces_names (ihcolumns item hitem)
    have hsource : namesOf (fromPieces true source) =
        quotedOf (Source.identifiersOfOption source) := by
      cases source with
      | none => rfl
      | some source =>
          rw [fromPieces, namesOf_text, Source.identifiersOfOption]
          exact source.pieces_names fun s a hs => ihsource s a (congrArg some hs)
    have horder : namesOf (sortPieces true orderBy) =
        quotedOf (OrderTerm.identifiersOfOption orderBy) := by
      cases orderBy with
      | none => rfl
      | some terms =>
          rw [sortPieces, OrderTerm.portions_eq_map, OrderTerm.identifiersOfOption,
            OrderTerm.identifiersOfList_eq, namesOf_text, namesOf_text]
          refine namesOf_separated_map ", " terms _ _ fun term hterm => ?_
          rcases term with ⟨c, d⟩
          rw [OrderTerm.pieces, namesOf_append, namesOf_text, namesOf_nil, List.append_nil]
          exact ihorder terms rfl ⟨c, d⟩ hterm
    rw [Select.pieces_eq, Select.identifiers]
    simp only [namesOf_text, namesOf_append, quotedOf_append, hcolumns, hsource, horder,
      namesOf_wherePieces predicate _ ihpredicate]
    cases limit <;> cases offset <;>
      simp only [Option.map_none, Option.map_some, clausePieces, limitPieces, offsetPieces, namesOf,
        List.filterMap_cons, List.filterMap_nil, Piece.name?, List.append_nil]

end Sql

/-! ### Where names may come from -/

/-- A name of a column in the metadata of an entity: that of the identifier, of the
    column that a field is stored in, or of a field that is computed. -/
def Schema.Entity.Names (entity : Entity) (text : String) : Prop :=
  text = entity.idColumnName ∨
    (∃ entry ∈ entity.fields, entry.2.nativeColumnName = some text) ∨
    ∃ field, (text, field) ∈ entity.fields ∧ field.nativeColumnName = none ∧
      field.relation = none

/-- A column that one of the two sides of a relation names. -/
def Schema.Endpoints.Names (sides : Endpoints) (text : String) : Prop :=
  sides.own.columnName = some text ∨ sides.foreign.columnName = some text

/-- The node of a request that a column in the statement stands for. The request
    itself stands for the column of the statement, and the nodes that are selected
    below a node for the columns of its rows: the first for the first, the second
    for the second, and so on. -/
inductive QueryNode.Produces (root : QueryNode) (statement : Select) :
    QueryNode → SelectItem → Prop where
  | outermost (item : SelectItem) : statement.columns = [item] → Produces root statement root item
  | selected (owner node : QueryNode) (fetch : Fetch) (aliasName : String) (rows : Select)
      (resultKey typeName key : String) (fields : List (String × QueryNode)) (item : SelectItem) :
      Produces root statement owner (levelColumn fetch aliasName rows resultKey) →
      owner.selection? = some (typeName, fields) →
      ((key, node), item) ∈ fields.zip rows.columns → Produces root statement node item

/-- Where the names of the statement of a request come from. An alias is that of a
    number. The names of views and of columns are in the metadata of an entity that a
    level of the request selects from, or of a relation that one of its nodes follows,
    and so are the element types of arrays. The name of a result is the result key of
    the node that the column stands for. -/
def Sql.Identifier.Traced (schema : Schema) (root : QueryNode) (statement : Select) :
    Identifier → Prop
  | .aliasName text => ∃ n, text = localAlias n
  | .viewSchema text => ∃ level ∈ root.levels schema, text = schema.entityViewSchema level.entity
  | .viewName text => ∃ level ∈ root.levels schema,
      text = level.entity.publicViewName ∨ text = level.entity.authViewName
  | .column text => (∃ level ∈ root.levels schema, level.entity.Names text) ∨
      ∃ use ∈ root.relationUses schema, ∃ sides, use.sides? schema = some sides ∧ sides.Names text
  | .output item text => ∃ node, root.Produces statement node item ∧ text = node.resultKey
  | .elementType text => ∃ use ∈ root.relationUses schema, ∃ sides,
      use.sides? schema = some sides ∧ text = sides.own.arrayElementType

namespace Schema.Entity

variable {entity : Entity}

/-- A column by which rows can be matched is in the metadata. -/
theorem names_of_hasColumn (name : String) (h : hasColumn entity name = true) :
    entity.Names name := by
  rw [hasColumn, Bool.or_eq_true, beq_iff_eq, List.any_eq_true] at h
  rcases h with hid | ⟨entry, hentry, hnative⟩
  · exact Or.inl hid
  · exact Or.inr (Or.inl ⟨entry, hentry, beq_iff_eq.mp hnative⟩)

theorem names_of_native (name columnName : String) (field : Field)
    (hfield : entity.field? name = some field)
    (hnative : field.nativeColumnName = some columnName) : entity.Names columnName :=
  Or.inr (Or.inl ⟨(name, field), entity.fields.mem_of_get? name field hfield, hnative⟩)

/-- The column under which a field is shown is in the metadata, also if it has the
    name by which the request asked for it. -/
theorem names_of_field (name : String) (field : Field) (hfield : entity.field? name = some field)
    (hrelation : field.relation = none) : entity.Names (field.columnName name) := by
  cases hnative : field.nativeColumnName with
  | some columnName =>
      rw [Field.columnName, hnative]
      exact names_of_native name columnName field hfield hnative
  | none =>
      rw [Field.columnName, hnative]
      exact Or.inr (Or.inr ⟨field, entity.fields.mem_of_get? name field hfield, hnative, hrelation⟩)

end Schema.Entity

theorem ChildColumn.names_of_toColumn (child : ChildColumn) (typeName : String) (entity : Entity)
    (aliasName : String) (column : Column)
    (h : child.toColumn typeName entity aliasName = .ok column) :
    entity.Names (child.nameIn entity) := by
  cases child with
  | primaryKey => exact Or.inl rfl
  | named name =>
      by_cases hcolumn : hasColumn entity name = true
      · exact Entity.names_of_hasColumn name hcolumn
      · rw [ChildColumn.toColumn, if_neg hcolumn] at h
        simp only [reduceCtorEq] at h

/-! ### Tracing -/

section Tracing

variable (schema : Schema) (root : QueryNode) (statement : Select)

/-- An entity that a level of the request selects from. -/
def QueryNode.Reaches (entity : Entity) : Prop :=
  ∃ level ∈ root.levels schema, level.entity = entity

/-- A column of which all names are traced. -/
def Sql.Column.Traced (column : Column) : Prop :=
  ∀ i ∈ column.identifiers, i.Traced schema root statement

variable {schema root statement}

theorem Sql.Column.traced_param (p : Param) : (Column.param p).Traced schema root statement := by
  intro i hi
  rw [Column.identifiers] at hi
  exact absurd hi List.not_mem_nil

theorem Sql.Column.traced_physical (n : Nat) (name : String)
    (h : (Identifier.column name).Traced schema root statement) :
    (Column.physical (localAlias n) name).Traced schema root statement := by
  intro i hi
  rw [Column.identifiers, List.mem_cons, List.mem_singleton] at hi
  rcases hi with rfl | rfl
  · exact ⟨n, rfl⟩
  · exact h

/-- A column of an entity that the request reaches. -/
theorem Sql.Column.traced_entity (n : Nat) (entity : Entity) (name : String)
    (hreaches : root.Reaches schema entity) (hname : entity.Names name) :
    (Column.physical (localAlias n) name).Traced schema root statement := by
  rcases hreaches with ⟨level, hlevel, rfl⟩
  exact traced_physical n name (Or.inl ⟨level, hlevel, hname⟩)

/-- The columns of the filter and of the sort of a level belong to its entity. -/
theorem Level.traced_column (level : Level) (n : Nat) (halias : level.aliasName = localAlias n)
    (hreaches : root.Reaches schema level.entity) (name : String) (g : Guarded Column)
    (h : level.column name = .ok g) : g.value.Traced schema root statement := by
  rcases (level.column_eq_ok_iff name g).mp h with
    ⟨field, columnName, hfield, _, hnative, hvalue⟩
  rw [hvalue, halias]
  exact Column.traced_entity n level.entity columnName hreaches
    (Entity.names_of_native name columnName field ((level.field_eq_ok_iff name _).mp hfield).1
      hnative)

variable (schema root statement) in
/-- A constraint that compares nothing but columns whose names are traced, with the
    rows of whatever entity it is put on. -/
def Constraint.Traced (constraint : Option Constraint) : Prop :=
  ∀ typeName entity n matching, root.Reaches schema entity →
    matchPredicate constraint typeName entity (localAlias n) = .ok matching →
      ∀ c ∈ matching.columns, c.Traced schema root statement

/-- A value that the caller gives is compared with a column that the entity has. -/
theorem Constraint.traced_anchor (anchor : Option (ChildColumn × Value)) :
    Constraint.Traced schema root statement (anchor.map fun a => .equals a.1 (.value a.2)) := by
  intro typeName entity n matching hreaches h c hc
  cases anchor with
  | none =>
      simp only [Option.map_none, matchPredicate, Except.ok.injEq] at h
      rw [← h] at hc
      exact absurd hc List.not_mem_nil
  | some a =>
      simp only [Option.map_some, matchPredicate, Constraint.predicate, bind_eq_ok_iff, pure,
        Except.pure, Except.ok.injEq] at h
      rcases h with ⟨column, hcolumn, rfl⟩
      rcases Predicate.mem_columns_equal column a.2 c (Or.inl hc) with rfl | ⟨text, rfl⟩
      · rw [a.1.toColumn_eq_ok typeName entity _ c hcolumn]
        exact Column.traced_entity n entity _ hreaches
          (a.1.names_of_toColumn typeName entity _ c hcolumn)
      · exact Column.traced_param _

/-- A link compares identifiers with columns that the relation names, or else with
    the column of the field. -/
theorem Constraint.traced_link (level : Level) (n : Nat) (halias : level.aliasName = localAlias n)
    (hreaches : root.Reaches schema level.entity) (node : QueryNode) (field : Field)
    (hfield : level.entity.field? node.name = some field) (use : FieldLink)
    (huse : ⟨level.entity, field.nativeColumnName, use, node⟩ ∈ root.relationUses schema)
    (fetch : Fetch) (constraint : Constraint)
    (hlink : schema.link level node.name field use = .ok (fetch, constraint)) :
    Constraint.Traced schema root statement (some constraint) := by
  intro typeName entity m matching htarget h c hc
  rcases link?_of_link schema level node field use fetch constraint typeName entity _ matching hlink
    h with ⟨sides, hsides, hlinked⟩
  have hid : ∀ (k : Nat) (e : Entity), root.Reaches schema e →
      (Column.physical (localAlias k) e.idColumnName).Traced schema root statement :=
    fun k e he => Column.traced_entity k e _ he (Or.inl rfl)
  have hside : ∀ (k : Nat) (key : String), sides.Names key →
      (Column.physical (localAlias k) key).Traced schema root statement :=
    fun k key hkey => Column.traced_physical k key (Or.inr ⟨_, huse, sides, hsides, hkey⟩)
  -- The owner stores its link where the relation says, or where the field is stored.
  have hown : ∀ key, (sides.own.columnName <|> field.nativeColumnName) = some key →
      (Column.physical (localAlias n) key).Traced schema root statement := by
    intro key hkey
    cases hcolumn : sides.own.columnName with
    | some column =>
        rw [hcolumn, Option.orElse_eq_orElse, Option.orElse_some] at hkey
        exact hside n key (Or.inl (hcolumn.trans hkey))
    | none =>
        rw [hcolumn, Option.orElse_eq_orElse, Option.orElse_none] at hkey
        exact Column.traced_entity n level.entity key hreaches
          (Entity.names_of_native node.name key field hfield hkey)
  rw [halias] at hlinked
  unfold RelationUse.link? at hlinked
  split at hlinked
  -- A row of the owner stores one key.
  · rcases Option.map_eq_some_iff.mp hlinked with ⟨key, hkey, rfl⟩
    simp only [Predicate.columns, List.mem_cons, List.not_mem_nil, or_false] at hc
    rcases hc with rfl | rfl
    · exact hid m entity htarget
    · exact hown key hkey
  -- It stores an array of keys. Nowhere else is there an element type.
  · rcases Option.map_eq_some_iff.mp hlinked with ⟨array, harray, rfl⟩
    simp only [Predicate.columns, List.mem_cons, List.not_mem_nil, or_false] at hc
    rcases hc with rfl | rfl
    · exact hown array harray
    · intro i hi
      rw [Column.identifiers, List.mem_append, List.mem_singleton] at hi
      rcases hi with hcolumn | rfl
      · exact hid m entity htarget i hcolumn
      · exact ⟨_, huse, sides, hsides, rfl⟩
  -- It stores nothing, and the rows that belong to it store its key.
  · rcases Option.bind_eq_some_iff.mp hlinked with ⟨key, hkey, hcompare⟩
    split at hcompare
    · obtain rfl := Option.some.inj hcompare
      simp only [Predicate.columns, List.mem_cons, List.not_mem_nil, or_false] at hc
      rcases hc with rfl | rfl
      · exact hside m key (Or.inr hkey)
      · exact hid n level.entity hreaches
    · exact absurd hcompare (Option.some_ne_none _).symm

/-- The names of a level are traced if those of its columns are. -/
theorem assembleLevel_traced (fetch : Fetch) (level : Level) (n : Nat)
    (halias : level.aliasName = localAlias n) (hreaches : root.Reaches schema level.entity)
    (args : List (String × Value)) (constraint : Option Constraint) (selected : ResolvedFields)
    (clauses : Guarded Clauses) (matching : Predicate) (hclauses : level.clauses args = .ok clauses)
    (hmatching : matchPredicate constraint level.typeName level.entity level.aliasName =
      .ok matching)
    (hconstraint : Constraint.Traced schema root statement constraint)
    (hcolumns : ∀ i ∈ SelectItem.identifiersOfList selected.columns,
      i.Traced schema root statement) :
    ∀ i ∈ (assembleLevel schema fetch level selected clauses matching).select.identifiers,
      i.Traced schema root statement := by
  rcases level.clauses_asked args clauses hclauses with
    ⟨⟨filter, hfilter, hpredicate⟩, ⟨sort, hsort, horderBy⟩, _, _⟩
  rw [halias] at hmatching
  -- A level writes its columns, its view, its condition and its sort.
  intro i hi
  simp only [assembleLevel, Select.identifiers, List.mem_append] at hi
  rcases hi with ((hcolumn | hsource) | hcondition) | horder
  · exact hcolumns i hcolumn
  · rcases hreaches with ⟨reached, hreached, hentity⟩
    simp only [Source.identifiersOfOption, Source.identifiers, List.mem_cons, List.not_mem_nil,
      or_false] at hsource
    rcases hsource with rfl | rfl | rfl
    · exact ⟨reached, hreached, by rw [hentity]⟩
    · refine ⟨reached, hreached, ?_⟩
      rw [hentity, Entity.viewName]
      split
      · exact Or.inr rfl
      · exact Or.inl rfl
    · exact ⟨n, halias⟩
  · rcases Predicate.exists_column_of_mem _ i hcondition with ⟨c, hc, hmem⟩
    rcases Predicate.mem_columns_conj _ _ c hc with hmatched | hfiltered
    -- The condition joins the constraint, which is traced already, and the filter,
    -- which compares columns of the level with bound texts.
    · exact hconstraint level.typeName level.entity n matching hreaches hmatching c hmatched i hmem
    · rw [hpredicate] at hfiltered
      rcases level.filter_columns _ filter hfilter c hfiltered with
        ⟨name, _, g, hg, rfl⟩ | ⟨text, rfl⟩
      · exact level.traced_column n halias hreaches name g hg i hmem
      · exact Column.traced_param _ i hmem
  · rcases OrderTerm.exists_term_of_mem _ i horder with ⟨term, hterm, hmem⟩
    rw [horderBy] at hterm
    cases hterms : sort.value with
    | none =>
        rw [hterms] at hterm
        exact absurd hterm List.not_mem_nil
    | some terms =>
        rw [hterms, Option.getD_some] at hterm
        rcases level.sort_columns _ sort hsort terms hterms term hterm with ⟨name, _, g, hg, hc⟩
        rw [hc] at hmem
        exact level.traced_column n halias hreaches name g hg i hmem

/-- The JSON around the rows of a level adds its alias to the names of the rows. -/
theorem levelColumn_identifiers (fetch : Fetch) (n : Nat) (rows : Select) (resultKey : String)
    (i : Identifier)
    (h : i ∈ (levelColumn fetch (localAlias n) rows resultKey).column.identifiers) :
    i = .aliasName (localAlias n) ∨ i ∈ rows.identifiers := by
  cases fetch <;>
    simp only [levelColumn, asJson, Select.ofSource, Column.identifiers, Select.identifiers,
      SelectItem.identifiersOfList, Source.identifiersOfOption, Source.identifiers,
      Predicate.identifiers, OrderTerm.identifiersOfOption, Option.toList_none, List.map_nil,
      List.append_nil, List.mem_append, List.mem_singleton] at h
  all_goals
    rcases h with houter | hrows | hsource
    · exact Or.inl houter
    · exact Or.inr hrows
    · exact Or.inl hsource

variable (schema root statement)

/-- The names of a level are traced, if the node that it belongs to stands for its
    column. By induction over the request: the levels and the relations of a part are
    among those of the whole, and what is selected below a node stands for the columns
    of its rows. -/
theorem resolve_traced :
    (∀ (node : QueryNode) (authenticated : Bool) (fetch : Fetch) (position : Position)
      (constraint : Option Constraint) (next : Nat) (r : Resolved) (resultKey : String),
      resolveLevel schema authenticated fetch position constraint next node = .ok r →
      root.Produces statement node (levelColumn fetch (localAlias next) r.select resultKey) →
      node.levels schema ⊆ root.levels schema →
      node.relationUses schema ⊆ root.relationUses schema →
      Constraint.Traced schema root statement constraint →
        ∀ i ∈ r.select.identifiers, i.Traced schema root statement) ∧
    ∀ (fields : List (String × QueryNode)) (level : Level) (n next : Nat) (r : ResolvedFields),
      resolveFields schema level next fields = .ok r →
      level.aliasName = localAlias n →
      root.Reaches schema level.entity →
      (∀ pair ∈ fields.zip r.columns, root.Produces statement pair.1.2 pair.2) →
      QueryNode.levelsBelow schema level.entity fields ⊆ root.levels schema →
      QueryNode.relationUsesBelow schema level.entity fields ⊆ root.relationUses schema →
        ∀ i ∈ SelectItem.identifiersOfList r.columns, i.Traced schema root statement := by
  refine QueryNode.induction ?_ ?_ ?_ ?_
  · intro name aliasName args authenticated fetch position constraint next r resultKey h
    simp only [resolveLevel, reduceCtorEq] at h
  · intro name aliasName typeName fields more args ih authenticated fetch position constraint next
      r resultKey h hproduces hlevels huses hconstraint
    rcases resolveLevel_eq_ok schema authenticated fetch position constraint next name aliasName
      typeName fields more args r h with
      ⟨entity, selected, clauses, matching, hentity, hselected, hclauses, hmatching, rfl⟩
    rw [QueryNode.levels, hentity] at hlevels
    rw [QueryNode.relationUses, hentity] at huses
    have hreaches : root.Reaches schema entity := ⟨_, hlevels List.mem_cons_self, rfl⟩
    refine assembleLevel_traced fetch _ (next + 1) rfl hreaches args constraint selected clauses
      matching hclauses hmatching hconstraint ?_
    refine ih _ (next + 1) (next + 2) selected hselected rfl hreaches ?_
      (fun level hlevel => hlevels (List.mem_cons_of_mem _ hlevel)) huses
    intro pair hpair
    exact .selected _ pair.1.2 fetch _ _ resultKey typeName pair.1.1 fields pair.2 hproduces rfl
      hpair
  · intro level n next r h _ _ _ _ _ i hi
    simp only [resolveFields, Except.ok.injEq] at h
    rw [← h] at hi
    exact absurd hi List.not_mem_nil
  · intro key node rest ihnode ihrest level n next r h halias hreaches hproduces hlevels huses i hi
    rw [QueryNode.levelsBelow] at hlevels
    rw [QueryNode.relationUsesBelow] at huses
    -- The other fields stand for the other columns, whichever column comes first.
    have hothersTraced : ∀ (next : Nat) (item : SelectItem) (others : ResolvedFields),
        resolveFields schema level next rest = .ok others →
        (∀ pair ∈ ((key, node) :: rest).zip (item :: others.columns),
          root.Produces statement pair.1.2 pair.2) →
        ∀ i ∈ SelectItem.identifiersOfList others.columns, i.Traced schema root statement := by
      intro next item others hothers hproduces
      exact ihrest level n next others hothers halias hreaches
        (fun pair hpair => hproduces pair (List.mem_cons_of_mem _ hpair))
        (fun l hl => hlevels (List.mem_append_right _ hl))
        (fun u hu => huses (List.mem_append_right _ hu))
    rcases resolveFields_cons_eq_ok schema level next key node rest r h with
      ⟨field, hfield, ⟨hrelation, others, hothers, rfl⟩ |
        ⟨use, fetch, constraint, below, others, hrelation, hlink, hbelow, hothers, rfl⟩⟩
    · have hentity := ((level.field_eq_ok_iff node.name field).mp hfield).1
      rcases SelectItem.mem_identifiersOfList_cons _ _ _ i hi with hcolumn | rfl | hrest
      · rw [halias] at hcolumn
        exact Column.traced_entity n level.entity _ hreaches
          (Entity.names_of_field node.name field.value hentity hrelation) i hcolumn
      · exact ⟨node, hproduces _ List.mem_cons_self, rfl⟩
      · exact hothersTraced next _ others hothers hproduces i hrest
    · have hentity := ((level.field_eq_ok_iff node.name field).mp hfield).1
      have hproduced := hproduces _ List.mem_cons_self
      rcases SelectItem.mem_identifiersOfList_cons _ _ _ i hi with hcolumn | rfl | hrest
      · rcases levelColumn_identifiers fetch next below.select node.resultKey i hcolumn with
          rfl | hbelowNames
        · exact ⟨next, rfl⟩
        · -- The node is followed, so its levels and its relations are the request's.
          have hfollowed : ((level.entity.field? node.name).bind Field.relation).isSome = true := by
            rw [hentity, Option.bind_some, hrelation]
            rfl
          have hvalue : field.value = ⟨field.value.nativeColumnName, some use⟩ := by
            rw [← hrelation]
          rw [if_pos hfollowed] at hlevels
          rw [hentity, hvalue] at huses
          have huse := huses (List.mem_append_left _ List.mem_cons_self)
          exact ihnode _ fetch _ _ next below node.resultKey hbelow hproduced
            (fun l hl => hlevels (List.mem_append_left _ hl))
            (fun u hu => huses (List.mem_append_left _ (List.mem_cons_of_mem _ hu)))
            (Constraint.traced_link level n halias hreaches node field.value hentity use huse fetch
              constraint hlink) i hbelowNames
      · exact ⟨node, hproduced, rfl⟩
      · exact hothersTraced below.next _ others hothers hproduces i hrest

end Tracing

/-! ### Queries -/

/-- Every name that is written in a compiled query is traced, and so is every element
    type of an array: to the numbering of aliases, to the metadata of an entity or of
    a relation that the request reaches, or, behind the column of a select, to the
    node that the column stands for. -/
theorem compileQuery_identifiers (schema : Schema) (minDepth : Nat) (authenticated : Bool)
    (anchor : Option (ChildColumn × Value)) (node : QueryNode) (c : CompiledQuery)
    (h : schema.compileQuery minDepth authenticated
      (anchor.map fun a => .equals a.1 (.value a.2)) node = .ok c) :
    namesOf (c.statement.pieces true) = quotedOf c.statement.identifiers ∧
      ∀ i ∈ c.statement.identifiers, i.Traced schema node c.statement := by
  refine ⟨pieces_names.forSelect c.statement, ?_⟩
  simp only [Schema.compileQuery, bind_eq_ok_iff, pure, Except.pure, Except.ok.injEq] at h
  rcases h with ⟨r, hr, rfl⟩
  have hproduces : node.Produces
      (Select.expression [levelColumn .aggregation (localAlias 0) r.select node.resultKey]) node
      (levelColumn .aggregation (localAlias 0) r.select node.resultKey) := .outermost _ rfl
  intro i hi
  -- The statement is nothing but its one column.
  simp only [Select.expression, Select.identifiers, Source.identifiersOfOption,
    Predicate.identifiers, OrderTerm.identifiersOfOption, List.append_nil] at hi
  rcases SelectItem.mem_identifiersOfList_cons _ _ _ i hi with hcolumn | rfl | hnone
  · rcases levelColumn_identifiers .aggregation 0 r.select node.resultKey i hcolumn with
      rfl | hrows
    · exact ⟨0, rfl⟩
    · exact (resolve_traced schema node _).1 node _ _ _ _ 0 r node.resultKey hr hproduces
        (List.Subset.refl _) (List.Subset.refl _) (Constraint.traced_anchor anchor) i hrows
  · exact ⟨node, hproduces, rfl⟩
  · exact absurd hnone List.not_mem_nil

/-- The names in the query for one user and the posts of that user. -/
theorem compileQuery_identifiers_blog :
    ∃ c, Blog.schema.compileQuery 3 true (some (.onId (.string "7"))) Blog.request = .ok c ∧
      "author_id" ∈ namesOf (c.statement.pieces true) ∧
      ∀ i ∈ c.statement.identifiers, i.Traced Blog.schema Blog.request c.statement := by
  have hcompiles : ∃ c,
      Blog.schema.compileQuery 3 true (some (.onId (.string "7"))) Blog.request = .ok c ∧
        "author_id" ∈ namesOf (c.statement.pieces true) := ⟨_, rfl, by decide +kernel⟩
  rcases hcompiles with ⟨c, hc, hkey⟩
  exact ⟨c, hc, hkey, (compileQuery_identifiers Blog.schema 3 true (some (.primaryKey, .string "7"))
    Blog.request c hc).2⟩

end ViewCompiler
