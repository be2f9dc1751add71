import Mathlib.Data.List.Nodup
import ViewCompiler.Proofs.Parameters
import ViewCompiler.Proofs.Relations

/-!
# The Levels of a Query in Their Places

Where the levels of a request are found in the compiled statement, and what each
of them refers to.

The levels of a request are numbered in the order in which they are met, an
outer one before those inside it. Besides its number a level has an entry, which
tells how its rows are chosen: all of them, those that a value is compared with,
or those that belong to a row of the level around it. Number, entry and level
make up a `Place`. The places of a request are found by walking through it, and
no counter of aliases takes part in that.

The selects of a statement come in the same order. After the statement itself
there are two of them for each place, the JSON around the rows and the rows
(`laidOut`), and their aliases are twice the number and one more than that. So a
place and a pair of selects belong together by their position alone.

What a select refers to is looked at one select at a time. `Select.ownColumns`
lists what is written in a select itself, without what is inside of selects that
are nested in it. The rows of a place refer to columns of the fields that the
level uses, under the alias of the place. Only the condition by which the rows
are chosen can refer to anything else (`Place.FilledBy`).

## Main definitions

* `Column.references`, `Column.rowAliases`: What a column refers to.
* `Select.ownColumns`: The columns that are written in a select itself.
* `Entry`: How the rows of a level are chosen.
* `Place`, `QueryNode.places`: The levels of a request with their numbers.
* `laidOut`: The selects of numbered levels.
* `Place.FilteredBy`, `Place.FilledBy`: A select of the rows of a level.

## Theorems

* `QueryNode.map_level_places`, `QueryNode.map_number_places`: The places of a
  request are its levels, numbered one by one.
* `QueryNode.entry_places`: A nested place belongs to a relation that another
  place selects.
* `resolve_places`: The selects of a level are laid out in the order of its
  places.
* `compileQuery_places`: So are those of a query.
-/

namespace ViewCompiler

open Json Sql Schema

namespace Sql

/-! ### References -/

/-- The columns of sources that a column refers to, by alias and name. What is
    inside of a select is left to that select. -/
def Column.references : Column → List (String × String)
  | .physical tableAlias name => [(tableAlias, name)]
  | .jsonAgg c => c.references
  | .array c _ => c.references
  | _ => []

/-- The aliases of the sources that a column takes the whole row of. -/
def Column.rowAliases : Column → List String
  | .rowToJson tableAlias => [tableAlias]
  | .jsonAgg c => c.rowAliases
  | .array c _ => c.rowAliases
  | _ => []

/-- The columns that a predicate refers to. -/
def Predicate.references (p : Predicate) : List (String × String) :=
  p.columns.flatMap Column.references

/-- The columns that are written in a select itself. -/
def Select.ownColumns (s : Select) : List Column :=
  s.columns.map (fun item => item.column) ++ s.predicate.columns ++
    (s.orderBy.getD []).map fun term => term.column

/-- The columns that a select itself refers to. -/
def Select.references (s : Select) : List (String × String) :=
  s.ownColumns.flatMap Column.references

/-- The aliases of the sources that a select itself takes whole rows of. -/
def Select.rowAliases (s : Select) : List String :=
  s.ownColumns.flatMap Column.rowAliases

/-- The alias that a select introduces. -/
def Select.fromAlias? (s : Select) : Option String :=
  s.source.map Source.aliasName

theorem Predicate.columns_conj (p q : Predicate) (hp : p ≠ .never) (hq : q ≠ .never) :
    (p.conj q).columns = p.columns ++ q.columns := by
  unfold Predicate.conj
  split
  · exact absurd rfl hp
  · exact absurd rfl hq
  · rw [Predicate.columns, List.nil_append]
  · rw [Predicate.columns, List.append_nil]
  · rw [Predicate.columns]

/-! ### Layout -/

/-- The selects of levels that are numbered from `number` on: for each the JSON
    around its rows, then the rows. -/
def laidOut (number : Nat) : List (Fetch × Select) → List Select
  | [] => []
  | (fetch, rows) :: rest =>
      asJson fetch (localAlias (2 * number)) rows :: rows :: laidOut (number + 1) rest

theorem laidOut_append (number : Nat) (ws vs : List (Fetch × Select)) :
    laidOut number (ws ++ vs) = laidOut number ws ++ laidOut (number + ws.length) vs := by
  induction ws generalizing number with
  | nil => rfl
  | cons w rest ih =>
      rcases w with ⟨fetch, rows⟩
      have hnumber : number + 1 + rest.length = number + (rest.length + 1) := by omega
      rw [List.cons_append, laidOut, laidOut, ih, List.length_cons, hnumber, List.cons_append,
        List.cons_append]

end Sql

/-- The JSON around rows holds the rows, and no other select. -/
theorem asJson_selects (fetch : Fetch) (aliasName : String) (rows : Select) :
    (asJson fetch aliasName rows).selects = asJson fetch aliasName rows :: rows.selects := by
  cases fetch <;>
    simp only [asJson, Select.ofSource, Select.selects, SelectItem.selectsOfList,
      SelectItem.selects, Column.selects, Source.selectsOfOption, Source.selects,
      Predicate.selects, OrderTerm.selectsOfOption, List.nil_append, List.append_nil]

/-- The JSON around rows takes whole rows, and refers to no column of them. -/
theorem asJson_references (fetch : Fetch) (aliasName : String) (rows : Select) :
    (asJson fetch aliasName rows).references = [] ∧
      (asJson fetch aliasName rows).rowAliases = [aliasName] := by
  cases fetch <;> exact ⟨rfl, rfl⟩

theorem mem_laidOut (number : Nat) (ws : List (Fetch × Select)) (s : Select)
    (h : s ∈ laidOut number ws) :
    ∃ w ∈ ws, s = w.2 ∨ ∃ aliasName, s = asJson w.1 aliasName w.2 := by
  induction ws generalizing number with
  | nil => exact absurd h List.not_mem_nil
  | cons w rest ih =>
      simp only [laidOut, List.mem_cons] at h
      rcases h with hjson | hrows | hrest
      · exact ⟨w, List.mem_cons_self, Or.inr ⟨_, hjson⟩⟩
      · exact ⟨w, List.mem_cons_self, Or.inl hrows⟩
      · rcases ih (number + 1) hrest with ⟨v, hv, hs⟩
        exact ⟨v, List.mem_cons_of_mem w hv, hs⟩

/-- A level holds the selects of its columns, and no other. -/
theorem assembleLevel_selects (schema : Schema) (fetch : Fetch) (level : Level)
    (args : List (String × Value)) (constraint : Option Constraint) (selected : ResolvedFields)
    (clauses : Guarded Clauses) (matching : Predicate) (hclauses : level.clauses args = .ok clauses)
    (hmatching : matchPredicate constraint level.typeName level.entity level.aliasName =
      .ok matching) :
    (assembleLevel schema fetch level selected clauses matching).select.selects =
      (assembleLevel schema fetch level selected clauses matching).select ::
        SelectItem.selectsOfList selected.columns := by
  have hpredicate := conj_selects_eq_nil level args constraint clauses matching hclauses hmatching
  have horder := orderBy_selects_eq_nil level args clauses hclauses
  simp only [assembleLevel, Select.selects, Source.selectsOfOption, Source.selects, hpredicate,
    horder, List.append_nil]

/-! ### Places -/

/-- How the rows of a level are chosen. -/
inductive Entry where
  /-- All rows. -/
  | all
  /-- The rows in which a column is equal to a value. -/
  | anchored (child : ChildColumn)
  /-- The rows that belong to a row of the level with the number `enclosing`. -/
  | related (enclosing : Nat) (use : RelationUse)

/-- A level of a request, with its number. -/
structure Place where
  number : Nat
  entry : Entry
  level : RequestLevel

/-- The alias of the view that a place reads. -/
def Place.rowsAlias (p : Place) : String := localAlias (2 * p.number + 1)

mutual
/-- The places of a request, numbered from `number` on. -/
def QueryNode.places (schema : Schema) (entry : Entry) (number : Nat) : QueryNode → List Place
  | .mk _ _ [] _ => []
  | .mk _ _ ((typeName, fields) :: _) args =>
      match schema.entity? typeName with
      | none => []
      | some entity =>
          ⟨number, entry, RequestLevel.selecting entity fields args⟩ ::
            QueryNode.placesBelow schema entity number (number + 1) fields
/-- The places that the relations among the fields of an entity lead to, numbered
    from `number` on. The entity is that of the place `own`. -/
def QueryNode.placesBelow (schema : Schema) (entity : Entity) (own number : Nat) :
    List (String × QueryNode) → List Place
  | [] => []
  | (_, node) :: rest =>
      match entity.field? node.name with
      | some ⟨column, some use⟩ =>
          node.places schema (.related own ⟨entity, column, use, node⟩) number ++
            QueryNode.placesBelow schema entity own
              (number + (node.places schema (.related own ⟨entity, column, use, node⟩)
                number).length) rest
      | _ => QueryNode.placesBelow schema entity own number rest
end

/-- A relation field that a level selects. -/
def RequestLevel.Selects (level : RequestLevel) (use : RelationUse) : Prop :=
  use.owner = level.entity ∧ ∃ name ∈ level.fieldNames,
    level.entity.field? name = some ⟨use.nativeColumnName, some use.use⟩

namespace QueryNode

theorem map_level_places (schema : Schema) :
    (∀ (node : QueryNode) (entry : Entry) (number : Nat),
      (node.places schema entry number).map Place.level = node.levels schema) ∧
    ∀ (fields : List (String × QueryNode)) (entity : Entity) (own number : Nat),
      (placesBelow schema entity own number fields).map Place.level =
        levelsBelow schema entity fields := by
  refine QueryNode.induction ?_ ?_ ?_ ?_
  · intro name aliasName args entry number
    rw [places, levels, List.map_nil]
  · intro name aliasName typeName fields more args ih entry number
    rw [places, levels]
    cases schema.entity? typeName with
    | none => rfl
    | some entity => exact congrArg _ (ih entity number (number + 1))
  · intro entity own number
    rw [placesBelow, levelsBelow, List.map_nil]
  · intro key node rest ihnode ihrest entity own number
    rw [placesBelow, levelsBelow]
    split
    · rename_i column use hfield
      rw [hfield, List.map_append, ihnode, ihrest]
      rfl
    -- A field that is not known, or stands for no relation, leads nowhere.
    · rename_i hfield
      have hnone : ((entity.field? node.name).bind Field.relation).isSome = false := by
        cases hf : entity.field? node.name with
        | none => rfl
        | some field =>
            rcases field with ⟨column, relation⟩
            cases relation with
            | none => rfl
            | some use => exact absurd hf (hfield column use)
      rw [hnone, ihrest]
      rfl

theorem map_number_places (schema : Schema) :
    (∀ (node : QueryNode) (entry : Entry) (number : Nat),
      (node.places schema entry number).map Place.number =
        List.range' number (node.places schema entry number).length) ∧
    ∀ (fields : List (String × QueryNode)) (entity : Entity) (own number : Nat),
      (placesBelow schema entity own number fields).map Place.number =
        List.range' number (placesBelow schema entity own number fields).length := by
  refine QueryNode.induction ?_ ?_ ?_ ?_
  · intro name aliasName args entry number
    rw [places]
    rfl
  · intro name aliasName typeName fields more args ih entry number
    rw [places]
    cases schema.entity? typeName with
    | none => rfl
    | some entity =>
        simp only [List.map_cons, List.length_cons, List.range'_succ, ih]
  · intro entity own number
    rw [placesBelow]
    rfl
  · intro key node rest ihnode ihrest entity own number
    rw [placesBelow]
    split
    -- The places of the other fields are numbered from where those of this one end.
    · rw [List.map_append, ihnode, ihrest, List.length_append, ← List.range'_append_1]
    · exact ihrest entity own number

/-- No two places of a request have the same number. -/
theorem eq_of_number_eq (schema : Schema) (node : QueryNode) (entry : Entry) (number : Nat)
    (p q : Place) (hp : p ∈ node.places schema entry number)
    (hq : q ∈ node.places schema entry number) (h : p.number = q.number) : p = q := by
  have hnodup : ((node.places schema entry number).map Place.number).Nodup := by
    rw [(map_number_places schema).1]
    exact List.nodup_range'
  exact List.inj_on_of_nodup_map hnodup hp hq h

/-- A place has the entry of the request, or belongs to a relation that another
    place selects. -/
theorem entry_places (schema : Schema) :
    (∀ (node : QueryNode) (entry : Entry) (number : Nat),
      ∀ q ∈ node.places schema entry number, q.entry = entry ∨
        ∃ p ∈ node.places schema entry number, ∃ use,
          q.entry = .related p.number use ∧ p.level.Selects use) ∧
    ∀ (fields : List (String × QueryNode)) (entity : Entity) (own number : Nat),
      ∀ q ∈ placesBelow schema entity own number fields,
        (∃ use : RelationUse, q.entry = .related own use ∧ use.owner = entity ∧
          ∃ name ∈ fields.map fun field => field.2.name,
            entity.field? name = some ⟨use.nativeColumnName, some use.use⟩) ∨
        ∃ p ∈ placesBelow schema entity own number fields, ∃ use,
          q.entry = .related p.number use ∧ p.level.Selects use := by
  refine QueryNode.induction ?_ ?_ ?_ ?_
  · intro name aliasName args entry number q hq
    rw [places] at hq
    exact absurd hq List.not_mem_nil
  · intro name aliasName typeName fields more args ih entry number q hq
    rw [places] at hq ⊢
    cases hentity : schema.entity? typeName with
    | none =>
        simp only [hentity] at hq
        exact absurd hq List.not_mem_nil
    | some entity =>
        simp only [hentity] at hq
        simp only [List.mem_cons] at hq ⊢
        rcases hq with rfl | hbelow
        · exact Or.inl rfl
        · refine Or.inr ?_
          rcases ih entity number (number + 1) q hbelow with
            ⟨use, hentry, howner, hname⟩ | ⟨p, hp, use, hentry, hselects⟩
          · exact ⟨_, Or.inl rfl, use, hentry, howner, hname⟩
          · exact ⟨p, Or.inr hp, use, hentry, hselects⟩
  · intro entity own number q hq
    rw [placesBelow] at hq
    exact absurd hq List.not_mem_nil
  · intro key node rest ihnode ihrest entity own number q hq
    -- What holds of the other fields holds with one more in front of them.
    have hlater : ∀ number, q ∈ placesBelow schema entity own number rest →
        (∃ use : RelationUse, q.entry = .related own use ∧ use.owner = entity ∧
          ∃ name ∈ ((key, node) :: rest).map fun field => field.2.name,
            entity.field? name = some ⟨use.nativeColumnName, some use.use⟩) ∨
        ∃ p ∈ placesBelow schema entity own number rest, ∃ use,
          q.entry = .related p.number use ∧ p.level.Selects use := by
      intro number hq
      refine (ihrest entity own number q hq).imp_left ?_
      rintro ⟨use, hentry, howner, name, hname, hfield⟩
      exact ⟨use, hentry, howner, name, List.mem_cons_of_mem _ hname, hfield⟩
    rw [placesBelow] at hq ⊢
    cases hfield : entity.field? node.name with
    | none =>
        simp only [hfield] at hq ⊢
        exact hlater number hq
    | some field =>
        rcases field with ⟨column, relation⟩
        cases relation with
        | none =>
            simp only [hfield] at hq ⊢
            exact hlater number hq
        | some use =>
            simp only [hfield] at hq ⊢
            rcases List.mem_append.mp hq with hnode | hrest
            · rcases ihnode _ number q hnode with hentry | ⟨p, hp, use', hentry, hselects⟩
              · exact Or.inl ⟨_, hentry, rfl, node.name, List.mem_cons_self, hfield⟩
              · exact Or.inr ⟨p, List.mem_append_left _ hp, use', hentry, hselects⟩
            · refine (hlater _ hrest).imp_right ?_
              rintro ⟨p, hp, use', hentry, hselects⟩
              exact ⟨p, List.mem_append_right _ hp, use', hentry, hselects⟩

end QueryNode

/-! ### What the rows of a place refer to -/

/-- The condition by which the rows of a level are chosen. -/
def Entry.LinkedBy (schema : Schema) (entry : Entry) (entity : Entity) (aliasName : String)
    (link : Predicate) : Prop :=
  match entry with
  | .all => link = .always
  | .anchored child =>
      ∃ v, link = .equal (.physical aliasName (child.nameIn entity)) (literal v)
  | .related enclosing use => ∃ sides, use.sides? schema = some sides ∧
      use.link? sides entity (localAlias (2 * enclosing + 1)) aliasName = some link

namespace RelationUse

/-- The column in which the owner of a relation stores its link: a key, or an array
    of keys. -/
def OwnKey (u : RelationUse) (sides : Endpoints) (name : String) : Prop :=
  (sides.own.cardinality = .one ∨ sides.foreign.cardinality = .many) ∧
    (sides.own.columnName <|> u.nativeColumnName) = some name

/-- The column in which the rows that a relation leads to store the key of their
    owner. -/
def ForeignKey (sides : Endpoints) (name : String) : Prop :=
  sides.own.cardinality = .many ∧ sides.foreign.cardinality = .one ∧
    sides.foreign.columnName = some name

/-- A link refers to one column on each side, and one of the two is an identifier.
    The other is a column of the relation, which rows that are linked by it have. -/
theorem link?_references (u : RelationUse) (sides : Endpoints) (target : Entity)
    (outer inner : String) (link : Predicate) (h : u.link? sides target outer inner = some link) :
    link.columns.flatMap Column.rowAliases = [] ∧ ∃ innerName outerName,
      link.references.Perm [(inner, innerName), (outer, outerName)] ∧
      (innerName = target.idColumnName ∧ u.OwnKey sides outerName ∨
        ForeignKey sides innerName ∧ hasColumn target innerName = true ∧
          outerName = u.owner.idColumnName) := by
  unfold link? at h
  split at h
  -- A row of the owner stores one key.
  · rename_i hown
    rcases Option.map_eq_some_iff.mp h with ⟨key, hkey, rfl⟩
    exact ⟨rfl, _, _, List.Perm.refl _, Or.inl ⟨rfl, Or.inl hown, hkey⟩⟩
  -- It stores an array of keys, and the array comes first in the condition.
  · rename_i hown hforeign
    rcases Option.map_eq_some_iff.mp h with ⟨array, harray, rfl⟩
    exact ⟨rfl, _, _, List.Perm.swap _ _ _, Or.inl ⟨rfl, Or.inr hforeign, harray⟩⟩
  -- It stores nothing, and the rows that belong to it store its key.
  · rename_i hown hforeign
    rcases Option.bind_eq_some_iff.mp h with ⟨key, hkey, hlink⟩
    split at hlink
    · rename_i hcolumn
      obtain rfl := Option.some.inj hlink
      exact ⟨rfl, _, _, List.Perm.refl _, Or.inr ⟨⟨hown, hforeign, hkey⟩, hcolumn, rfl⟩⟩
    · exact absurd hlink (Option.some_ne_none _).symm

end RelationUse

namespace Schema.Entity

/-- A column that shows one of the named fields. -/
def Shows (entity : Entity) (names : List String) (columnName : String) : Prop :=
  ∃ name ∈ names, ∃ field, entity.field? name = some field ∧ field.relation = none ∧
    columnName = field.columnName name

/-- A column that refers to nothing but columns of the named fields. -/
def Reads (entity : Entity) (names : List String) (aliasName : String) (column : Column) : Prop :=
  column.rowAliases = [] ∧
    ∀ r ∈ column.references, r.1 = aliasName ∧ entity.Shows names r.2

theorem Reads.mono {entity : Entity} {names names' : List String} {aliasName : String}
    {column : Column} (h : entity.Reads names aliasName column) (hnames : names ⊆ names') :
    entity.Reads names' aliasName column := by
  refine ⟨h.1, fun r hr => ?_⟩
  rcases h.2 r hr with ⟨halias, name, hname, hfield⟩
  exact ⟨halias, name, hnames hname, hfield⟩

theorem reads_physical (entity : Entity) (names : List String) (aliasName columnName : String)
    (h : entity.Shows names columnName) :
    entity.Reads names aliasName (.physical aliasName columnName) := by
  refine ⟨rfl, fun r hr => ?_⟩
  rw [List.mem_singleton.mp hr]
  exact ⟨rfl, h⟩

end Schema.Entity

/-- A filter of the rows of a place: the one that the arguments of its level ask
    for. -/
def Place.FilteredBy (p : Place) (filter : Predicate) : Prop :=
  ∃ level : Level, level.entity = p.level.entity ∧ level.aliasName = p.rowsAlias ∧
    level.FilteredBy p.level.args filter

/-- A select of the rows of a place: from the view that the level has to read,
    and besides the condition by which the rows are chosen it refers to the
    fields of the level only. -/
structure Place.FilledBy (schema : Schema) (p : Place) (s : Select) : Prop where
  source : s.source = some (.view (p.level.view schema) p.rowsAlias)
  columns : ∀ item ∈ s.columns,
    p.level.entity.Reads p.level.usedFields p.rowsAlias item.column
  predicate : ∃ link filter, s.predicate = link.conj filter ∧
    s.predicate.columns = link.columns ++ filter.columns ∧
    p.entry.LinkedBy schema p.level.entity p.rowsAlias link ∧ p.FilteredBy filter ∧
    ∀ c ∈ filter.columns, p.level.entity.Reads p.level.usedFields p.rowsAlias c
  orderBy : ∀ term ∈ s.orderBy.getD [],
    p.level.entity.Reads p.level.usedFields p.rowsAlias term.column

/-- The value that is given for an argument is one of the arguments, if there is
    one. -/
theorem given_cases (args : List (String × Value)) (name : String) :
    given args name = .null ∨ (name, given args name) ∈ args := by
  suffices hfold : ∀ start, args.foldl (fun v arg => if arg.1 = name then arg.2 else v) start =
      start ∨ (name, args.foldl (fun v arg => if arg.1 = name then arg.2 else v) start) ∈ args from
    hfold .null
  induction args with
  | nil => exact fun start => Or.inl rfl
  | cons arg rest ih =>
      intro start
      rw [List.foldl_cons]
      by_cases hname : arg.1 = name
      · rw [if_pos hname]
        rcases ih arg.2 with hlast | hlater
        · rw [hlast, ← hname]
          exact Or.inr List.mem_cons_self
        · exact Or.inr (List.mem_cons_of_mem arg hlater)
      · rw [if_neg hname]
        exact (ih start).imp_right (List.mem_cons_of_mem arg)

/-- The filter and the sort of a level refer to fields that its arguments name. -/
theorem mem_argumentFields (args : List (String × Value)) (name : String)
    (h : name ∈ filterFields (given args "where") ∨
      name ∈ (orderings (given args "orderBy")).map Prod.fst) :
    name ∈ args.flatMap argumentFields := by
  rcases h with hfilter | hsort
  · rcases given_cases args "where" with hnull | hmem
    · rw [hnull] at hfilter
      exact absurd hfilter List.not_mem_nil
    · exact List.mem_flatMap.mpr ⟨_, hmem, hfilter⟩
  · rcases given_cases args "orderBy" with hnull | hmem
    · rw [hnull] at hsort
      exact absurd hsort List.not_mem_nil
    · exact List.mem_flatMap.mpr ⟨_, hmem, hsort⟩

/-- A column that a level gives out for a field shows that field. -/
theorem Level.column_reads (level : Level) (name : String) (g : Guarded Column)
    (names : List String) (h : level.column name = .ok g) (hname : name ∈ names) :
    level.entity.Reads names level.aliasName g.value := by
  rcases (level.column_eq_ok_iff name g).mp h with
    ⟨field, columnName, hfield, hrelation, hnative, hvalue⟩
  rw [hvalue]
  refine level.entity.reads_physical names _ columnName ⟨name, hname, field, ?_, hrelation, ?_⟩
  · exact ((level.field_eq_ok_iff name _).mp hfield).1
  · rw [Field.columnName, hnative, Option.getD_some]

/-- A level that is put together from its parts fills its place. -/
theorem assembleLevel_filled (schema : Schema) (fetch : Fetch) (level : Level) (next number : Nat)
    (entry : Entry) (fields : List (String × QueryNode)) (args : List (String × Value))
    (selected : ResolvedFields) (clauses : Guarded Clauses) (matching : Predicate)
    (halias : level.aliasName = localAlias (2 * number + 1))
    (hselected : resolveFields schema level next fields = .ok selected)
    (hcolumns : ∀ item ∈ selected.columns, level.entity.Reads
      (fields.map fun field => field.2.name) level.aliasName item.column)
    (hclauses : level.clauses args = .ok clauses) (hlive : matching ≠ .never)
    (hlink : entry.LinkedBy schema level.entity level.aliasName matching) :
    Place.FilledBy schema ⟨number, entry, RequestLevel.selecting level.entity fields args⟩
      (assembleLevel schema fetch level selected clauses matching).select := by
  rcases level.clauses_asked args clauses hclauses with
    ⟨⟨filter, hfilter, hpredicate⟩, ⟨sort, hsort, horderBy⟩, _, _⟩
  have hselectedNames : (fields.map fun field => field.2.name) ⊆
      (RequestLevel.selecting level.entity fields args).usedFields :=
    fun name hname => List.mem_append_left _ hname
  have hargument : ∀ name, name ∈ args.flatMap argumentFields →
      name ∈ (RequestLevel.selecting level.entity fields args).usedFields :=
    fun name hname => List.mem_append_right _ hname
  rw [halias] at hcolumns hlink
  -- The fields of the columns are selected, those of the clauses are in arguments,
  -- and the level uses both.
  refine ⟨?_, fun item hitem => (hcolumns item hitem).mono hselectedNames, ?_, ?_⟩
  · rw [(assembleLevel_view schema fetch level next fields args selected clauses matching
      hselected hclauses).1, halias]
    rfl
  · have hfiltered := level.clauses_filteredBy args clauses hclauses
    refine ⟨matching, clauses.value.predicate, rfl,
      Predicate.columns_conj _ _ hlive hfiltered.live, hlink, ⟨level, rfl, halias, hfiltered⟩,
      fun c hc => ?_⟩
    rw [hpredicate] at hc
    rcases level.filter_columns _ filter hfilter c hc with ⟨name, hname, g, hg, rfl⟩ | ⟨text, rfl⟩
    · have hreads := level.column_reads name g _ hg
        (hargument name (mem_argumentFields args name (Or.inl hname)))
      rw [halias] at hreads
      exact hreads
    · exact ⟨rfl, fun r hr => absurd hr List.not_mem_nil⟩
  · intro term hterm
    simp only [assembleLevel, horderBy] at hterm
    cases hterms : sort.value with
    | none =>
        rw [hterms] at hterm
        exact absurd hterm List.not_mem_nil
    | some terms =>
        rw [hterms, Option.getD_some] at hterm
        rcases level.sort_columns _ sort hsort terms hterms term hterm with ⟨name, hname, g, hg, hc⟩
        have hreads := level.column_reads name g _ hg
          (hargument name (mem_argumentFields args name (Or.inr hname)))
        rw [halias] at hreads
        rw [hc]
        exact hreads

/-! ### Levels in their places -/

/-- An entry fits a constraint if the predicate of the constraint chooses rows as
    the entry says. -/
def Entry.Fits (schema : Schema) (entry : Entry) (constraint : Option Constraint) : Prop :=
  ∀ typeName entity aliasName matching,
    matchPredicate constraint typeName entity aliasName = .ok matching →
      entry.LinkedBy schema entity aliasName matching

/-- The entry of the outermost level. -/
def Entry.outermost (anchor : Option (ChildColumn × Value)) : Entry :=
  match anchor with
  | none => .all
  | some (child, _) => .anchored child

theorem Entry.outermost_fits (schema : Schema) (anchor : Option (ChildColumn × Value)) :
    (Entry.outermost anchor).Fits schema (anchor.map fun a => .equals a.1 (.value a.2)) := by
  intro typeName entity aliasName matching h
  cases anchor with
  | none =>
      simp only [Option.map_none, matchPredicate, Except.ok.injEq] at h
      exact h.symm
  | some a =>
      simp only [Option.map_some, matchPredicate, Constraint.predicate, bind_eq_ok_iff, pure,
        Except.pure, Except.ok.injEq] at h
      rcases h with ⟨column, hcolumn, rfl⟩
      rw [a.1.toColumn_eq_ok typeName entity aliasName column hcolumn]
      exact ⟨a.2, rfl⟩

theorem Entry.related_fits (schema : Schema) (level : Level) (own : Nat) (node : QueryNode)
    (column : Option String) (use : FieldLink) (fetch : Fetch) (constraint : Constraint)
    (halias : level.aliasName = localAlias (2 * own + 1))
    (hlink : schema.link level node.name ⟨column, some use⟩ use = .ok (fetch, constraint)) :
    (Entry.related own ⟨level.entity, column, use, node⟩).Fits schema (some constraint) := by
  intro typeName entity aliasName matching h
  rcases link?_of_link schema level node ⟨column, some use⟩ use fetch constraint typeName entity
    aliasName matching hlink h with ⟨sides, hsides, hlinked⟩
  rw [halias] at hlinked
  exact ⟨sides, hsides, hlinked⟩

/-- The selects of a level are laid out in the order of its places, and each fills
    its own. By induction over the request; a level whose number is `number` takes
    the aliases `2 * number` and `2 * number + 1`, so the counter of aliases is
    always twice the number of the next level. -/
theorem resolve_places (schema : Schema) :
    (∀ (node : QueryNode) (authenticated : Bool) (fetch : Fetch) (position : Position)
      (constraint : Option Constraint) (entry : Entry) (number : Nat) (r : Resolved),
      resolveLevel schema authenticated fetch position constraint (2 * number) node = .ok r →
      entry.Fits schema constraint →
        ∃ below, (asJson fetch (localAlias (2 * number)) r.select).selects =
            laidOut number ((fetch, r.select) :: below) ∧
          r.next = 2 * (number + 1 + below.length) ∧
          List.Forall₂ (fun p w => p.FilledBy schema w.2) (node.places schema entry number)
            ((fetch, r.select) :: below)) ∧
    ∀ (fields : List (String × QueryNode)) (level : Level) (own number : Nat) (r : ResolvedFields),
      resolveFields schema level (2 * number) fields = .ok r →
      level.aliasName = localAlias (2 * own + 1) →
        ∃ below, SelectItem.selectsOfList r.columns = laidOut number below ∧
          r.next = 2 * (number + below.length) ∧
          List.Forall₂ (fun p w => p.FilledBy schema w.2)
            (QueryNode.placesBelow schema level.entity own number fields) below ∧
          ∀ item ∈ r.columns, level.entity.Reads (fields.map fun field => field.2.name)
            level.aliasName item.column := by
  refine QueryNode.induction ?_ ?_ ?_ ?_
  · intro name aliasName args authenticated fetch position constraint entry number r h
    simp only [resolveLevel, reduceCtorEq] at h
  · intro name aliasName typeName fields more args ih authenticated fetch position constraint entry
      number r h hfits
    rcases resolveLevel_eq_ok schema authenticated fetch position constraint _ name aliasName
      typeName fields more args r h with
      ⟨entity, selected, clauses, matching, hentity, hselected, hclauses, hmatching, rfl⟩
    have hnext : 2 * number + 2 = 2 * (number + 1) := by omega
    rw [hnext] at hselected
    rcases ih _ number (number + 1) selected hselected rfl with
      ⟨below, hselects, hcounter, hfilled, hcolumns⟩
    refine ⟨below, ?_, hcounter, ?_⟩
    · rw [asJson_selects, assembleLevel_selects schema fetch _ args constraint selected clauses
        matching hclauses hmatching, hselects, laidOut]
    · rw [QueryNode.places, hentity]
      refine List.Forall₂.cons ?_ hfilled
      exact assembleLevel_filled schema fetch _ _ number entry fields args selected clauses matching
        rfl hselected hcolumns hclauses
        (matchPredicate_binds constraint typeName entity _ matching hmatching).live
        (hfits typeName entity _ matching hmatching)
  · intro level own number r h _
    simp only [resolveFields, Except.ok.injEq] at h
    rw [← h, QueryNode.placesBelow]
    exact ⟨[], rfl, rfl, List.Forall₂.nil, fun item hitem => absurd hitem List.not_mem_nil⟩
  · intro key node rest ihnode ihrest level own number r h halias
    have hrest : (rest.map fun field => field.2.name) ⊆
        ((key, node) :: rest).map fun field => field.2.name :=
      fun name hname => List.mem_cons_of_mem _ hname
    rcases resolveFields_cons_eq_ok schema level (2 * number) key node rest r h with
      ⟨field, hfield, ⟨hrelation, others, hothers, rfl⟩ |
        ⟨use, fetch, constraint, below, others, hrelation, hlink, hbelow, hothers, rfl⟩⟩
    -- A plain field is a column of the level, and adds no place.
    · have hentity := ((level.field_eq_ok_iff node.name field).mp hfield).1
      rcases ihrest level own number others hothers halias with
        ⟨below, hselects, hcounter, hfilled, hcolumns⟩
      refine ⟨below, hselects, hcounter, ?_, List.forall_mem_cons.mpr ⟨?_, fun item hitem =>
        (hcolumns item hitem).mono hrest⟩⟩
      · rcases hvalue : field.value with ⟨column, relation⟩
        rw [hvalue] at hrelation hentity
        simp only at hrelation
        rw [QueryNode.placesBelow, hentity, hrelation]
        exact hfilled
      · exact level.entity.reads_physical _ _ _
          ⟨node.name, List.mem_cons_self, field.value, hentity, hrelation, rfl⟩
    -- A relation adds the places of its node in front of those of other fields.
    · have hentity := ((level.field_eq_ok_iff node.name field).mp hfield).1
      rcases hvalue : field.value with ⟨column, relation⟩
      rw [hvalue] at hrelation hentity hlink
      simp only at hrelation
      subst hrelation
      rcases ihnode _ fetch _ _ _ number below hbelow (Entry.related_fits schema level own node
        column use fetch constraint halias hlink) with ⟨inner, hinner, hnext, hnode⟩
      have hnumber : number + 1 + inner.length =
          number + ((fetch, below.select) :: inner).length := by
        rw [List.length_cons]
        omega
      rw [hnext, hnumber] at hothers
      rcases ihrest level own _ others hothers halias with
        ⟨after, hselects, hcounter, hfilled, hcolumns⟩
      refine ⟨((fetch, below.select) :: inner) ++ after, ?_, ?_, ?_, List.forall_mem_cons.mpr
        ⟨⟨rfl, fun r hr => absurd hr List.not_mem_nil⟩, fun item hitem =>
          (hcolumns item hitem).mono hrest⟩⟩
      · rw [laidOut_append, ← hinner, ← hselects]
        rfl
      · change others.next = _
        rw [hcounter, List.length_append]
        omega
      · rw [QueryNode.placesBelow, hentity]
        simp only [hnode.length_eq]
        exact List.rel_append hnode hfilled

/-- The statement of a query refers to nothing itself. -/
theorem compileQuery_statement (schema : Schema) (minDepth : Nat) (authenticated : Bool)
    (constraint : Option Constraint) (node : QueryNode) (c : CompiledQuery)
    (h : schema.compileQuery minDepth authenticated constraint node = .ok c) :
    c.statement.fromAlias? = none ∧ c.statement.references = [] ∧ c.statement.rowAliases = [] := by
  simp only [Schema.compileQuery, bind_eq_ok_iff, pure, Except.pure, Except.ok.injEq] at h
  rcases h with ⟨r, _, rfl⟩
  exact ⟨rfl, rfl, rfl⟩

/-- The selects of a compiled query are the statement itself and those of its
    places. -/
theorem compileQuery_places (schema : Schema) (minDepth : Nat) (authenticated : Bool)
    (anchor : Option (ChildColumn × Value)) (node : QueryNode) (c : CompiledQuery)
    (h : schema.compileQuery minDepth authenticated
      (anchor.map fun a => .equals a.1 (.value a.2)) node = .ok c) :
    ∃ wrapped, c.statement.selects = c.statement :: laidOut 0 wrapped ∧
      List.Forall₂ (fun p w => p.FilledBy schema w.2)
        (node.places schema (.outermost anchor) 0) wrapped := by
  simp only [Schema.compileQuery, bind_eq_ok_iff, pure, Except.pure, Except.ok.injEq] at h
  rcases h with ⟨r, hr, rfl⟩
  rcases (resolve_places schema).1 node _ _ _ _ (.outermost anchor) 0 r hr
    (Entry.outermost_fits schema anchor) with ⟨below, hselects, _, hfilled⟩
  refine ⟨_, ?_, hfilled⟩
  simp only [Select.expression, levelColumn, Select.selects, SelectItem.selectsOfList,
    SelectItem.selects, Column.selects, Source.selectsOfOption, Predicate.selects,
    OrderTerm.selectsOfOption, List.append_nil]
  exact congrArg _ hselects

/-- Only the rows of a level refer to columns. -/
theorem eq_rows_of_references (statement : Select) (wrapped : List (Fetch × Select))
    (hstatement : statement.references = [])
    (hselects : statement.selects = statement :: laidOut 0 wrapped) :
    ∀ s ∈ statement.selects, s.references ≠ [] → ∃ w ∈ wrapped, s = w.2 := by
  intro s hs hreferences
  rw [hselects, List.mem_cons] at hs
  rcases hs with rfl | hs
  · exact absurd hstatement hreferences
  · rcases mem_laidOut 0 wrapped s hs with ⟨w, hw, rfl | ⟨aliasName, rfl⟩⟩
    · exact ⟨w, hw, rfl⟩
    · exact absurd (asJson_references w.1 aliasName w.2).1 hreferences

end ViewCompiler
