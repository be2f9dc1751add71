import ViewCompiler.Proofs.Evaluation
import ViewCompiler.Proofs.Levels

/-!
# The Meaning of a Request

What a request asks for, said without SQL.

A level takes the rows of its view and keeps those that belong to where the
level was reached from and that satisfy its filter. It makes a result of every
row, arranges the results by its sort and cuts out its page. The result of a
row has one value for every selected field: what the row has in the column of
the field, or the rows of the nested level that the field leads to, presented
as one object or as a list.

There are no aliases here. Where a nested level looks at the row it belongs
to, it is given that row. Nor is anything here taken from the way in which
requests are compiled: as which text a value is compared, what the operators
are called, how a sort text is read and under which name a result appears is
said anew, and so is which side of a relation a field stands on.

## Main definitions

* `Engine.bound`: What the database gets for a value of a request.
* `Engine.holds`, `Entity.satisfies`: Conditions on a row.
* `Entity.columnOf`: The column of a field.
* `Entity.arrange`: The sort of a level.
* `Relation.seenFrom`, `Schema.related`: The rows that a relation field leads
  to.
* `QueryNode.rows`, `QueryNode.row`: The rows of a level and the result of one
  row.
* `QueryNode.answer`: The answer to a request.
* `Blog.engine`, `Blog.database`: An engine and some rows to try things on.
-/

namespace ViewCompiler

open Json Sql Schema

section Meaning

variable {V : Type} (engine : Engine V)

namespace Sql.Engine

/-- A value of a request, as the database gets it: `null` without a text, a
    text as it is, and anything else as its JSON text. -/
def bound : Value → V
  | .null => engine.param (.text none)
  | .string s => engine.param (.text (some s))
  | v => engine.param (.text (some v.compact))

/-- Whether a value is equal to one of a request. To be equal to `null` is to
    be absent. -/
def equals (x : V) (v : Value) : Truth :=
  if v.isNull then .ofBool (engine.isNull x) else engine.compare .eq x (engine.bound v)

/-- Whether a value differs from one of a request. -/
def differs (x : V) (v : Value) : Truth :=
  if v.isNull then .ofBool (!engine.isNull x) else engine.compare .neq x (engine.bound v)

/-- Whether an operator of a request holds between a value and its operand.
    Where there is no such operator, or the operand has the wrong form, nothing
    is known. -/
def holds (operator : String) (operand : Value) (x : V) : Truth :=
  match operator, operand with
  | "eq", v => engine.equals x v
  | "neq", v => engine.differs x v
  | "gt", v => engine.compare .gt x (engine.bound v)
  | "gte", v => engine.compare .gte x (engine.bound v)
  | "lt", v => engine.compare .lt x (engine.bound v)
  | "lte", v => engine.compare .lte x (engine.bound v)
  | "in", .array items => engine.isIn x (items.map engine.bound)
  | "isNull", .bool b => .ofBool (engine.isNull x == b)
  | _, _ => .unknown

end Sql.Engine

namespace Schema.Entity

/-- The column under which the views of an entity show a field. -/
def columnOf (entity : Entity) (fieldName : String) : String :=
  ((entity.field? fieldName).bind Field.nativeColumnName).getD fieldName

/-- Whether a row satisfies the condition on one field: all its operators, or
    the value to be equal to. -/
def satisfiesCondition (entity : Entity) (row : Row V) (entry : String × Value) : Bool :=
  let x := engine.read row (entity.columnOf entry.1)
  match entry.2 with
  | .object operations =>
      operations.all fun operation => engine.holds operation.1 operation.2 x = .yes
  | v => engine.equals x v = .yes

/-- Whether a row satisfies a filter, which is to say all its conditions. -/
def satisfies (entity : Entity) (filter : Value) (row : Row V) : Bool :=
  match filter with
  | .object conditions => conditions.all (entity.satisfiesCondition engine row)
  | _ => true

/-- Results in the order that a sort asks for, given with the rows they were
    made of. -/
def arrange (entity : Entity) (sort : Value) (results : List (Row V × Row V)) : List (Row V) :=
  if (orderings sort).isEmpty then results.map Prod.snd
  else engine.sort (results.map fun (row, result) =>
    ((orderings sort).map fun (fieldName, direction) =>
      (engine.read row (entity.columnOf fieldName), direction), result))

end Schema.Entity

/-! ### Links -/

/-- Whether a row of an entity belongs to a value that the caller gives; all
    do if there is none. -/
def belongsTo (anchor : Option (ChildColumn × Value)) (entity : Entity) (row : Row V) : Truth :=
  match anchor with
  | none => .yes
  | some (child, v) => engine.equals (engine.read row (child.nameIn entity)) v

/-- The own and the foreign side of a relation, seen from a field that uses it.
    The own side is on the table of the field. If both are, it is the one of the
    field's multiplicity; and between sides of the same kind the one that stores
    its link in the column of the field, or else the first. -/
def Schema.Relation.seenFrom (relation : Relation) (use : FieldLink) (column : Option String) :
    Option (Side × Side) :=
  let onTable := [(relation.first, relation.second), (relation.second, relation.first)].filter
    fun sides => use.ownerTable = ⟨sides.1.schemaName, sides.1.tableName⟩
  if onTable.length ≤ 1 then onTable.head?
  else if relation.first.cardinality = relation.second.cardinality then
    (onTable.find? fun sides => column.isSome && sides.1.columnName == column) <|> onTable.head?
  else onTable.find? fun sides => sides.1.cardinality = if use.isListType then .many else .one

/-- How many rows a relation field leads to, and which ones: whether a row of
    the related entity belongs to a row of the own one. -/
def Schema.related (schema : Schema) (own : Entity) (field : Field) (use : FieldLink) :
    Option (Fetch × (Row V → Entity → Row V → Truth)) := do
  let relation ← schema.relation? use.relationName
  let (ownSide, foreignSide) ← relation.seenFrom use field.nativeColumnName
  match ownSide.cardinality, foreignSide.cardinality with
  | .one, _ =>
      -- The own row names the related one.
      let key ← ownSide.columnName <|> field.nativeColumnName
      return (.row, fun ownRow entity row =>
        engine.compare .eq (engine.read row entity.idColumnName) (engine.read ownRow key))
  | .many, .many =>
      -- The own row lists the related ones.
      let array ← ownSide.columnName <|> field.nativeColumnName
      return (.aggregation, fun ownRow entity row =>
        engine.compare .contains (engine.read ownRow array)
          (engine.array (engine.read row entity.idColumnName) ownSide.arrayElementType))
  | .many, .one =>
      -- The related rows name the own one.
      let key ← foreignSide.columnName
      return (.aggregation, fun ownRow _ row =>
        engine.compare .eq (engine.read row key) (engine.read ownRow own.idColumnName))

/-! ### Requests -/

/-- The number of rows that an argument gives, if it does. -/
def rowCount : Value → Option Int
  | .number (.int n) => some n
  | _ => none

variable (db : Database V)

mutual
/-- The rows of a level, of which `belongs` says which ones are meant. -/
def QueryNode.rows (schema : Schema) (belongs : Entity → Row V → Truth) :
    QueryNode → List (Row V)
  | .mk _ _ [] _ => []
  | .mk _ _ ((typeName, fields) :: _) args =>
      match schema.entity? typeName with
      | none => []
      | some entity =>
          let kept := (db ((RequestLevel.selecting entity fields args).view schema)).filter
            fun row => belongs entity row = .yes && entity.satisfies engine (given args "where") row
          let results := kept.map fun row => (row, QueryNode.row schema entity row fields)
          engine.page (rowCount (given args "limit")) (rowCount (given args "offset"))
            (entity.arrange engine (given args "orderBy") results)
/-- The result of one row: a value for every selected field, under the name that
    its node gives to it, or else under that of the field. -/
def QueryNode.row (schema : Schema) (entity : Entity) (row : Row V) :
    List (String × QueryNode) → Row V
  | [] => []
  | (_, node) :: rest =>
      let others := QueryNode.row schema entity row rest
      match entity.field? node.name with
      | none => others
      | some field =>
          match field.relation with
          | none =>
              (node.aliasName.getD node.name, engine.read row (entity.columnOf node.name)) ::
                others
          | some use =>
              match schema.related engine entity field use with
              | none => others
              | some (fetch, belongs) =>
                  (node.aliasName.getD node.name,
                    engine.present fetch (node.rows schema (belongs row))) :: others
end

/-- The answer to a request: one value, which stands for the rows of the
    outermost level. -/
def QueryNode.answer (schema : Schema) (anchor : Option (ChildColumn × Value))
    (node : QueryNode) : List (Row V) :=
  [[(node.aliasName.getD node.name,
    engine.present .aggregation (node.rows engine db schema (belongsTo engine anchor)))]]

end Meaning

/-! ### Rows of the blog -/

namespace Blog

/-- A comparison of JSON values, which knows texts and arrays of them. -/
def compare (op : Comparison) (l r : Value) : Truth :=
  match op, l, r with
  | .eq, .string a, .string b => .ofBool (a = b)
  | .neq, .string a, .string b => .ofBool (a ≠ b)
  | .lt, .string a, .string b => .ofBool (a < b)
  | .lte, .string a, .string b => .ofBool (¬ b < a)
  | .gt, .string a, .string b => .ofBool (b < a)
  | .gte, .string a, .string b => .ofBool (¬ a < b)
  | .contains, .array items, .array elements =>
      .ofBool (elements.all fun e => items.any fun item => item.same e)
  | _, _, _ => .unknown

/-- Whether the keys of one row come before those of another. -/
def before : List (Value × Direction) → List (Value × Direction) → Bool
  | (k, .asc) :: ks, (l, .asc) :: ls => compare .lt k l = .yes || (k.same l && before ks ls)
  | (k, .desc) :: ks, (l, .desc) :: ls => compare .gt k l = .yes || (k.same l && before ks ls)
  | _, _ => false

/-- A row put into its place among sorted ones, behind those of equal keys. -/
def place (keyed : List (Value × Direction) × Row Value) :
    List (List (Value × Direction) × Row Value) → List (List (Value × Direction) × Row Value)
  | [] => [keyed]
  | other :: rest =>
      if before keyed.1 other.1 then keyed :: other :: rest else other :: place keyed rest

/-- An engine whose values are JSON values. -/
def engine : Engine Value where
  missing := .null
  dangling := .null
  null := .null
  param
    | .text text => .optionalString text
    | .int8 n => .int n
  array v _ := .array [v]
  isNull := Value.isNull
  compare := compare
  isIn v vs := if v.isNull then .unknown else .ofBool (vs.any v.same)
  rowToJson row := .object row
  jsonAgg vs := if vs.isEmpty then .null else .array vs
  scalar rows := (rows.head?.bind List.head?).getD .null
  sort keyed := (keyed.foldl (fun sorted k => place k sorted) []).map Prod.snd
  limit n rows := rows.take n.toNat
  offset n rows := rows.drop n.toNat

/-- Two users, of whom one has an address, and their posts. -/
def database : Database Value := fun view =>
  if view = ⟨"views", "user_auth"⟩ then
    [[("id", .string "1"), ("name", .string "Ada"), ("email", .string "ada@example.org")],
      [("id", .string "2"), ("name", .string "Bob"), ("email", .null)]]
  else if view = ⟨"views", "user_public"⟩ then
    [[("id", .string "1"), ("name", .string "Ada")], [("id", .string "2"), ("name", .string "Bob")]]
  else if view = ⟨"archive", "post_public"⟩ then
    [("5", "Analysis", "1"), ("6", "Coils", "1"), ("7", "Engines", "1"), ("8", "Frames", "1"),
        ("9", "Bolts", "2"), ("10", "Numbers", "1")].map fun (id, title, author) =>
      [("id", .string id), ("title", .string title), ("author_id", .string author)]
  else []

/-- The works of somebody with an address: the last two titles behind the first
    letter, except for the post with the identifier 8, and who wrote them. -/
def works : QueryNode where
  name := "users"
  aliasName := some "people"
  fieldsByTypeName := [("User", [leaf "name",
    ("works", ⟨"posts", some "works", [("Post", [leaf "title",
      ("author", ⟨"author", none, [("User", [leaf "name"])], []⟩)])],
      [("where", .object [("title", .object [("gt", .string "B")]),
          ("id", .object [("neq", .int 8)])]),
        ("orderBy", .array [.string "title_DESC"]), ("limit", .int 2)]⟩)])]
  args := [("where", .object [("email", .object [("neq", .null)])])]

end Blog

end ViewCompiler
