import ViewCompiler.Query.Compile

/-!
# Evaluating SQL Trees

What a select returns.

The meaning of a select rests on a database, which holds rows under the names
of views, and on an engine, which compares values, sorts and cuts lists of
rows, and turns rows into JSON. Nothing is assumed of either: an engine is any
choice of functions, and a value is whatever these functions work on.

What is fixed is how names are found. Evaluating takes a scope, which says for
every alias which row it stands for. A select evaluates its source in the scope
it stands in, and everything else once for every row of the source, in the
scope with that row added in front. So a reference reaches the row of the
innermost enclosing source of its alias, and a select inside a column or a
source sees the rows around it, but not those of the source it is part of.

Conditions have three truth values. A row is kept if its condition is true,
which neither a false nor an unknown one is.

A select with an aggregate among its columns has one row, which is made of all
rows that were kept. An engine has a value for references that lead nowhere and
for aggregates outside of such a select, so that evaluating is total.

## Main definitions

* `Truth`: The three truth values.
* `Row`, `Database`, `Scope`: What is read, and under which aliases.
* `Engine`: The functions of a database engine.
* `Column.eval`, `Predicate.eval`, `Select.eval` and their companions: The
  value of a tree in a scope.
* `Engine.present`: The value that stands for the rows of a level.

## Theorems

* `Predicate.eval_conj`, `Predicate.eval_all_iff`: Conjunctions without
  constants mean what conjunctions mean.
* `Select.eval_of_rows`, `Select.eval_expression`: The rows of a select
  without aggregates.
* `levelColumn_eval`: The select around a level presents its rows.
-/

namespace ViewCompiler

namespace Sql

/-- The truth values of conditions. -/
inductive Truth where
  | yes
  | no
  | unknown
deriving DecidableEq

namespace Truth

/-- A truth value that is known. -/
def ofBool (b : Bool) : Truth := if b then .yes else .no

/-- Both of two conditions. -/
def and : Truth → Truth → Truth
  | .no, _ => .no
  | _, .no => .no
  | .yes, .yes => .yes
  | _, _ => .unknown

theorem and_yes (t : Truth) : t.and .yes = t := by cases t <;> rfl

theorem yes_and (t : Truth) : Truth.yes.and t = t := by cases t <;> rfl

theorem and_no (t : Truth) : t.and .no = .no := by cases t <;> rfl

theorem no_and (t : Truth) : Truth.no.and t = .no := by cases t <;> rfl

theorem and_eq_yes_iff (s t : Truth) : s.and t = .yes ↔ s = .yes ∧ t = .yes := by
  cases s <;> cases t <;> decide

end Truth

/-- A row: the values of its columns, by name. -/
abbrev Row (V : Type) := Entries V

/-- The rows of every view. -/
abbrev Database (V : Type) := ViewName → List (Row V)

/-- The rows that aliases stand for, the innermost first. -/
abbrev Scope (V : Type) := Entries (Row V)

/-- The functions of a database engine. -/
structure Engine (V : Type) where
  /-- What a column reads as that a row does not have. -/
  missing : V
  /-- What a reference reads as that leads nowhere. -/
  dangling : V
  null : V
  param : Param → V
  array : V → String → V
  isNull : V → Bool
  compare : Comparison → V → V → Truth
  isIn : V → List V → Truth
  rowToJson : Row V → V
  jsonAgg : List V → V
  /-- The value of a select in parentheses, from the values of its rows. -/
  scalar : List (List V) → V
  /-- Rows in the order of their keys. -/
  sort : List (List (V × Direction) × Row V) → List (Row V)
  limit : Int → List (Row V) → List (Row V)
  offset : Int → List (Row V) → List (Row V)

namespace Engine

variable {V : Type} (engine : Engine V)

/-- The value of a column of a row. -/
def read (row : Row V) (name : String) : V :=
  (row.get? name).getD engine.missing

/-- What is made of the row that an alias stands for. -/
def refer (scope : Scope V) (tableAlias : String) (use : Row V → V) : V :=
  match scope.get? tableAlias with
  | none => engine.dangling
  | some row => use row

/-- The rows of a page. -/
def page (limit offset : Option Int) (rows : List (Row V)) : List (Row V) :=
  let rest := match offset with
    | none => rows
    | some n => engine.offset n rows
  match limit with
  | none => rest
  | some n => engine.limit n rest

/-- The value that stands for the rows of a level: the JSON of one row, or of
    a list of them. -/
def present (fetch : Fetch) (rows : List (Row V)) : V :=
  match fetch with
  | .row => engine.scalar (rows.map fun row => [engine.rowToJson row])
  | .aggregation => engine.scalar [[engine.jsonAgg (rows.map engine.rowToJson)]]

end Engine

/-- The name of a column of a select in the rows that it returns. -/
def SelectItem.outputName : SelectItem → String
  | ⟨_, some name⟩ => name
  | ⟨.physical _ name, none⟩ => name
  | ⟨_, none⟩ => "?column?"

/-- Whether a column of a select is made of all rows at once. -/
def SelectItem.aggregates : SelectItem → Bool
  | ⟨.jsonAgg _, _⟩ => true
  | _ => false

section Eval

variable {V : Type} (engine : Engine V) (db : Database V)

mutual
/-- The value of a column. -/
def Column.eval : Column → Scope V → V
  | .physical tableAlias name, scope =>
      engine.refer scope tableAlias fun row => engine.read row name
  | .param p, _ => engine.param p
  | .rowToJson tableAlias, scope => engine.refer scope tableAlias engine.rowToJson
  | .jsonAgg _, _ => engine.dangling
  | .subSelect s, scope => engine.scalar ((s.eval scope).map fun row => row.map Prod.snd)
  | .array c elementType, scope => engine.array (c.eval scope) elementType
  | .null, _ => engine.null
/-- The values of the columns of a list. -/
def Column.evalList : List Column → Scope V → List V
  | [], _ => []
  | c :: cs, scope => c.eval scope :: Column.evalList cs scope
/-- The truth value of a predicate. -/
def Predicate.eval : Predicate → Scope V → Truth
  | .always, _ => .yes
  | .never, _ => .no
  | .compare op l r, scope => engine.compare op (l.eval scope) (r.eval scope)
  | .isIn c es, scope => engine.isIn (c.eval scope) (Column.evalList es scope)
  | .isNull c, scope => .ofBool (engine.isNull (c.eval scope))
  | .isNotNull c, scope => .ofBool (!engine.isNull (c.eval scope))
  | .and l r, scope => (l.eval scope).and (r.eval scope)
/-- The row of a select for one row of its source. -/
def SelectItem.evalList : List SelectItem → Scope V → Row V
  | [], _ => []
  | ⟨c, name⟩ :: is, scope =>
      (SelectItem.outputName ⟨c, name⟩, c.eval scope) :: SelectItem.evalList is scope
/-- The row of a select for all rows of its source. Only aggregates look at
    these; anything else can refer to the rows around the select alone. -/
def SelectItem.summarize : List SelectItem → List (Scope V) → Scope V → Row V
  | [], _, _ => []
  | ⟨.jsonAgg c, name⟩ :: is, kept, scope =>
      (SelectItem.outputName ⟨.jsonAgg c, name⟩,
          engine.jsonAgg (kept.map fun inner => c.eval inner))
        :: SelectItem.summarize is kept scope
  | ⟨c, name⟩ :: is, kept, scope =>
      (SelectItem.outputName ⟨c, name⟩, c.eval scope) :: SelectItem.summarize is kept scope
/-- The rows of a source. -/
def Source.eval : Source → Scope V → List (Row V)
  | .view v _, _ => db v
  | .subSelect s _, scope => s.eval scope
/-- The scopes for the rows of a source; without one there is just the scope
    around. -/
def Source.scopes : Option Source → Scope V → List (Scope V)
  | none, scope => [scope]
  | some source, scope => (source.eval scope).map fun row => (source.aliasName, row) :: scope
/-- The keys by which a row is sorted. -/
def OrderTerm.evalList : List OrderTerm → Scope V → List (V × Direction)
  | [], _ => []
  | ⟨c, direction⟩ :: ts, scope => (c.eval scope, direction) :: OrderTerm.evalList ts scope
/-- Rows in the order of a sort, if there is one. -/
def OrderTerm.arrange : Option (List OrderTerm) → List (Scope V × Row V) → List (Row V)
  | none, results => results.map Prod.snd
  | some ts, results =>
      engine.sort (results.map fun result => (OrderTerm.evalList ts result.1, result.2))
/-- The rows of a select. -/
def Select.eval : Select → Scope V → List (Row V)
  | ⟨columns, source, predicate, orderBy, limit, offset⟩, scope =>
      let kept := (Source.scopes source scope).filter fun inner => predicate.eval inner = .yes
      let results :=
        if columns.any SelectItem.aggregates then
          [(scope, SelectItem.summarize columns kept scope)]
        else kept.map fun inner => (inner, SelectItem.evalList columns inner)
      engine.page limit offset (OrderTerm.arrange orderBy results)
end

/-! ### Conditions -/

/-- Leaving constants out of a conjunction does not change its value. -/
theorem Predicate.eval_conj (p q : Predicate) (scope : Scope V) :
    (p.conj q).eval engine db scope = (p.eval engine db scope).and (q.eval engine db scope) := by
  unfold Predicate.conj
  split
  · rw [Predicate.eval, Truth.no_and]
  · rw [Predicate.eval, Truth.and_no]
  · rw [Predicate.eval, Truth.yes_and]
  · rw [Predicate.eval, Truth.and_yes]
  · rw [Predicate.eval]

theorem Predicate.eval_foldl_conj_iff (predicates : List Predicate) (start : Predicate)
    (scope : Scope V) :
    (predicates.foldl Predicate.conj start).eval engine db scope = .yes ↔
      start.eval engine db scope = .yes ∧
        ∀ p ∈ predicates, p.eval engine db scope = .yes := by
  -- The start takes in one predicate after the other.
  induction predicates generalizing start with
  | nil => simp only [List.foldl_nil, List.not_mem_nil, false_implies, implies_true, and_true]
  | cons p rest ih =>
      rw [List.foldl_cons, ih, Predicate.eval_conj, Truth.and_eq_yes_iff, and_assoc,
        List.forall_mem_cons]

theorem Predicate.eval_all_iff (predicates : List Predicate) (scope : Scope V) :
    (Predicate.all predicates).eval engine db scope = .yes ↔
      ∀ p ∈ predicates, p.eval engine db scope = .yes := by
  rw [Predicate.all, Predicate.eval_foldl_conj_iff, Predicate.eval]
  simp only [true_and]

/-! ### Selects -/

/-- The rows of a select over a view, if no column is an aggregate. -/
theorem Select.eval_of_rows (columns : List SelectItem) (view : ViewName) (aliasName : String)
    (predicate : Predicate) (orderBy : Option (List OrderTerm)) (limit offset : Option Int)
    (scope : Scope V) (h : columns.any SelectItem.aggregates = false) :
    Select.eval engine db ⟨columns, some (.view view aliasName), predicate, orderBy, limit, offset⟩
        scope =
      engine.page limit offset (OrderTerm.arrange engine db orderBy
        (((db view).filter fun row =>
            predicate.eval engine db ((aliasName, row) :: scope) = .yes).map fun row =>
          ((aliasName, row) :: scope,
            SelectItem.evalList engine db columns ((aliasName, row) :: scope)))) := by
  simp only [Select.eval, Source.scopes, Source.eval, Source.aliasName, h, Bool.false_eq_true,
    if_false, List.filter_map, List.map_map]
  rfl

/-- The select around the rows of a level presents them. The alias it gives
    them is bound innermost where it is used, so it cannot be mistaken for one
    of the scope. -/
theorem levelColumn_eval (fetch : Fetch) (aliasName : String) (rows : Select) (resultKey : String)
    (others : List SelectItem) (scope : Scope V) :
    SelectItem.evalList engine db (levelColumn fetch aliasName rows resultKey :: others) scope =
      (resultKey, engine.present fetch (rows.eval engine db scope)) ::
        SelectItem.evalList engine db others scope := by
  have hrefer : ∀ row : Row V,
      (Column.rowToJson aliasName).eval engine db ((aliasName, row) :: scope) =
        engine.rowToJson row := by
    intro row
    simp only [Column.eval, Engine.refer, Entries.get?, if_true]
  -- No condition restricts the select, so all rows take part.
  have hkept : (Source.scopes engine db (some (.subSelect rows aliasName)) scope).filter
      (fun inner => Predicate.always.eval engine db inner = .yes) =
        (rows.eval engine db scope).map fun row => (aliasName, row) :: scope := by
    simp only [Source.scopes, Source.eval, Source.aliasName, Predicate.eval, decide_true]
    exact List.filter_eq_self.mpr fun _ _ => rfl
  rw [levelColumn, SelectItem.evalList, SelectItem.outputName, Column.eval]
  cases fetch with
  | row =>
      simp only [asJson, Select.ofSource, Select.eval, hkept, SelectItem.aggregates, List.any_cons,
        List.any_nil, Bool.or_self, Bool.false_eq_true, if_false, OrderTerm.arrange, Engine.page,
        Engine.present, List.map_map, Function.comp_def, SelectItem.evalList, hrefer, List.map_cons,
        List.map_nil]
  | aggregation =>
      simp only [asJson, Select.ofSource, Select.eval, hkept, SelectItem.aggregates, List.any_cons,
        List.any_nil, Bool.or_false, if_true, SelectItem.summarize, OrderTerm.arrange, Engine.page,
        Engine.present, List.map_map, Function.comp_def, hrefer, List.map_cons, List.map_nil]

/-- The one row of a select that reads nothing. -/
theorem Select.eval_expression (item : SelectItem) (scope : Scope V)
    (h : item.aggregates = false) :
    (Select.expression [item]).eval engine db scope =
      [SelectItem.evalList engine db [item] scope] := by
  simp only [Select.expression, Select.eval, Source.scopes, Predicate.eval, decide_true,
    List.filter_cons, List.filter_nil, if_true, List.any_cons, List.any_nil, h, Bool.or_self,
    Bool.false_eq_true, if_false, List.map_cons, List.map_nil, OrderTerm.arrange, Engine.page]

end Eval

end Sql

end ViewCompiler
