import ViewCompiler.Proofs.Acceptance

/-!
# The Names in a Filter

What the keys of a filter have to be.

A filter is an object, and each of its keys is meant to name a field that is stored
in a column, stands for no relation and may be seen by the caller. The key is not
looked at once and for all. It is looked up where a value is compared with it, and
again for each operator of a condition, so it depends on the condition whether that
happens. A value is always compared, and every operator looks the key up before
anything else. A condition without operators compares nothing, and it is the only
one whose key is not looked at (`compileQuery_filters_unknown`).

What is asked of a request is known from `QueryNode.Acceptable`. Here it is spread
over the levels of the request, wherever they are (`QueryNode.acceptable_levels`),
and then read off the argument of each level.

## Main definitions

* `RequestLevel.conditions`: The conditions of a level's filter.

## Theorems

* `QueryNode.acceptable_levels`: Every level of an acceptable request has arguments
  that its entity accepts.
* `Entity.offersColumn_of_acceptsCondition`: A condition that compares something
  names a column.
* `offersColumn_of_compileQuery`: So does every one of a query that compiles.
* `compileQuery_filters`: What the keys of filters are, and which keys fail.
-/

namespace ViewCompiler

open Json Sql Schema

/-- The members of an object. -/
def Json.Value.members : Value → List (String × Value)
  | .object members => members
  | _ => []

/-- The conditions of a level's filter: field names with what is asked of them. -/
def RequestLevel.conditions (level : RequestLevel) : List (String × Value) :=
  level.args.flatMap fun arg => if arg.1 = "where" then arg.2.members else []

/-- The arguments of an acceptable request are accepted by the entities of their
    levels. By induction over the request, along with the derivation of its
    acceptance. -/
theorem QueryNode.acceptable_levels (schema : Schema) (authenticated : Bool) :
    (∀ (node : QueryNode) (matched : Option ChildColumn),
      node.Acceptable schema authenticated matched → ∀ level ∈ node.levels schema,
        ∀ arg ∈ level.args, level.entity.AcceptsArgument authenticated arg) ∧
    ∀ (fields : List (String × QueryNode)) (entity : Entity),
      QueryNode.SelectionAcceptable schema authenticated entity fields →
        ∀ level ∈ QueryNode.levelsBelow schema entity fields,
          ∀ arg ∈ level.args, level.entity.AcceptsArgument authenticated arg := by
  refine QueryNode.induction ?_ ?_ ?_ ?_
  · intro name aliasName args matched hacceptable
    cases hacceptable
  · intro name aliasName typeName fields more args ih matched hacceptable level hlevel
    cases hacceptable with
    | level _ _ _ _ entity _ _ _ hentity _ _ hselection hargs _ =>
        simp only [QueryNode.levels, hentity, List.mem_cons] at hlevel
        rcases hlevel with rfl | hbelow
        · exact hargs
        · exact ih entity hselection level hbelow
  · intro entity _ level hlevel
    rw [QueryNode.levelsBelow] at hlevel
    exact absurd hlevel List.not_mem_nil
  · intro key node rest ihnode ihrest entity hacceptable level hlevel
    rw [QueryNode.levelsBelow, List.mem_append] at hlevel
    -- Below a plain field there is no level, whatever its node says.
    cases hacceptable with
    | plain _ _ _ field _ hfield hrelation hrest =>
        rcases hlevel with hnode | hbelow
        · rw [hfield.1, Option.bind_some, hrelation, if_neg (by decide)] at hnode
          exact absurd hnode List.not_mem_nil
        · exact ihrest entity hrest level hbelow
    | related _ _ _ field use child _ hfield hrelation _ hacceptableNode hrest =>
        rcases hlevel with hnode | hbelow
        · rw [hfield.1, Option.bind_some, hrelation, Option.isSome_some, if_pos rfl] at hnode
          exact ihnode (some child) hacceptableNode level hnode
        · exact ihrest entity hrest level hbelow

namespace Schema.Entity

variable (entity : Entity) (authenticated : Bool)

/-- A condition that compares something names a column. -/
theorem offersColumn_of_acceptsCondition (entry : String × Value)
    (h : entity.AcceptsCondition authenticated entry) (hcompares : entry.2 ≠ .object []) :
    entity.OffersColumn authenticated entry.1 := by
  rcases entry with ⟨name, v⟩
  cases v with
  | array items => exact False.elim h
  | object operations =>
      cases operations with
      | nil => exact absurd rfl hcompares
      -- Each operator asks for the column, so the first one does.
      | cons operation more => exact (h operation List.mem_cons_self).1
  | null => exact h
  | bool b => exact h
  | number n => exact h
  | string s => exact h

theorem acceptsCondition_of_acceptsFilter (v : Value) (h : entity.AcceptsFilter authenticated v)
    (entry : String × Value) (hentry : entry ∈ v.members) :
    entity.AcceptsCondition authenticated entry := by
  cases v with
  | object conditions => exact h entry hentry
  | _ => exact absurd hentry List.not_mem_nil

end Schema.Entity

theorem RequestLevel.offersColumn_of_accepted (level : RequestLevel) (authenticated : Bool)
    (haccepted : ∀ arg ∈ level.args, level.entity.AcceptsArgument authenticated arg)
    (entry : String × Value) (hentry : entry ∈ level.conditions)
    (hcompares : entry.2 ≠ .object []) : level.entity.OffersColumn authenticated entry.1 := by
  rcases List.mem_flatMap.mp hentry with ⟨arg, harg, hmember⟩
  by_cases hname : arg.1 = "where"
  · rw [if_pos hname] at hmember
    have hfilter := (haccepted arg harg).1 hname
    have hcondition := level.entity.acceptsCondition_of_acceptsFilter authenticated arg.2 hfilter
      entry hmember
    exact level.entity.offersColumn_of_acceptsCondition authenticated entry hcondition hcompares
  · rw [if_neg hname] at hmember
    exact absurd hmember List.not_mem_nil

/-- What a filter compares in a query that compiles, it names by a column. -/
theorem offersColumn_of_compileQuery (schema : Schema) (minDepth : Nat) (authenticated : Bool)
    (constraint : Option Constraint) (node : QueryNode) (c : CompiledQuery)
    (hc : schema.compileQuery minDepth authenticated constraint node = .ok c)
    (level : RequestLevel) (hlevel : level ∈ node.levels schema) (entry : String × Value)
    (hentry : entry ∈ level.conditions) (hcompares : entry.2 ≠ .object []) :
    level.entity.OffersColumn authenticated entry.1 := by
  have hresolves := (succeeds_map_iff _ _).mp ⟨c, hc⟩
  have hacceptable := ((resolve_acceptable schema).1 node authenticated .aggregation .top
    constraint 0 fun _ => ⟨rfl, rfl⟩).mp hresolves
  have haccepted := (QueryNode.acceptable_levels schema authenticated).1 node _ hacceptable level
    hlevel
  exact level.offersColumn_of_accepted authenticated haccepted entry hentry hcompares

/-- Filters name columns that the caller may use. In a query that compiles, each key
    of each filter, at every level, is a field that is stored in a column and stands
    for no relation, and it is public or the caller is authenticated, provided that
    the condition is not an object without operators. A request with any other such
    key fails. -/
theorem compileQuery_filters (schema : Schema) (minDepth : Nat) (authenticated : Bool)
    (constraint : Option Constraint) (node : QueryNode) :
    (∀ c, schema.compileQuery minDepth authenticated constraint node = .ok c →
      ∀ level ∈ node.levels schema, ∀ entry ∈ level.conditions, entry.2 ≠ .object [] →
        ∃ field, level.entity.field? entry.1 = some field ∧ field.relation = none ∧
          field.nativeColumnName.isSome = true ∧
          (entry.1 ∈ level.entity.publicFieldNames ∨ authenticated = true)) ∧
    ∀ level ∈ node.levels schema, ∀ entry ∈ level.conditions, entry.2 ≠ .object [] →
      ¬ level.entity.OffersColumn authenticated entry.1 →
        ∃ e, schema.compileQuery minDepth authenticated constraint node = .error e := by
  constructor
  · intro c hc level hlevel entry hentry hcompares
    rcases offersColumn_of_compileQuery schema minDepth authenticated constraint node c hc level
      hlevel entry hentry hcompares with ⟨field, ⟨hfield, hallowed⟩, hrelation, hstored⟩
    refine ⟨field, hfield, hrelation, hstored, hallowed.imp_right ?_⟩
    rintro (hnone | hauthenticated)
    · rw [hnone] at hstored
      exact absurd hstored (by decide)
    · exact hauthenticated
  · intro level hlevel entry hentry hcompares hother
    cases hresult : schema.compileQuery minDepth authenticated constraint node with
    | error e => exact ⟨e, rfl⟩
    | ok c =>
        exact absurd (offersColumn_of_compileQuery schema minDepth authenticated constraint node c
          hresult level hlevel entry hentry hcompares) hother

/-- The filter of the blog's request names an address, which is a column for a
    caller who is authenticated, and no column for a guest, who is refused. -/
theorem compileQuery_filters_blog :
    (∃ c, Blog.schema.compileQuery 3 true none Blog.request = .ok c) ∧
      (∃ field, Blog.user.field? "email" = some field ∧ field.relation = none ∧
        field.nativeColumnName.isSome = true ∧
        ("email" ∈ Blog.user.publicFieldNames ∨ true = true)) ∧
      ¬ Blog.user.OffersColumn false "email" ∧
      ∃ e, Blog.schema.compileQuery 3 false none Blog.request = .error e := by
  have hcompiles : ∃ c, Blog.schema.compileQuery 3 true none Blog.request = .ok c := ⟨_, rfl⟩
  have hguest : ¬ Blog.user.OffersColumn false "email" := by
    rintro ⟨field, ⟨hfield, hallowed⟩, _, _⟩
    rw [← Option.some.inj hfield] at hallowed
    revert hallowed
    decide
  refine ⟨hcompiles, ?_, hguest, ?_⟩
  · rcases hcompiles with ⟨c, hc⟩
    exact (compileQuery_filters Blog.schema 3 true none Blog.request).1 c hc _
      List.mem_cons_self _ List.mem_cons_self (by simp)
  · exact (compileQuery_filters Blog.schema 3 false none Blog.request).2 _
      List.mem_cons_self _ List.mem_cons_self (by simp) hguest

/-- The users of the blog, under a filter that names no field and compares
    nothing. -/
def Blog.unchecked : QueryNode where
  name := "users"
  aliasName := none
  fieldsByTypeName := [("User", [leaf "name"])]
  args := [("where", .object [("nosuch", .object [])])]

/-- A key whose condition has no operators may be anything, also a name that no
    field of the entity has. -/
theorem compileQuery_filters_unknown :
    ∃ c, Blog.schema.compileQuery 4 false none Blog.unchecked = .ok c ∧
      ∃ level ∈ Blog.unchecked.levels Blog.schema, ∃ entry ∈ level.conditions,
        level.entity.field? entry.1 = none ∧ ¬ level.entity.OffersColumn false entry.1 := by
  have hcompiles : ∃ c, Blog.schema.compileQuery 4 false none Blog.unchecked = .ok c := ⟨_, rfl⟩
  rcases hcompiles with ⟨c, hc⟩
  have hunknown : Blog.user.field? "nosuch" = none := rfl
  refine ⟨c, hc, _, List.mem_cons_self, ("nosuch", .object []), List.mem_cons_self, hunknown, ?_⟩
  rintro ⟨field, ⟨hfield, _⟩, _⟩
  exact absurd (hunknown.symm.trans hfield) (by simp only [reduceCtorEq, not_false_eq_true])

end ViewCompiler
