import ViewCompiler.Proofs.Failures
import ViewCompiler.Proofs.Mutations
import ViewCompiler.Proofs.Parameters

/-!
# The Response to a Mutation

The query that answers a change or a removal selects the row that was written.

The identifier goes two ways. It is written into the condition of the statement
as a value of a row, and it is handed to the query as a constraint on the
outermost level, where it is a value in a condition. The two treat `null`
differently: the one binds it as a parameter without a text, the other turns the
comparison into a test. They agree on everything else, and a mutation is refused
if the identifier is `null`. So the column and the parameter are the same on both
ways, whatever the identifier is.

The constraint has a second effect. A level that may be reached by relations only
is refused if it lists the rows of its entity without anything that they belong
to. With a constraint it does not, and the levels below have constraints of their
own, so there is no failure of this kind at all.

## Main definitions

* `Sql.Statement.predicate?`: The condition of a statement.

## Theorems

* `MutationTarget.statement_identifies`: A statement with a condition compares the
  identifier with its last parameter.
* `resolve_permitted`: Nothing is forbidden below a constraint.
* `Schema.compileQuery_onId`: The query for the row of an identifier.
* `compileMutation_response`: The response to a mutation selects its row.
-/

namespace ViewCompiler

open Json Sql Schema

/-! ### The condition of a statement -/

/-- The condition of a statement, if it is of a kind that has one. -/
def Sql.Statement.predicate? : Statement → Option Predicate
  | .insert _ => none
  | .update statement => some statement.predicate
  | .delete statement => some statement.predicate

/-- A statement that changes or removes a row compares the identifier column with
    the text of the identifier, which is its last parameter. -/
theorem MutationTarget.statement_identifies (target : MutationTarget) (input : Entries Value)
    (kind : MutationKind) (hkind : kind = .update ∨ kind = .delete) (s : Statement)
    (h : target.statement input kind = .ok s) :
    ∃ id text, inputId? target.entity input = some id ∧ boundText? id = some text ∧
      s.predicate? = some (.compare .eq (.physical target.view.name target.entity.idColumnName)
        (.param (.text (some text)))) ∧
      s.render.params.getLast? = some (.text (some text)) := by
  rcases hkind with rfl | rfl
  · rcases (map_eq_ok_iff _ _ _).mp h with ⟨update, hupdate, rfl⟩
    rcases (target.update_eq_ok_iff input update).mp hupdate with ⟨id, hid, _, written, _, rfl⟩
    rcases target.idPredicate_eq id hid.2 with ⟨text, htext, hpredicate⟩
    refine ⟨id, text, (target.entity.inputId?_eq_some_iff input id).mpr hid, htext,
      congrArg some hpredicate, ?_⟩
    rw [hpredicate, (Update.render_eq target.view written _ _).2, List.getLast?_concat]
  · rcases (map_eq_ok_iff _ _ _).mp h with ⟨delete, hdelete, rfl⟩
    rcases (target.delete_eq_ok_iff input delete).mp hdelete with ⟨id, hid, rfl⟩
    rcases target.idPredicate_eq id hid.2 with ⟨text, htext, hpredicate⟩
    refine ⟨id, text, (target.entity.inputId?_eq_some_iff input id).mpr hid, htext,
      congrArg some hpredicate, ?_⟩
    rw [hpredicate, (Delete.render_eq target.view _ _).2]
    rfl

/-- A compiled mutation is one of a known entity. -/
theorem Schema.entity_of_compileMutation (schema : Schema) (request : MutationRequest)
    (mutation : Mutation) (cm : CompiledMutation)
    (hmutation : schema.mutation? request.name = some mutation)
    (h : schema.compileMutation request = .ok cm) :
    ∃ entity, schema.entity? mutation.typeName = some entity := by
  cases hentity : schema.entity? mutation.typeName with
  | some entity => exact ⟨entity, rfl⟩
  | none =>
      have hfails : schema.compileMutation request =
          .error (.unknownMutationType mutation.typeName request.name) := by
        unfold Schema.compileMutation Schema.mutationTarget
        rw [hmutation]
        simp only [hentity]
        rfl
      rw [hfails] at h
      simp only [reduceCtorEq] at h

/-! ### What is not forbidden -/

/-- Nothing is forbidden below a constraint, since every nested level has one of
    its own. -/
theorem resolve_permitted (schema : Schema) :
    (∀ (node : QueryNode) (authenticated : Bool) (fetch : Fetch) (position : Position)
        (constraint : Constraint) (next : Nat),
      Avoids .policy
        (resolveLevel schema authenticated fetch position (some constraint) next node)) ∧
    ∀ (fields : List (String × QueryNode)) (level : Level) (next : Nat),
      Avoids .policy (resolveFields schema level next fields) := by
  refine QueryNode.induction ?_ ?_ ?_ ?_
  · intro name aliasName args authenticated fetch position constraint next
    have hschema : Failure.Kind.policy ≠ .schema := by decide
    rw [resolveLevel]
    exact avoids_error _ hschema
  · intro name aliasName typeName fields more args ih authenticated fetch position constraint next
    have hnotGeneric : isGenericRootAggregation position fetch (some constraint) = false := by
      rw [isGenericRootAggregation, Option.isNone_some, Bool.and_false]
    rw [resolveLevel_typed]
    refine (schema.levelEntity_avoids (by decide) position fetch (some constraint)
      (fun _ => hnotGeneric) typeName fields).bind fun entity => ?_
    refine (ih _ _).bind fun selected => ?_
    refine (Level.clauses_avoids _ (by decide) (by decide) (by decide) args).bind fun clauses => ?_
    exact (matchPredicate_avoids (by decide) (some constraint) typeName entity _).map _
  · intro level next
    rw [resolveFields]
    exact avoids_ok _
  · intro key node rest ihnode ihrest level next
    rw [resolveFields_cons]
    refine (level.field_avoids (by decide) (by decide) node.name).bind fun field => ?_
    split
    · exact (ihrest level next).map _
    · rename_i use _
      refine (schema.link_avoids (by decide) level node.name field.value use).bind fun linked => ?_
      refine ((ihnode _ _ _ _ _).inContext _).bind fun below => ?_
      exact (ihrest level below.next).map _

/-! ### The query for a row -/

/-- A query for the row of an identifier compares the identifier column of its
    outermost level with the text of the identifier. -/
theorem Schema.compileQuery_onId (schema : Schema) (minDepth : Nat) (authenticated : Bool)
    (id : Value) (text : String) (htext : boundText? id = some text) (node : QueryNode)
    (typeName : String) (htype : node.selection?.map Prod.fst = some typeName) (entity : Entity)
    (hentity : schema.entity? typeName = some entity) (c : CompiledQuery)
    (h : schema.compileQuery minDepth authenticated (some (.onId id)) node = .ok c) :
    ∃ rows authorized filter,
      c.statement = Select.expression
        [levelColumn .aggregation (localAlias 0) rows node.resultKey] ∧
      rows.source = some (.view ⟨schema.entityViewSchema entity, entity.viewName authorized⟩
        (localAlias 1)) ∧
      Level.filter ⟨typeName, entity, localAlias 1, authenticated⟩ (given node.args "where") =
        .ok filter ∧
      filter.value ≠ .never ∧
      rows.predicate = (Predicate.compare .eq (.physical (localAlias 1) entity.idColumnName)
        (.param (.text (some text)))).conj filter.value := by
  rcases node with ⟨name, aliasName, _ | ⟨⟨first, fields⟩, more⟩, args⟩
  · simp only [QueryNode.selection?, List.head?_nil, Option.map_none, reduceCtorEq] at htype
  · obtain rfl : first = typeName := Option.some.inj htype
    simp only [Schema.compileQuery, bind_eq_ok_iff, pure, Except.pure, Except.ok.injEq] at h
    rcases h with ⟨r, hr, rfl⟩
    rcases resolveLevel_eq_ok _ _ _ _ _ _ _ _ _ _ _ _ _ hr with
      ⟨found, selected, clauses, matching, hfound, _, hclauses, hmatching, rfl⟩
    obtain rfl : found = entity := Option.some.inj (hfound.symm.trans hentity)
    rcases (Level.clauses_asked _ args clauses hclauses).predicate with ⟨g, hg, hpredicate⟩
    refine ⟨_, _, g, rfl, rfl, hg, (Level.filter_binds _ _ g hg).live, ?_⟩
    -- The identifier has a text, so it is compared and not tested for.
    have hmatched : matching = .compare .eq (.physical (localAlias 1) found.idColumnName)
        (.param (.text (some text))) := by
      have hliteral : literal id = .param (.text (some text)) := by
        rw [literal, htext]
      simp only [matchPredicate, Constraint.onId, Constraint.predicate, ChildColumn.toColumn,
        Operand.toColumn, hliteral] at hmatching
      exact (Except.ok.inj hmatching).symm
    rw [← hpredicate, ← hmatched]
    rfl

/-- The response to a change or a removal selects the row that was written: its
    outermost level compares the identifier column, which is the one that the
    statement compares, with the last parameter of the statement. The metadata never
    forbid it. -/
theorem compileMutation_response (schema : Schema) (request : MutationRequest)
    (mutation : Mutation) (hmutation : schema.mutation? request.name = some mutation)
    (hkind : mutation.kind = .update ∨ mutation.kind = .delete) (cm : CompiledMutation)
    (hcompiled : schema.compileMutation request = .ok cm) (response : QueryNode)
    (hresponse : response.selection?.map Prod.fst = some cm.entityTypeName) (minDepth : Nat)
    (authenticated : Bool) :
    ∃ constraint entity view p,
      cm.responseMatch = some constraint ∧
      schema.entity? cm.entityTypeName = some entity ∧
      cm.statement.predicate? =
        some (.compare .eq (.physical view entity.idColumnName) (.param p)) ∧
      cm.values.getLast? = some p ∧
      (∀ c, schema.compileQuery minDepth authenticated (some constraint) response = .ok c →
        ∃ rows authorized filter,
          c.statement = Select.expression
            [levelColumn .aggregation (localAlias 0) rows response.resultKey] ∧
          rows.source = some (.view ⟨schema.entityViewSchema entity, entity.viewName authorized⟩
            (localAlias 1)) ∧
          Level.filter ⟨cm.entityTypeName, entity, localAlias 1, authenticated⟩
            (given response.args "where") = .ok filter ∧
          filter.value ≠ .never ∧
          rows.predicate = (Predicate.compare .eq (.physical (localAlias 1) entity.idColumnName)
            (.param p)).conj filter.value) ∧
      ∀ failure, schema.compileQuery minDepth authenticated (some constraint) response =
        .error failure → failure.root.kind ≠ .policy := by
  rcases schema.entity_of_compileMutation request mutation cm hmutation hcompiled with
    ⟨entity, hentity⟩
  rw [schema.compileMutation_known request mutation entity hmutation hentity, map_eq_ok_iff]
    at hcompiled
  rcases hcompiled with ⟨s, hs, rfl⟩
  rcases MutationTarget.statement_identifies _ request.input mutation.kind hkind s hs with
    ⟨id, text, hid, htext, hpredicate, hlast⟩
  have hmatch := congrArg (Option.map Constraint.onId) hid
  refine ⟨.onId id, entity, _, .text (some text), hmatch, hentity, hpredicate, hlast, ?_, ?_⟩
  · intro c hc
    exact schema.compileQuery_onId minDepth authenticated id text htext response _ hresponse entity
      hentity c hc
  · have hpermitted := (resolve_permitted schema).1 response authenticated .aggregation .top
      (.onId id) 0
    exact hpermitted.bind fun _ => avoids_ok _

namespace Blog

/-- The blog with users that are reached by relations only. -/
def closed : Schema :=
  { editable with
    entities := [("User", { user with disallowGenericRootLevelAggregation := true }),
      ("Post", post)] }

end Blog

/-- The users of the closed blog cannot be listed, but the one that was renamed can
    be shown. -/
theorem compileMutation_response_rename :
    Blog.closed.compileQuery 3 true none Blog.request = .error (.rootAggregation "User") ∧
      ∃ cm c rows filter, Blog.closed.compileMutation Blog.rename = .ok cm ∧
        Blog.closed.compileQuery 3 true cm.responseMatch Blog.request = .ok c ∧
        cm.values.getLast? = some (.text (some "7")) ∧
        c.statement = Select.expression [levelColumn .aggregation (localAlias 0) rows "users"] ∧
        rows.predicate = (Predicate.compare .eq (.physical (localAlias 1) "id")
          (.param (.text (some "7")))).conj filter := by
  refine ⟨rfl, ?_⟩
  have hcompiled : ∃ cm, Blog.closed.compileMutation Blog.rename = .ok cm ∧
      cm.entityTypeName = "User" ∧ cm.values.getLast? = some (.text (some "7")) ∧
      ∃ c, Blog.closed.compileQuery 3 true cm.responseMatch Blog.request = .ok c :=
    ⟨_, rfl, rfl, rfl, _, rfl⟩
  rcases hcompiled with ⟨cm, hcm, htype, hlast, c, hc⟩
  rcases compileMutation_response Blog.closed Blog.rename
    ⟨.update, "User", some "w\"rite", "user"⟩ rfl (Or.inl rfl) cm hcm Blog.request
    (congrArg some htype.symm) 3 true with
    ⟨constraint, entity, view, p, hmatch, hentity, _, hp, hrows, _⟩
  have huser : Blog.closed.entity? "User" =
      some { Blog.user with disallowGenericRootLevelAggregation := true } := rfl
  rw [htype, huser] at hentity
  obtain rfl := Option.some.inj hentity
  obtain rfl := Option.some.inj (hp.symm.trans hlast)
  rcases hrows c (hmatch ▸ hc) with ⟨rows, _, filter, hstatement, _, _, _, hpredicate⟩
  exact ⟨cm, c, rows, filter.value, hcm, hc, hlast, hstatement, hpredicate⟩

end ViewCompiler
