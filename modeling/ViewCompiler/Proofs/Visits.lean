import ViewCompiler.Proofs.Views

/-!
# Visiting the Levels of a Request

The way from one level of a request to the next, as compiling takes it.

Compiling a level means to visit its node, and what happens there depends on how the
node was come to: the outermost one is a list of rows that may be restricted by the
caller, a nested one is fetched and matched as its relation says, and either takes the
next aliases. A `Visit` has all of it. A visit opens a level, goes through the fields
of the level one by one, and for a field that stands for a relation makes another visit.
`Visit.Descends` is that one step, and `Visit.Reaches` is a way made of such steps. A
step has a context, which names the relation.

A field is come to only after the ones before it, and a step is taken only if these
have been resolved. So `Visit.Reaches` is about visits that are really made, whether or
not the compilation succeeds in the end. If it does, every visit on the way has
succeeded as well, and the select of a step stands among the columns of the level that
the step was taken from.

## Main definitions

* `Level.FieldRaises`, `Level.Leads`, `Level.FieldFails`: What can become of a field.
* `Visit`: A node, and how it was come to.
* `Visit.Opens`, `Visit.ComesTo`: The level of a visit, and the fields of the level.
* `Visit.Descends`, `Visit.Reaches`: From a visit to one inside of it.

## Theorems

* `resolveFields_append`: Fields are resolved in portions.
* `resolveFields_eq_error_iff`: Fields fail at one of them, after the others.
* `Visit.descends_of_mem`: Every relation field of a level is descended into.
* `Visit.resolve_descends`, `Visit.resolve_reaches`: Where a visit succeeds, those
  inside of it do.
* `compileQuery_reaches`: The visits of a compiled query.
-/

namespace ViewCompiler

open Json Sql Schema

/-! ### Outcomes that fail -/

theorem bind_eq_error_iff {ε α β : Type} (x : Except ε α) (f : α → Except ε β) (e : ε) :
    (x >>= f) = .error e ↔ x = .error e ∨ ∃ a, x = .ok a ∧ f a = .error e := by
  cases x <;> simp [bind, Except.bind]

theorem map_eq_error_iff {ε α β : Type} (f : α → β) (x : Except ε α) (e : ε) :
    x.map f = .error e ↔ x = .error e := by
  cases x <;> simp [Except.map]

theorem mapError_eq_error_iff {ε ε' α : Type} (f : ε → ε') (x : Except ε α) (e' : ε') :
    x.mapError f = .error e' ↔ ∃ e, x = .error e ∧ f e = e' := by
  cases x <;> simp [Except.mapError]

theorem map_bind_eq {ε α β γ : Type} (x : Except ε α) (f : α → Except ε β) (g : β → γ) :
    (x >>= f).map g = (x >>= fun a => (f a).map g) := by
  cases x <;> rfl

theorem bind_map_eq {ε α β γ : Type} (x : Except ε α) (f : α → β) (g : β → Except ε γ) :
    (x.map f >>= g) = (x >>= fun a => g (f a)) := by
  cases x <;> rfl

theorem map_map_eq {ε α β γ : Type} (x : Except ε α) (f : α → β) (g : β → γ) :
    (x.map f).map g = x.map fun a => g (f a) := by
  cases x <;> rfl

/-! ### Fields in portions -/

/-- The columns of two portions of the fields of a level. -/
def ResolvedFields.append (before after : ResolvedFields) : ResolvedFields where
  columns := before.columns ++ after.columns
  children := before.children ++ after.children
  restricted := before.restricted || after.restricted
  authBelow := before.authBelow || after.authBelow
  next := after.next

theorem ResolvedFields.next_addColumn (others : ResolvedFields) (level : Level)
    (node : QueryNode) (field : Guarded Field) :
    (others.addColumn level node field).next = others.next := rfl

theorem ResolvedFields.next_addLevel (others : ResolvedFields) (node : QueryNode)
    (field : Guarded Field) (fetch : Fetch) (next : Nat) (below : Resolved) :
    (others.addLevel node field fetch next below).next = others.next := rfl

theorem ResolvedFields.addColumn_append (others after : ResolvedFields) (level : Level)
    (node : QueryNode) (field : Guarded Field) :
    (others.addColumn level node field).append after =
      (others.append after).addColumn level node field := by
  simp only [addColumn, append, List.cons_append, Bool.or_assoc]

theorem ResolvedFields.addLevel_append (others after : ResolvedFields) (node : QueryNode)
    (field : Guarded Field) (fetch : Fetch) (next : Nat) (below : Resolved) :
    (others.addLevel node field fetch next below).append after =
      (others.append after).addLevel node field fetch next below := by
  simp only [addLevel, append, List.cons_append, Bool.or_assoc]

/-- Fields can be resolved in two portions, of which the second takes the aliases that
    the first has left. -/
theorem resolveFields_append (schema : Schema) (level : Level) (next : Nat)
    (before after : List (String × QueryNode)) :
    resolveFields schema level next (before ++ after) =
      (resolveFields schema level next before >>= fun r =>
        (resolveFields schema level r.next after).map r.append) := by
  induction before generalizing next with
  | nil =>
      rw [List.nil_append, resolveFields]
      change _ = (resolveFields schema level next after).map _
      cases resolveFields schema level next after <;> rfl
  | cons entry rest ih =>
      rcases entry with ⟨key, node⟩
      rw [List.cons_append, resolveFields_cons, resolveFields_cons, bind_assoc]
      congr 1
      funext field
      -- The columns of the second portion come behind all that the first field adds to.
      cases field.value.relation with
      | none => simp only [ih, map_bind_eq, bind_map_eq, map_map_eq,
          ← ResolvedFields.addColumn_append, ResolvedFields.next_addColumn]
      | some use => simp only [ih, map_bind_eq, bind_map_eq, map_map_eq, bind_assoc,
          ← ResolvedFields.addLevel_append, ResolvedFields.next_addLevel]

/-! ### What can become of a field -/

namespace Level

/-- A field of a level fails by itself: it is not there, or refused, or its relation
    gives no link. -/
def FieldRaises (schema : Schema) (level : Level) (child : QueryNode) (e : Failure) : Prop :=
  level.field child.name = .error e ∨
    ∃ field use, level.field child.name = .ok field ∧ field.value.relation = some use ∧
      schema.link level child.name field.value use = .error e

/-- A field of a level leads to a nested level, which is fetched and matched in the
    given way. -/
def Leads (schema : Schema) (level : Level) (child : QueryNode) (fetch : Fetch)
    (constraint : Constraint) : Prop :=
  ∃ field use, level.field child.name = .ok field ∧ field.value.relation = some use ∧
    schema.link level child.name field.value use = .ok (fetch, constraint)

/-- A field of a level fails by itself, or the level below it does, and then the
    relation is added as a context. -/
def FieldFails (schema : Schema) (level : Level) (next : Nat) (child : QueryNode)
    (e : Failure) : Prop :=
  level.FieldRaises schema child e ∨
    ∃ fetch constraint cause, level.Leads schema child fetch constraint ∧
      resolveLevel schema level.authenticated fetch .nested (some constraint) next child =
        .error cause ∧
      e = .inContext (Failure.relationContext level.typeName child.name) cause

end Level

/-- One field of a level fails by itself or below. -/
theorem resolveFields_singleton_eq_error_iff (schema : Schema) (level : Level) (next : Nat)
    (key : String) (child : QueryNode) (e : Failure) :
    resolveFields schema level next [(key, child)] = .error e ↔
      level.FieldFails schema next child e := by
  rw [resolveFields_cons, bind_eq_error_iff]
  unfold Level.FieldFails Level.FieldRaises
  constructor
  · rintro (hfield | ⟨field, hfield, h⟩)
    · exact Or.inl (Or.inl hfield)
    · cases huse : field.value.relation with
      | none => simp only [huse, resolveFields, Except.map, reduceCtorEq] at h
      | some use =>
          simp only [huse, bind_eq_error_iff, map_eq_error_iff, mapError_eq_error_iff,
            resolveFields, reduceCtorEq, and_false, exists_false, or_false] at h
          rcases h with hlink | ⟨linked, hlink, cause, hcause, rfl⟩
          · exact Or.inl (Or.inr ⟨field, use, hfield, huse, hlink⟩)
          · exact Or.inr ⟨linked.1, linked.2, cause, ⟨field, use, hfield, huse, hlink⟩, hcause, rfl⟩
  -- The stages before the one that fails are known to succeed.
  · rintro ((hfield | ⟨field, use, hfield, huse, hlink⟩) |
      ⟨fetch, constraint, cause, ⟨field, use, hfield, huse, hlink⟩, hcause, rfl⟩)
    · exact Or.inl hfield
    · refine Or.inr ⟨field, hfield, ?_⟩
      simp only [huse, hlink]
      rfl
    · refine Or.inr ⟨field, hfield, ?_⟩
      simp only [huse, hlink, bind, Except.bind, hcause, Except.mapError]

/-- The fields of a level fail at one of them, after those before it have been
    resolved. -/
theorem resolveFields_eq_error_iff (schema : Schema) (level : Level) (next : Nat)
    (fields : List (String × QueryNode)) (e : Failure) :
    resolveFields schema level next fields = .error e ↔
      ∃ before key child after r, fields = before ++ (key, child) :: after ∧
        resolveFields schema level next before = .ok r ∧
        level.FieldFails schema r.next child e := by
  constructor
  · intro h
    induction fields generalizing next with
    | nil => simp only [resolveFields, reduceCtorEq] at h
    | cons entry rest ih =>
        rcases entry with ⟨key, child⟩
        rw [← List.singleton_append, resolveFields_append, bind_eq_error_iff] at h
        rcases h with hfirst | ⟨r, hr, hrest⟩
        · exact ⟨[], key, child, rest, _, rfl, rfl,
            (resolveFields_singleton_eq_error_iff schema level next key child e).mp hfirst⟩
        -- The first field is resolved, so it is one of those before the failing one.
        · rw [map_eq_error_iff] at hrest
          rcases ih r.next hrest with ⟨before, key', child', after, s, rfl, hs, hfails⟩
          refine ⟨(key, child) :: before, key', child', after, r.append s, rfl, ?_, hfails⟩
          rw [← List.singleton_append, resolveFields_append, hr]
          simp only [bind, Except.bind, hs, Except.map]
  · rintro ⟨before, key, child, after, r, rfl, hr, hfails⟩
    have hchild := (resolveFields_singleton_eq_error_iff schema level r.next key child e).mpr hfails
    rw [resolveFields_append, hr, ← List.singleton_append]
    simp only [bind, Except.bind, resolveFields_append, hchild, Except.map]

/-! ### Visits -/

/-- A node with the way in which its rows are fetched and matched, and the number of the
    next alias. -/
structure Visit where
  node : QueryNode
  fetch : Fetch
  position : Position
  constraint : Option Constraint
  next : Nat

namespace Visit

/-- The visit of a whole request. -/
def outermost (constraint : Option Constraint) (node : QueryNode) : Visit :=
  ⟨node, .aggregation, .top, constraint, 0⟩

/-- What becomes of a visit. -/
def resolve (schema : Schema) (authenticated : Bool) (v : Visit) : Except Failure Resolved :=
  resolveLevel schema authenticated v.fetch v.position v.constraint v.next v.node

/-- A visit opens a level if its node selects fields of a type, and the entity of the
    type may be visited. -/
structure Opens (schema : Schema) (authenticated : Bool) (v : Visit) (level : Level)
    (fields : List (String × QueryNode)) : Prop where
  selection : v.node.selection? = some (level.typeName, fields)
  entity : schema.levelEntity v.position v.fetch v.constraint level.typeName fields =
    .ok level.entity
  aliasName : level.aliasName = localAlias (v.next + 1)
  authenticated : level.authenticated = authenticated

/-- A visit comes to a field of its level if the fields before it have been resolved. The
    number is that of the next alias. -/
def ComesTo (schema : Schema) (authenticated : Bool) (v : Visit) (level : Level)
    (child : QueryNode) (number : Nat) : Prop :=
  ∃ before key after r, v.Opens schema authenticated level (before ++ (key, child) :: after) ∧
    resolveFields schema level (v.next + 2) before = .ok r ∧ number = r.next

/-- A visit descends to another one where a field of its level stands for a relation. The
    context names the type of the level, which is the first that the node lists, and the
    field. -/
inductive Descends (schema : Schema) (authenticated : Bool) : Visit → String → Visit → Prop where
  | relation (v : Visit) (level : Level) (child : QueryNode) (number : Nat) (fetch : Fetch)
      (constraint : Constraint) (hcomes : v.ComesTo schema authenticated level child number)
      (hleads : level.Leads schema child fetch constraint) :
      Descends schema authenticated v (Failure.relationContext level.typeName child.name)
        ⟨child, fetch, .nested, some constraint, number⟩

/-- A way from a visit down to another one, with the contexts of its steps. -/
inductive Reaches (schema : Schema) (authenticated : Bool) :
    Visit → List String → Visit → Prop where
  | refl (v : Visit) : Reaches schema authenticated v [] v
  | step (v w u : Visit) (context : String) (contexts : List String)
      (hstep : Descends schema authenticated v context w)
      (hrest : Reaches schema authenticated w contexts u) :
      Reaches schema authenticated v (context :: contexts) u

variable {schema : Schema} {authenticated : Bool}

/-- What is left to do once a level is open. -/
theorem resolve_of_opens {v : Visit} {level : Level} {fields : List (String × QueryNode)}
    (h : v.Opens schema authenticated level fields) :
    v.resolve schema authenticated =
      (resolveFields schema level (v.next + 2) fields >>= fun selected =>
        level.clauses v.node.args >>= fun clauses =>
          (matchPredicate v.constraint level.typeName level.entity level.aliasName).map
            (assembleLevel schema v.fetch level selected clauses)) := by
  rcases v with ⟨⟨name, aliasName, types, args⟩, fetch, position, constraint, next⟩
  rcases level with ⟨typeName, entity, levelAlias, levelAuthenticated⟩
  rcases h with ⟨hselection, hentity, halias, hauthenticated⟩
  simp only at hentity halias hauthenticated
  subst halias hauthenticated
  -- The first type that the node lists is the one of the level.
  cases types with
  | nil => simp only [QueryNode.selection?, List.head?_nil, reduceCtorEq] at hselection
  | cons selection more =>
      simp only [QueryNode.selection?, List.head?_cons, Option.some.injEq] at hselection
      subst hselection
      simp only [resolve, resolveLevel_typed, hentity, bind, Except.bind]

/-- A visit that succeeds has opened a level and put it together. -/
theorem resolve_eq_ok {v : Visit} {r : Resolved} (h : v.resolve schema authenticated = .ok r) :
    ∃ level fields selected clauses matching, v.Opens schema authenticated level fields ∧
      resolveFields schema level (v.next + 2) fields = .ok selected ∧
      level.clauses v.node.args = .ok clauses ∧
      matchPredicate v.constraint level.typeName level.entity level.aliasName = .ok matching ∧
      r = assembleLevel schema v.fetch level selected clauses matching := by
  rcases v with ⟨⟨name, aliasName, types, args⟩, fetch, position, constraint, next⟩
  cases types with
  | nil => simp only [resolve, resolveLevel, reduceCtorEq] at h
  | cons selection more =>
      rcases selection with ⟨typeName, fields⟩
      simp only [resolve, resolveLevel_typed, bind_eq_ok_iff, map_eq_ok_iff] at h
      rcases h with
        ⟨entity, hentity, selected, hselected, clauses, hclauses, matching, hmatching, hr⟩
      exact ⟨_, fields, selected, clauses, matching, ⟨rfl, hentity, rfl, rfl⟩, hselected, hclauses,
        hmatching, hr.symm⟩

/-- A visit opens one level at most. -/
theorem Opens.unique {v : Visit} {level level' : Level} {fields fields' : List (String × QueryNode)}
    (h : v.Opens schema authenticated level fields)
    (h' : v.Opens schema authenticated level' fields') : level = level' ∧ fields = fields' := by
  rcases level with ⟨typeName, entity, levelAlias, levelAuthenticated⟩
  rcases level' with ⟨typeName', entity', levelAlias', levelAuthenticated'⟩
  rcases h with ⟨hselection, hentity, halias, hauthenticated⟩
  rcases h' with ⟨hselection', hentity', halias', hauthenticated'⟩
  have hsame := hselection.symm.trans hselection'
  simp only [Option.some.injEq, Prod.mk.injEq] at hsame
  simp only at hentity hentity' halias halias' hauthenticated hauthenticated'
  rcases hsame with ⟨rfl, rfl⟩
  rw [hentity, Except.ok.injEq] at hentity'
  rw [hentity', halias, halias', hauthenticated, hauthenticated']
  exact ⟨rfl, rfl⟩

/-! ### Visits that succeed -/

/-- A relation field of a level that has been resolved is descended into. -/
theorem descends_of_mem {v : Visit} {r : Resolved} {level : Level}
    {fields : List (String × QueryNode)} (hr : v.resolve schema authenticated = .ok r)
    (hopens : v.Opens schema authenticated level fields) {key : String} {child : QueryNode}
    (hmem : (key, child) ∈ fields) {field : Field} {use : FieldLink}
    (hfield : level.entity.field? child.name = some field) (huse : field.relation = some use) :
    ∃ fetch constraint number,
      schema.link level child.name field use = .ok (fetch, constraint) ∧
      v.Descends schema authenticated (Failure.relationContext level.typeName child.name)
        ⟨child, fetch, .nested, some constraint, number⟩ := by
  rcases List.append_of_mem hmem with ⟨before, after, rfl⟩
  rw [resolve_of_opens hopens, bind_eq_ok_iff] at hr
  rcases hr with ⟨selected, hselected, _⟩
  rw [resolveFields_append, bind_eq_ok_iff] at hselected
  rcases hselected with ⟨s, hs, hafter⟩
  rw [map_eq_ok_iff] at hafter
  rcases hafter with ⟨rest, hrest, _⟩
  rcases resolveFields_cons_eq_ok schema level s.next key child after rest hrest with
    ⟨g, hg, ⟨hplain, _⟩ | ⟨use', fetch, constraint, below, others, hrelation, hlink, _⟩⟩
  -- The level gives out the field that the entity has, which stands for a relation.
  · have hvalue := ((level.field_eq_ok_iff child.name g).mp hg).1
    rw [hfield, Option.some.injEq] at hvalue
    rw [← hvalue, huse] at hplain
    exact absurd hplain (Option.some_ne_none use)
  · have hvalue := ((level.field_eq_ok_iff child.name g).mp hg).1
    rw [hfield, Option.some.injEq] at hvalue
    rw [← hvalue, huse, Option.some.injEq] at hrelation
    subst hrelation
    have hcomes : v.ComesTo schema authenticated level child s.next :=
      ⟨before, key, after, s, hopens, hs, rfl⟩
    rw [← hvalue] at hlink
    refine ⟨fetch, constraint, s.next, hlink, .relation v level child s.next fetch constraint hcomes
      ⟨g, use, hg, ?_, ?_⟩⟩
    · rw [← hvalue, huse]
    · rw [← hvalue, hlink]

/-- Where a visit succeeds, those that it descends to do, and their selects are among its
    columns. -/
theorem resolve_descends {v w : Visit} {context : String} {r : Resolved}
    (hr : v.resolve schema authenticated = .ok r)
    (hstep : v.Descends schema authenticated context w) :
    ∃ below, w.resolve schema authenticated = .ok below ∧
      levelColumn w.fetch (localAlias w.next) below.select w.node.resultKey ∈ r.select.columns := by
  cases hstep with
  | relation level child number fetch constraint hcomes hleads =>
      rcases hcomes with ⟨before, key, after, s, hopens, hs, rfl⟩
      rcases hleads with ⟨field, use, hfield, huse, hlink⟩
      have hauthenticated := hopens.authenticated
      rw [resolve_of_opens hopens] at hr
      simp only [bind_eq_ok_iff, map_eq_ok_iff, resolveFields_append, hs, Except.ok.injEq,
        exists_eq_left'] at hr
      rcases hr with ⟨_, ⟨rest, hrest, rfl⟩, clauses, _, matching, _, rfl⟩
      rcases resolveFields_cons_eq_ok schema level s.next key child after rest hrest with
        ⟨g, hg, ⟨hplain, _⟩ | ⟨use', fetch', constraint', below, others, hrelation, hlink', hbelow,
          _, rfl⟩⟩
      · rw [hfield, Except.ok.injEq] at hg
        rw [← hg, huse] at hplain
        exact absurd hplain (Option.some_ne_none use)
      -- The field and its link are found a second time, with the same outcome.
      · rw [hfield, Except.ok.injEq] at hg
        subst hg
        rw [huse, Option.some.injEq] at hrelation
        subst hrelation
        rw [hlink, Except.ok.injEq, Prod.mk.injEq] at hlink'
        rcases hlink' with ⟨rfl, rfl⟩
        rw [hauthenticated] at hbelow
        exact ⟨below, hbelow, List.mem_append_right _ List.mem_cons_self⟩

end Visit

/-- A column of a select that nests the rows of a level holds the selects of these
    rows. -/
theorem mem_selects_of_levelColumn (s : Select) (fetch : Fetch) (aliasName : String)
    (rows : Select) (resultKey : String)
    (h : levelColumn fetch aliasName rows resultKey ∈ s.columns) (t : Select)
    (ht : t ∈ rows.selects) : t ∈ s.selects := by
  have hitem : t ∈ (levelColumn fetch aliasName rows resultKey).selects := by
    rw [levelColumn, SelectItem.selects, Column.selects]
    cases fetch <;>
      simp only [asJson, Select.ofSource, Select.selects, Source.selectsOfOption, Source.selects,
        List.mem_cons, List.mem_append, ht, true_or, or_true]
  have hitems : ∀ items : List SelectItem, levelColumn fetch aliasName rows resultKey ∈ items →
      t ∈ SelectItem.selectsOfList items := by
    intro items hmem
    induction items with
    | nil => exact absurd hmem List.not_mem_nil
    | cons item rest ih =>
        rw [SelectItem.selectsOfList]
        rcases List.mem_cons.mp hmem with heq | hrest
        · exact List.mem_append_left _ (heq ▸ hitem)
        · exact List.mem_append_right _ (ih hrest)
  rcases s with ⟨columns, source, predicate, orderBy, limit, offset⟩
  rw [Select.selects]
  simp only [List.mem_cons, List.mem_append, hitems columns h, true_or, or_true]

namespace Visit

variable {schema : Schema} {authenticated : Bool}

/-- Where a visit succeeds, all those inside of it do, and their selects are inside of
    its own. By induction on the way down. -/
theorem resolve_reaches {v w : Visit} {contexts : List String}
    (hway : v.Reaches schema authenticated contexts w) {r : Resolved}
    (hr : v.resolve schema authenticated = .ok r) :
    ∃ below, w.resolve schema authenticated = .ok below ∧ below.select ∈ r.select.selects := by
  induction hway generalizing r with
  | refl v => exact ⟨r, hr, by rcases hs : r.select with ⟨⟩; exact List.mem_cons_self⟩
  | step v w u context contexts hstep hrest ih =>
      rcases resolve_descends hr hstep with ⟨middle, hmiddle, hcolumn⟩
      rcases ih hmiddle with ⟨below, hbelow, hmem⟩
      exact ⟨below, hbelow, mem_selects_of_levelColumn _ _ _ _ _ hcolumn _ hmem⟩

end Visit

/-- Every visit of a compiled query has succeeded, and its select is one of those of the
    statement. -/
theorem compileQuery_reaches {schema : Schema} {minDepth : Nat} {authenticated : Bool}
    {constraint : Option Constraint} {node : QueryNode} {c : CompiledQuery}
    (hc : schema.compileQuery minDepth authenticated constraint node = .ok c) {v : Visit}
    {contexts : List String}
    (hway : (Visit.outermost constraint node).Reaches schema authenticated contexts v) :
    ∃ r, v.resolve schema authenticated = .ok r ∧ r.select ∈ c.statement.selects := by
  simp only [Schema.compileQuery, bind_eq_ok_iff, pure, Except.pure, Except.ok.injEq] at hc
  rcases hc with ⟨outer, houter, rfl⟩
  rcases Visit.resolve_reaches hway houter with ⟨r, hr, hmem⟩
  exact ⟨r, hr, mem_selects_of_levelColumn _ .aggregation _ outer.select _ List.mem_cons_self
    r.select hmem⟩

end ViewCompiler
