import ViewCompiler.Proofs.Places

/-!
# Columns of Public Views

Which columns a query reads of a public view.

A public view is taken to have the identifier of its entity, the columns of the
public fields, and a column for every computed field, under the name of that
field. All that a level selects, filters by and sorts by goes through one gate:
a field that is stored in a column and is not public makes the level read the
authorized view. So of what a level that reads the public view asks for itself,
nothing is missing there.

The columns by which rows are linked do not go through that gate. The sides of a
relation name columns and not fields, and nobody looks whether one of the public
fields is stored in such a column. A level can therefore be linked by a column
that its public view does not have, to the level around it and to those inside
of it (`compileQuery_publicColumns_hidden`). That is the only way in which such
a column gets into a statement, and it does so only by the relation's own name
for it: if a link falls back to the column of the relation field, that field was
selected and went through the gate.

An entity may have one view in both roles. A level that uses a restricted field
of it reads the public view by the name of the authorized one, and the columns
of its fields are then the ones it finds there.

## Main definitions

* `Entity.Exposes`: The columns of a public view.
* `RequestLevel.Finds`: The columns that a level finds in its public view.
* `Place.LinkColumn`: The columns by which a place is linked to another.
* `Place.ReadBy`: What a select reads of a place.

## Theorems

* `RequestLevel.finds_of_stored`, `RequestLevel.finds_of_shows`: The gate.
* `Place.FilledBy.readBy`: What the rows of one place read of another.
* `compileQuery_publicColumns`: What a query reads of public views.
-/

namespace ViewCompiler

open Json Sql Schema

/-! ### What there is to read -/

namespace Schema.Entity

/-- The public view of an entity has a column: it is that of the identifier, of a
    public field, or of a computed one. -/
def Exposes (entity : Entity) (columnName : String) : Prop :=
  columnName = entity.idColumnName ∨
    (∃ name ∈ entity.publicFieldNames,
      (entity.field? name).bind Field.nativeColumnName = some columnName) ∨
    (entity.field? columnName).any
      (fun field => field.nativeColumnName.isNone && field.relation.isNone) = true

instance (entity : Entity) (columnName : String) : Decidable (entity.Exposes columnName) :=
  inferInstanceAs (Decidable (_ ∨ _ ∨ _))

end Schema.Entity

namespace RequestLevel

/-- A level reads the public view of its entity. -/
def ReadsPublic (schema : Schema) (level : RequestLevel) : Prop :=
  level.view schema = level.publicView schema

instance (schema : Schema) (level : RequestLevel) : Decidable (level.ReadsPublic schema) :=
  inferInstanceAs (Decidable (_ = _))

/-- A level finds a column in its public view: the view exposes it, or it is also
    the authorized view and a field is stored there that the level uses. -/
def Finds (level : RequestLevel) (columnName : String) : Prop :=
  level.entity.Exposes columnName ∨
    level.entity.authViewName = level.entity.publicViewName ∧
      ∃ name ∈ level.usedFields,
        (level.entity.field? name).bind Field.nativeColumnName = some columnName

variable {schema : Schema} {level : RequestLevel}

/-- The gate: a field that a level uses is not restricted, unless the level reads
    the authorized view. -/
theorem finds_of_stored (hpublic : level.ReadsPublic schema) (name : String) (field : Field)
    (columnName : String) (hname : name ∈ level.usedFields)
    (hfield : level.entity.field? name = some field)
    (hnative : field.nativeColumnName = some columnName) : level.Finds columnName := by
  have hstored : (level.entity.field? name).bind Field.nativeColumnName = some columnName := by
    rw [hfield]
    exact hnative
  by_cases hmem : name ∈ level.entity.publicFieldNames
  · exact Or.inl (Or.inr (Or.inl ⟨name, hmem, hstored⟩))
  · have huses : level.UsesRestricted :=
      ⟨name, hname, field, hfield, Option.isSome_of_eq_some hnative, hmem⟩
    rw [ReadsPublic, view, if_pos huses] at hpublic
    exact Or.inr ⟨congrArg ViewName.name hpublic, name, hname, hstored⟩

theorem finds_of_shows (hpublic : level.ReadsPublic schema) (columnName : String)
    (hshows : level.entity.Shows level.usedFields columnName) : level.Finds columnName := by
  rcases hshows with ⟨name, hname, field, hfield, hrelation, rfl⟩
  cases hnative : field.nativeColumnName with
  | some column =>
      rw [Field.columnName, hnative]
      exact finds_of_stored hpublic name field column hname hfield hnative
  | none =>
      rw [Field.columnName, hnative]
      refine Or.inl (Or.inr (Or.inr ?_))
      rw [Option.getD_none, hfield, Option.any_some, hnative, hrelation]
      rfl

end RequestLevel

/-! ### What is read -/

namespace Place

/-- A column of the place `p` by which the rows of `q` are linked, and which the
    relation names: `q` is `p` itself and its rows store the key of their owner, or
    `q` is inside of `p` and belongs to the key or the keys that a row of `p` stores. -/
def LinkColumn (schema : Schema) (p q : Place) (columnName : String) : Prop :=
  ∃ enclosing use sides, q.entry = .related enclosing use ∧ use.sides? schema = some sides ∧
    (p = q ∧ RelationUse.ForeignKey sides columnName ∧
        hasColumn p.level.entity columnName = true ∨
      p.number = enclosing ∧ use.OwnKey sides columnName ∧
        sides.own.columnName = some columnName)

/-- What the select `s` of the rows of `q` reads of the place `p`: columns that the
    level finds in its public view, and in the link also the column that the
    relation names. The link is the condition by which the rows of `q` are chosen,
    and the filter is the one that its arguments ask for. -/
structure ReadBy (schema : Schema) (p q : Place) (s : Select) : Prop where
  columns : ∀ item ∈ s.columns, ∀ name,
    (p.rowsAlias, name) ∈ item.column.references → p.level.Finds name
  predicate : ∃ link filter : Predicate, s.predicate = link.conj filter ∧
    q.entry.LinkedBy schema q.level.entity q.rowsAlias link ∧ q.FilteredBy filter ∧
    s.predicate.references = link.references ++ filter.references ∧
    (∀ name, (p.rowsAlias, name) ∈ filter.references → p.level.Finds name) ∧
    ∀ name, (p.rowsAlias, name) ∈ link.references →
      p.level.Finds name ∨ p.LinkColumn schema q name
  orderBy : ∀ term ∈ s.orderBy.getD [], ∀ name,
    (p.rowsAlias, name) ∈ term.column.references → p.level.Finds name

theorem number_eq_of_rowsAlias (p : Place) (number : Nat)
    (h : p.rowsAlias = localAlias (2 * number + 1)) : p.number = number := by
  have := localAlias_injective _ _ h
  omega

variable {schema : Schema} {node : QueryNode} {p q : Place} {s : Select}

/-- The columns that the rows of one place read of another. Places with the same
    alias are the same, so a level that reads fields reads those of its own. -/
theorem FilledBy.readBy (hp : p ∈ node.places schema .all 0) (hq : q ∈ node.places schema .all 0)
    (hpublic : p.level.ReadsPublic schema) (h : q.FilledBy schema s) :
    p.ReadBy schema q s := by
  have hsame : p.rowsAlias = q.rowsAlias → p = q := fun halias =>
    QueryNode.eq_of_number_eq schema node .all 0 p q hp hq
      (p.number_eq_of_rowsAlias q.number halias)
  have hreads : ∀ (column : Column) (name : String),
      q.level.entity.Reads q.level.usedFields q.rowsAlias column →
        (p.rowsAlias, name) ∈ column.references → p.level.Finds name := by
    intro column name hcolumn hname
    rcases hcolumn.2 _ hname with ⟨halias, hshows⟩
    obtain rfl := hsame halias
    exact RequestLevel.finds_of_shows hpublic name hshows
  rcases h.predicate with ⟨link, filter, hconj, hcolumns, hlinked, hfiltered, hfilter⟩
  refine ⟨fun item hitem name => hreads item.column name (h.columns item hitem),
    ⟨link, filter, hconj, hlinked, hfiltered, ?_, ?_, ?_⟩,
    fun term hterm name => hreads term.column name (h.orderBy term hterm)⟩
  · rw [Predicate.references, hcolumns, List.flatMap_append]
    rfl
  · intro name hname
    rcases List.mem_flatMap.mp hname with ⟨column, hcolumn, hmem⟩
    exact hreads column name (hfilter column hcolumn) hmem
  · intro name hname
    rcases (QueryNode.entry_places schema).1 node .all 0 q hq with
      hentry | ⟨owner, howner, use, hentry, hselects⟩
    -- The outermost level has no link.
    · rw [hentry] at hlinked
      rw [show link = .always from hlinked] at hname
      exact absurd hname List.not_mem_nil
    · rw [hentry] at hlinked
      rcases hlinked with ⟨sides, hsides, hlink⟩
      rcases use.link?_references sides q.level.entity _ _ link hlink with
        ⟨_, innerName, outerName, hreferences, hkeys⟩
      have hmem := hreferences.mem_iff.mp hname
      simp only [List.mem_cons, Prod.mk.injEq, List.not_mem_nil, or_false] at hmem
      rcases hmem with ⟨halias, rfl⟩ | ⟨halias, rfl⟩
      -- The link of a place refers to its own rows by their identifier or their key.
      · obtain rfl := hsame halias
        rcases hkeys with ⟨hid, _⟩ | ⟨hforeign, hcolumn, _⟩
        · exact Or.inl (Or.inl (Or.inl hid))
        · exact Or.inr ⟨_, use, sides, hentry, hsides, Or.inl ⟨rfl, hforeign, hcolumn⟩⟩
      -- It refers to the place around it, which therefore is the one of the relation.
      · have hnumber := p.number_eq_of_rowsAlias owner.number halias
        obtain rfl := QueryNode.eq_of_number_eq schema node .all 0 p owner hp howner hnumber
        rcases hselects with ⟨hentity, fieldName, hfieldName, hfield⟩
        rcases hkeys with ⟨_, hown⟩ | ⟨_, _, hid⟩
        -- Where the relation names no column, the field that was selected does.
        · cases hcolumn : sides.own.columnName with
          | some column =>
              have hname := hown.2
              rw [hcolumn, Option.orElse_eq_orElse, Option.orElse_some] at hname
              exact Or.inr ⟨_, use, sides, hentry, hsides, Or.inr ⟨rfl, hown,
                hcolumn.trans hname⟩⟩
          | none =>
              have hname := hown.2
              rw [hcolumn, Option.orElse_eq_orElse, Option.orElse_none] at hname
              exact Or.inl (RequestLevel.finds_of_stored hpublic fieldName _ name
                (List.mem_append_left _ hfieldName) hfield hname)
        · rw [hid, hentity]
          exact Or.inl (Or.inl (Or.inl rfl))

end Place

/-! ### Queries -/

/-- What a compiled query reads of public views. The rows of every level come from
    the view that the level calls for, and all references to columns are in the
    selects of such rows. Of a level that reads the public view they refer to
    columns that it finds there, in the columns, the filter and the sort. Only a
    link can refer to another column, which is one that the relation names: the
    foreign key of the level's own rows, or the key or the keys of the rows inside
    of it. -/
theorem compileQuery_publicColumns (schema : Schema) (minDepth : Nat) (authenticated : Bool)
    (node : QueryNode) (c : CompiledQuery)
    (h : schema.compileQuery minDepth authenticated none node = .ok c) :
    let places := node.places schema .all 0
    places.map Place.level = node.levels schema ∧
      ∃ wrapped, c.statement.selects = c.statement :: laidOut 0 wrapped ∧
        (∀ s ∈ c.statement.selects, s.references ≠ [] → ∃ w ∈ wrapped, s = w.2) ∧
        List.Forall₂ (fun q w => w.2.source = some (.view (q.level.view schema) q.rowsAlias) ∧
          ∀ p ∈ places, p.level.ReadsPublic schema → p.ReadBy schema q w.2) places wrapped := by
  intro places
  rcases compileQuery_places schema minDepth authenticated none node c h with
    ⟨wrapped, hselects, hfilled⟩
  have hstatement := (compileQuery_statement schema minDepth authenticated none node c h).2.1
  refine ⟨(QueryNode.map_level_places schema).1 node .all 0, wrapped, hselects,
    eq_rows_of_references c.statement wrapped hstatement hselects, ?_⟩
  rcases List.forall₂_iff_get.mp hfilled with ⟨hlength, hget⟩
  refine List.forall₂_iff_get.mpr ⟨hlength, fun i hplace hrows => ?_⟩
  have hfills := hget i hplace hrows
  exact ⟨hfills.source, fun p hp hpublic =>
    Place.FilledBy.readBy hp (List.get_mem places ⟨i, hplace⟩) hpublic hfills⟩

/-- The posts and the authors of the blog's request are read from public views, the
    users around them are not. -/
theorem compileQuery_publicColumns_blog :
    ∃ c wrapped, Blog.schema.compileQuery 3 true none Blog.request = .ok c ∧
      c.statement.selects = c.statement :: laidOut 0 wrapped ∧
      ((Blog.request.places Blog.schema .all 0).map fun p =>
        decide (p.level.ReadsPublic Blog.schema)) = [false, true, true] ∧
      List.Forall₂ (fun q w =>
        w.2.source = some (.view (q.level.view Blog.schema) q.rowsAlias) ∧
          ∀ p ∈ Blog.request.places Blog.schema .all 0, p.level.ReadsPublic Blog.schema →
            p.ReadBy Blog.schema q w.2) (Blog.request.places Blog.schema .all 0) wrapped := by
  have hcompiles : ∃ c, Blog.schema.compileQuery 3 true none Blog.request = .ok c := ⟨_, rfl⟩
  rcases hcompiles with ⟨c, hc⟩
  rcases compileQuery_publicColumns Blog.schema 3 true Blog.request c hc with
    ⟨_, wrapped, hselects, _, hread⟩
  exact ⟨c, wrapped, hc, hselects, rfl, hread⟩

namespace Blog

/-- Posts of which not everyone may see the author's key, but everyone may see what
    is public about the author. -/
def discreetPost : Entity :=
  { post with
    fields := post.fields ++ [("writer", ⟨none, some ⟨"authorship", false, ⟨"app", "post"⟩⟩⟩)]
    publicFieldNames := ["id", "title", "writer"] }

/-- The blog with such posts. -/
def discreet : Schema :=
  { schema with entities := [("User", user), ("Post", discreetPost)] }

/-- The posts of users, and who wrote them. -/
def writers : QueryNode where
  name := "users"
  aliasName := none
  fieldsByTypeName := [("User", [
    ("posts", ⟨"posts", none, [("Post", [
      ("writer", ⟨"writer", none, [("User", [leaf "name"])], []⟩)])], []⟩)])]
  args := []

end Blog

/-- A public view can be read by a column that it does not have. The posts are read
    from their public view, which has no column for the author, but that column
    links them to the users around them and to the writers inside of them. -/
theorem compileQuery_publicColumns_hidden :
    ∃ c, Blog.discreet.compileQuery 4 false none Blog.writers = .ok c ∧
      ∃ p ∈ Blog.writers.places Blog.discreet .all 0,
        p.level.ReadsPublic Blog.discreet ∧
        p.level.entity.authViewName ≠ p.level.entity.publicViewName ∧
        ¬ p.level.entity.Exposes "author_id" ∧
        (∃ s ∈ c.statement.selects, s.fromAlias? = some p.rowsAlias ∧
          s.view? = some (p.level.publicView Blog.discreet) ∧
          (p.rowsAlias, "author_id") ∈ s.predicate.references) ∧
        ∃ q ∈ Blog.writers.places Blog.discreet .all 0,
          (∃ use, q.entry = .related p.number use) ∧
          ∃ s ∈ c.statement.selects, s.fromAlias? = some q.rowsAlias ∧
            (p.rowsAlias, "author_id") ∈ s.predicate.references := by
  -- The selects of the statement: their aliases, their views and their links.
  have hcompiles : ((Blog.discreet.compileQuery 4 false none Blog.writers).toOption.map fun c =>
      c.statement.selects.map fun s => (s.fromAlias?, s.view?, s.predicate.references)) = some
        [(none, none, []),
          (some "_local_0_", none, []),
          (some "_local_1_", some ⟨"views", "user_public"⟩, []),
          (some "_local_2_", none, []),
          (some "_local_3_", some ⟨"archive", "post_public"⟩,
            [("_local_3_", "author_id"), ("_local_1_", "id")]),
          (some "_local_4_", none, []),
          (some "_local_5_", some ⟨"views", "user_public"⟩,
            [("_local_5_", "id"), ("_local_3_", "author_id")])] := by
    decide +kernel
  rcases Option.map_eq_some_iff.mp hcompiles with ⟨c, htoOption, hselects⟩
  have hc : Blog.discreet.compileQuery 4 false none Blog.writers = .ok c := by
    cases hresult : Blog.discreet.compileQuery 4 false none Blog.writers with
    | error failure =>
        rw [hresult] at htoOption
        exact absurd htoOption (Option.some_ne_none c).symm
    | ok result =>
        rw [hresult] at htoOption
        exact congrArg Except.ok (Option.some.inj htoOption)
  have hselect : ∀ aliasName view references, (aliasName, view, references) ∈
      (c.statement.selects.map fun s => (s.fromAlias?, s.view?, s.predicate.references)) →
      ∃ s ∈ c.statement.selects, s.fromAlias? = aliasName ∧ s.view? = view ∧
        s.predicate.references = references := by
    intro aliasName view references hmem
    rcases List.mem_map.mp hmem with ⟨s, hs, heq⟩
    simp only [Prod.mk.injEq] at heq
    exact ⟨s, hs, heq⟩
  rw [hselects] at hselect
  rcases hselect (some "_local_3_") (some ⟨"archive", "post_public"⟩)
    [("_local_3_", "author_id"), ("_local_1_", "id")] (by decide) with
    ⟨posts, hposts, hpostsAlias, hpostsView, hpostsLink⟩
  rcases hselect (some "_local_5_") (some ⟨"views", "user_public"⟩)
    [("_local_5_", "id"), ("_local_3_", "author_id")] (by decide) with
    ⟨writers, hwriters, hwritersAlias, _, hwritersLink⟩
  refine ⟨c, hc, _, List.mem_cons_of_mem _ List.mem_cons_self, by decide, by decide, by decide,
    ⟨posts, hposts, hpostsAlias, hpostsView, ?_⟩,
    _, List.mem_cons_of_mem _ (List.mem_cons_of_mem _ List.mem_cons_self), ⟨_, rfl⟩,
    ⟨writers, hwriters, hwritersAlias, ?_⟩⟩
  · rw [hpostsLink]
    exact List.mem_cons_self
  · rw [hwritersLink]
    exact List.mem_cons_of_mem _ List.mem_cons_self

end ViewCompiler
