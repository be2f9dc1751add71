import ViewCompiler.Proofs.Restoring

/-!
# Schemas Survive Being Written

A schema that was loaded from a text, written and loaded again is the same
schema.

Loading is not injective. A record can be an object or an array, members come in
any order, a repeated name takes its last value, defaults can be left out,
unknown members are dropped, every unknown kind of mutation becomes one, and a
relation without a name takes that of its entry. Writing picks one text out of
all these, and the question is whether it picks one that means the same.

It does not for every schema that the type admits. Loading never makes a schema
in which two entities have one name, or a name is public twice, or a relation
has no name although its entry has one; such a schema would come back changed.
`Regular` is what loading makes, and it is all that is needed: the two halves of
the argument, `restores` and `regular_of_ofText?`, meet there.

Nothing has to be known about the nesting of a text that was loaded. A schema
nests seven arrays and objects however large it is, and that is well within what
a text may have.

## Main definitions

* `Entity.Regular`, `Schema.Regular`: The schemas that loading makes.

## Theorems

* `Schema.restores`: A regular schema is restored from what it is written as.
* `Schema.regular_of_ofText?`: A schema that is loaded is regular.
* `Schema.ofText?_toJson`: A schema that is loaded survives being written.
-/

namespace ViewCompiler

open Json

/-! ### What is read -/

namespace Json

variable {α : Type} {decoder : Decoder α}

theorem Decoder.nodup_keys_entries (budget : Nat) (d : Document) (entries : Entries α)
    (h : decoder.entries budget d = some entries) : (Entries.keys entries).Nodup := by
  cases budget with
  | zero => simp only [Decoder.entries, reduceCtorEq] at h
  | succ budget =>
      cases d with
      | object members =>
          simp only [Decoder.entries, Document.entries?, Option.map_eq_some_iff] at h
          rcases h with ⟨ms, _, rfl⟩
          exact Entries.nodup_keys_ofList ms
      | _ => simp only [Decoder.entries, Document.entries?, reduceCtorEq] at h

theorem Decoder.exists_of_mem_entries (budget : Nat) (d : Document) (entries : Entries α)
    (h : decoder.entries budget d = some entries) (entry : String × α) (hentry : entry ∈ entries) :
    ∃ budget d, decoder budget d = some entry.2 := by
  cases budget with
  | zero => simp only [Decoder.entries, reduceCtorEq] at h
  | succ budget => exact ⟨budget, Document.exists_of_mem_entries? _ d entries h entry hentry⟩

/-- A field that must be there was read. -/
theorem required_eq_some (fields : Entries Document) (name : String)
    (read : Document → Option α) (a : α) (h : required fields name read = some a) :
    ∃ d, read d = some a := by
  unfold required at h
  split at h
  · simp only [reduceCtorEq] at h
  · exact ⟨_, h⟩

theorem nodup_keys_defaulted (fields : Entries Document) (name : String) (budget : Nat)
    (entries : Entries α)
    (h : defaulted fields name (decoder.entries budget) [] = some entries) :
    (Entries.keys entries).Nodup := by
  rcases defaulted_eq_some fields name _ [] entries h with rfl | ⟨d, hd⟩
  · exact List.Pairwise.nil
  · exact Decoder.nodup_keys_entries budget d entries hd

end Json

namespace Schema

/-! ### Names -/

/-- Names are kept once each in the way in which entries are. -/
theorem distinctNames_eq_keys (names : List String) :
    distinctNames names = Entries.keys (Entries.ofList (names.map fun name => (name, ()))) := by
  suffices hfold : ∀ entries : Entries Unit,
      names.foldl (fun seen name => if name ∈ seen then seen else seen ++ [name])
        (Entries.keys entries) = Entries.keys ((names.map fun name => (name, ())).foldl
          (fun entries w => Entries.put w.1 w.2 entries) entries) from hfold []
  induction names with
  | nil => exact fun entries => rfl
  | cons name rest ih =>
      intro entries
      rw [List.foldl_cons, List.map_cons, List.foldl_cons, ← ih, Entries.keys_put]

theorem nodup_distinctNames (names : List String) : (distinctNames names).Nodup := by
  rw [distinctNames_eq_keys]
  exact Entries.nodup_keys_ofList _

theorem distinctNames_of_nodup (names : List String) (h : names.Nodup) :
    distinctNames names = names := by
  have hkeys : Entries.keys (names.map fun name => (name, ())) = names := by
    rw [Entries.keys, List.map_map]
    exact List.map_id names
  rw [distinctNames_eq_keys, Entries.ofList_of_nodup _ (by rwa [hkeys]), hkeys]

theorem keys_nameRelations (relations : Entries Relation) :
    Entries.keys (nameRelations relations) = Entries.keys relations := by
  rw [Entries.keys, nameRelations, List.map_map]
  rfl

theorem name_nameRelations (relations : Entries Relation) :
    ∀ entry ∈ nameRelations relations, entry.2.name = "" → entry.1 = "" := by
  intro entry hentry hname
  rcases List.mem_map.mp hentry with ⟨⟨key, r⟩, _, rfl⟩
  by_cases hr : r.name = ""
  · simpa only [if_pos hr] using hname
  · exact absurd hname (by simpa only [if_neg hr] using hr)

theorem nameRelations_of_named (relations : Entries Relation)
    (h : ∀ entry ∈ relations, entry.2.name = "" → entry.1 = "") :
    nameRelations relations = relations := by
  refine (List.map_congr_left fun entry hentry => ?_).trans (List.map_id relations)
  rcases entry with ⟨key, r⟩
  by_cases hname : r.name = ""
  · have hkey : key = r.name := (h (key, r) hentry hname).trans hname.symm
    simp only [if_pos hname, id, hkey]
  · simp only [if_neg hname, id]

/-! ### Records

A record is written as an object of its fields, all of which are there, so none of
the defaults of its decoder is used. What is left of each law is that the fields
are restored, and the depth that the deepest of them needs. -/

theorem Cardinality.named?_name (c : Cardinality) : Cardinality.named? c.name = some c := by
  cases c <;> rfl

/-- The kind for everything that is not known has a name that is not known
    either. -/
theorem MutationKind.named_name (k : MutationKind) : MutationKind.named k.name = k := by
  cases k <;> rfl

theorem TableName.restores (t : TableName) : TableName.decoder.Restores 1 t.toJson t := by
  refine .record (fun _ _ => rfl) (by simp [Entries.keys]) (by simp) fun budget _ => ?_
  simp [Value.memberDocuments]

theorem ColumnReference.restores (r : ColumnReference) :
    ColumnReference.decoder.Restores 1 r.toJson r := by
  refine .record (fun _ _ => rfl) (by simp [Entries.keys]) (by simp) fun budget _ => ?_
  simp [Value.memberDocuments]

theorem Side.restores (s : Side) : Side.decoder.Restores 2 s.toJson s := by
  have hcardinality : (Decoder.choice Cardinality.named?).Restores 1 (.string s.cardinality.name)
      s.cardinality := Decoder.restores_choice _ _ _ s.cardinality.named?_name
  have hcolumn : Decoder.text.optional.Restores 1 (.optionalString s.columnName) s.columnName :=
    Decoder.restores_optionalString s.columnName
  have hreference := Decoder.Restores.optional ColumnReference.toJson (fun _ => rfl) s.reference
    ColumnReference.restores
  refine .record (fun _ _ => rfl) (by simp [Entries.keys])
    (by simp [hcolumn.whole, hreference.whole]) fun budget hbudget => ?_
  simp [Value.memberDocuments, hcardinality.reads budget hbudget, hcolumn.reads budget hbudget,
    hreference.reads budget hbudget]

theorem Relation.restores (r : Relation) : Relation.decoder.Restores 4 r.toJson r := by
  have hsides := Decoder.Restores.list Side.toJson [r.first, r.second] fun s _ => Side.restores s
  refine .record (fun _ _ => rfl) (by simp [Entries.keys])
    (by simpa [Value.Whole] using hsides.whole) fun budget hbudget => ?_
  have hread := hsides.reads budget hbudget
  simp only [List.map_cons, List.map_nil] at hread
  simp [Value.memberDocuments, sidesDecoder, hread]

theorem FieldLink.restores (l : FieldLink) : FieldLink.decoder.Restores 2 l.toJson l := by
  have htable := TableName.restores l.ownerTable
  refine .record (fun _ _ => rfl) (by simp [Entries.keys]) (by simp [htable.whole])
    fun budget hbudget => ?_
  simp [Value.memberDocuments, htable.reads budget hbudget]

theorem Field.restores (f : Field) : Field.decoder.Restores 3 f.toJson f := by
  have hcolumn : Decoder.text.optional.Restores 2 (.optionalString f.nativeColumnName)
      f.nativeColumnName := Decoder.restores_optionalString f.nativeColumnName
  have hlink := Decoder.Restores.optional FieldLink.toJson (fun _ => rfl) f.relation
    FieldLink.restores
  refine .record (fun _ _ => rfl) (by simp [Entries.keys]) (by simp [hcolumn.whole, hlink.whole])
    fun budget hbudget => ?_
  simp [Value.memberDocuments, hcolumn.reads budget hbudget, hlink.reads budget hbudget]

theorem Mutation.restores (m : Mutation) : Mutation.decoder.Restores 1 m.toJson m := by
  have hkind : (Decoder.choice fun name => some (MutationKind.named name)).Restores 0
      (.string m.kind.name) m.kind := Decoder.restores_choice _ _ _ (by rw [m.kind.named_name])
  have hschema : Decoder.text.optional.Restores 0 (.optionalString m.viewSchemaName)
      m.viewSchemaName := Decoder.restores_optionalString m.viewSchemaName
  refine .record (fun _ _ => rfl) (by simp [Entries.keys]) (by simp [hschema.whole])
    fun budget hbudget => ?_
  simp [Value.memberDocuments, hkind.reads budget hbudget, hschema.reads budget hbudget]

/-- An entity as it is loaded: no two fields have one name, and no name is
    public twice. -/
structure Entity.Regular (e : Entity) : Prop where
  fields : (Entries.keys e.fields).Nodup
  publicFieldNames : e.publicFieldNames.Nodup

theorem Entity.restores (e : Entity) (h : e.Regular) : Entity.decoder.Restores 5 e.toJson e := by
  have hschema : Decoder.text.optional.Restores 4 (.optionalString e.viewSchemaName)
      e.viewSchemaName := Decoder.restores_optionalString e.viewSchemaName
  have hfields : Field.decoder.entries.Restores 4 (entriesToJson Field.toJson e.fields) e.fields :=
    Decoder.Restores.entries Field.toJson e.fields h.fields fun entry _ => Field.restores entry.2
  have hnames : Decoder.text.list.Restores 4 (.array (e.publicFieldNames.map .string))
      e.publicFieldNames :=
    Decoder.Restores.list Value.string e.publicFieldNames fun name _ => Decoder.restores_text name
  refine .record (fun _ _ => rfl) (by simp [Entries.keys])
    (by simp [hschema.whole, hfields.whole, hnames.whole]) fun budget hbudget => ?_
  simp [Value.memberDocuments, hschema.reads budget hbudget, hfields.reads budget hbudget,
    hnames.reads budget hbudget, distinctNames_of_nodup _ h.publicFieldNames]

theorem Entity.regular_of_decoder (budget : Nat) (d : Document) (e : Entity)
    (h : Entity.decoder budget d = some e) : e.Regular := by
  cases budget with
  | zero => simp only [Entity.decoder, reduceCtorEq] at h
  | succ budget =>
      simp only [Entity.decoder, Option.bind_eq_bind, Option.bind_eq_some_iff, Option.pure_def,
        Option.some.injEq] at h
      rcases h with ⟨fields, _, _, _, _, _, _, _, _, _, _, _, _, _, entityFields, hfields, _, _, _,
        _, rfl⟩
      rcases required_eq_some _ _ _ _ hfields with ⟨d', hd'⟩
      exact ⟨Decoder.nodup_keys_entries budget d' _ hd', nodup_distinctNames _⟩

/-! ### Schemas -/

/-- A schema as it is loaded: names are not repeated, and a relation is without
    a name only if its entry is. -/
structure Regular (s : Schema) : Prop where
  entities : (Entries.keys s.entities).Nodup
  entity : ∀ entry ∈ s.entities, entry.2.Regular
  relations : (Entries.keys s.relations).Nodup
  named : ∀ entry ∈ s.relations, entry.2.name = "" → entry.1 = ""
  mutations : (Entries.keys s.mutations).Nodup

theorem restores (s : Schema) (h : s.Regular) : decoder.Restores 7 s.toJson s := by
  have hentities : Entity.decoder.entries.Restores 6 (entriesToJson Entity.toJson s.entities)
      s.entities :=
    Decoder.Restores.entries Entity.toJson s.entities h.entities fun entry hentry =>
      Entity.restores entry.2 (h.entity entry hentry)
  have hrelations : Relation.decoder.entries.Restores 5 (entriesToJson Relation.toJson s.relations)
      s.relations :=
    Decoder.Restores.entries Relation.toJson s.relations h.relations fun entry _ =>
      Relation.restores entry.2
  have hmutations : Mutation.decoder.entries.Restores 2 (entriesToJson Mutation.toJson s.mutations)
      s.mutations :=
    Decoder.Restores.entries Mutation.toJson s.mutations h.mutations fun entry _ =>
      Mutation.restores entry.2
  refine .record (fun _ _ => rfl) (by simp [Entries.keys])
    (by simp [hentities.whole, hrelations.whole, hmutations.whole]) fun budget hbudget => ?_
  simp [Value.memberDocuments, hentities.reads budget hbudget,
    hrelations.reads budget (by omega), hmutations.reads budget (by omega),
    nameRelations_of_named s.relations h.named]

theorem regular_of_ofText? (text : List Text.Symbol) (s : Schema) (h : ofText? text = some s) :
    s.Regular := by
  simp only [ofText?, decode?, Option.bind_eq_bind, Option.bind_eq_some_iff] at h
  rcases h with ⟨document, _, hs⟩
  simp only [nestingLimit, decoder, Option.bind_eq_bind, Option.bind_eq_some_iff, Option.pure_def,
    Option.some.injEq] at hs
  rcases hs with ⟨fields, _, viewSchemaName, _, entities, hentities, relations, hrelations,
    mutations, hmutations, rfl⟩
  refine ⟨nodup_keys_defaulted fields _ _ entities hentities, fun entry hentry => ?_, ?_,
    name_nameRelations relations, nodup_keys_defaulted fields _ _ mutations hmutations⟩
  · rcases defaulted_eq_some fields _ _ [] entities hentities with rfl | ⟨d, hd⟩
    · exact absurd hentry List.not_mem_nil
    · rcases Decoder.exists_of_mem_entries _ d entities hd entry hentry with ⟨budget, d', hd'⟩
      exact Entity.regular_of_decoder budget d' entry.2 hd'
  · rw [keys_nameRelations]
    exact nodup_keys_defaulted fields _ _ relations hrelations

/-- A schema that was loaded from any text is loaded again from the text that it
    is written as, and all its relations have the names that they were given or
    those of their entries. -/
theorem ofText?_toJson (text : List Text.Symbol) (s : Schema) (h : ofText? text = some s) :
    ofText? (Text.symbols s.toJson.compact) = some s ∧
      ∀ entry ∈ s.relations, entry.2.name = "" → entry.1 = "" := by
  have hregular := regular_of_ofText? text s h
  exact ⟨(restores s hregular).decode?_compact (by decide), hregular.named⟩

/-- A text that is as loose as it may be: an entity as an array in which a name
    is public twice, a relation without a name and with a member that nobody
    knows, and two mutations of one name and of unknown kinds. -/
def looseText : List Text.Symbol :=
  Text.symbols "\x7b\"mutations\":\x7b\"m\":[\"MERGE\",\"E\",null,\"v\"]," ++
  Text.symbols "\"m\":[\"GROW\",\"E\",null,\"w\"]\x7d," ++
  Text.symbols "\"relations\":\x7b\"r\":\x7b\"x\":1," ++
  Text.symbols "\"sides\":[[\"s\",\"t\",\"ONE\"],[\"s\",\"u\",\"MANY\"]]\x7d\x7d," ++
  Text.symbols "\"entities\":\x7b\"E\":[\"s\",\"t\",null,\"p\",\"q\"," ++
  Text.symbols "\"\\u00fc\",\x7b\"f\":[]\x7d,[\"f\",\"f\"]]\x7d\x7d"

/-- The schema that it describes. -/
def looseSchema : Schema :=
  ⟨"_graphql", [("E", ⟨"s", "t", none, "p", "q", "ü", [("f", ⟨none, none⟩)], ["f"], false⟩)],
    [("r", ⟨"r", ⟨"s", "t", .one, none, none, "uuid"⟩, ⟨"s", "u", .many, none, none, "uuid"⟩⟩)],
    [("m", ⟨.unsupported, "E", none, "w"⟩)]⟩

theorem ofText?_toJson_looseSchema :
    ofText? looseText = some looseSchema ∧
      ofText? (Text.symbols looseSchema.toJson.compact) = some looseSchema := by
  have hload : ofText? looseText = some looseSchema := by decide +kernel
  exact ⟨hload, (ofText?_toJson looseText looseSchema hload).1⟩

end Schema

end ViewCompiler
