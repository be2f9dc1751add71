import ViewCompiler.Proofs.Failures
import ViewCompiler.Proofs.Levels

/-!
# Compiling With and Without Authentication

How the outcome for a guest, who is not authenticated, and the outcome for a
member, who is, hang together.

Every part of a compilation has a flag in its result that says whether a
restricted field was needed. A member gets the result, whatever the flag says.
A guest gets the same result where the flag is not set, and is denied where it
is. Where the member fails, the guest fails likewise, unless the guest was
denied before it came to that. `Gated` puts this down for one pair of
outcomes, and the lemmas after it take it through the ways in which parts are
put together.

A part that starts where the flag is set already makes no promise about the
guest, who has been denied by then. This is what the parameter `held` is for.

## Main definitions

* `Failure.Denies`: A denial names a restricted field.
* `Harmless`: An outcome that is never a denial.
* `Gated`: The outcome for a guest beside the outcome for a member.
* `Level.as`: A level for a caller of either kind.

## Theorems

* `Gated.bind`, `Gated.mapM`, `Gated.foldlM`: Parts that are put together.
* `resolve_gated`: The levels of a request.
* `compileQuery_authentication`: Authentication only ever removes denials.
-/

namespace ViewCompiler

open Json Sql Schema

/-! ### Outcomes for two callers -/

/-- A failure denies a field if its cause is that the field is stored in a
    column and is not among the public ones of its type. -/
def Failure.Denies (schema : Schema) (e : Failure) : Prop :=
  ∃ typeName fieldName entity field, e.root = .authorization typeName fieldName ∧
    schema.entity? typeName = some entity ∧ entity.field? fieldName = some field ∧
    field.nativeColumnName.isSome = true ∧ fieldName ∉ entity.publicFieldNames

/-- An outcome is harmless if it is no denial. -/
def Harmless {α : Type} (x : Except Failure α) : Prop :=
  ∀ e, x = .error e → e.root.kind ≠ .authorization

theorem harmless_of_avoids {α : Type} {x : Except Failure α} (h : Avoids .authorization x) :
    Harmless x := h

/-- The outcome for a guest beside the outcome for a member, of a part that
    starts with the flag `held` and ends with the flag of its result. -/
structure Gated (schema : Schema) {α : Type} (held : Bool) (flag : α → Bool)
    (guest member : Except Failure α) : Prop where
  /-- A flag that is set stays set. -/
  kept : held = true → ∀ a, member = .ok a → flag a = true
  /-- A guest gets the same result if the flag stays unset. -/
  shared : held = false → ∀ a, member = .ok a → flag a = false → guest = .ok a
  /-- A guest is denied if the flag gets set. -/
  denied : held = false → ∀ a, member = .ok a → flag a = true →
    ∃ e, guest = .error e ∧ e.Denies schema
  /-- A member is never denied. -/
  harmless : Harmless member
  /-- A guest fails where a member does. -/
  failed : held = false → ∀ e, member = .error e →
    guest = .error e ∨ ∃ e', guest = .error e' ∧ e'.Denies schema

namespace Gated

variable {schema : Schema} {α β : Type} {held : Bool} {flag : α → Bool} {flag' : β → Bool}
  {guest member : Except Failure α}

theorem ok (a : α) (hflag : flag a = held) : Gated schema held flag (.ok a) (.ok a) where
  kept hheld b hb := by rw [← Except.ok.inj hb, hflag, hheld]
  shared _ _ hb _ := hb
  denied hheld b hb hset := by
    rw [← Except.ok.inj hb, hflag, hheld] at hset
    exact absurd hset Bool.false_ne_true
  harmless e he := by simp only [reduceCtorEq] at he
  failed _ e he := by simp only [reduceCtorEq] at he

theorem error (e : Failure) (h : e.root.kind ≠ .authorization) :
    Gated schema held flag (.error e) (.error e) where
  kept _ a ha := by simp only [reduceCtorEq] at ha
  shared _ a ha := by simp only [reduceCtorEq] at ha
  denied _ a ha := by simp only [reduceCtorEq] at ha
  harmless e' he' := by
    rw [← Except.error.inj he']
    exact h
  failed _ _ he' := Or.inl he'

/-- The gate itself. -/
theorem deny (a : α) (e : Failure) (hset : flag a = true) (hdenies : e.Denies schema) :
    Gated schema false flag (.error e) (.ok a) where
  kept hheld _ _ := absurd hheld Bool.false_ne_true
  shared _ b hb hunset := by
    rw [← Except.ok.inj hb, hset] at hunset
    exact absurd hunset.symm Bool.false_ne_true
  denied _ _ _ _ := ⟨e, rfl, hdenies⟩
  harmless e he := by simp only [reduceCtorEq] at he
  failed _ e he := by simp only [reduceCtorEq] at he

/-- A part that does not ask who is calling. -/
theorem of_harmless (x : Except Failure α) (h : Harmless x) :
    Gated schema held (fun _ => held) x x := by
  cases x with
  | ok a => exact Gated.ok a rfl
  | error e => exact Gated.error e (h e rfl)

/-- A part may start with the flag set, and then it leaves it set. -/
theorem under (h : Gated schema false flag guest member) :
    Gated schema held (fun a => held || flag a) guest member where
  kept hheld _ _ := by rw [hheld, Bool.true_or]
  shared hheld a ha hflag := by
    rw [hheld, Bool.false_or] at hflag
    exact h.shared rfl a ha hflag
  denied hheld a ha hflag := by
    rw [hheld, Bool.false_or] at hflag
    exact h.denied rfl a ha hflag
  harmless := h.harmless
  failed _ := h.failed rfl

/-- One part after the other. The second one starts with the flag that the
    first one ends with. -/
theorem bind {next next' : α → Except Failure β} (h : Gated schema held flag guest member)
    (hnext : ∀ a, Gated schema (flag a) flag' (next a) (next' a)) :
    Gated schema held flag' (guest >>= next) (member >>= next') := by
  cases member with
  -- The second part is not reached by the member, nor then by the guest.
  | error e =>
      change Gated schema held flag' (guest >>= next) (.error e)
      refine ⟨fun _ b hb => ?_, fun _ b hb => ?_, fun _ b hb => ?_, fun e' he' => ?_,
        fun hheld e' he' => ?_⟩
      · simp only [reduceCtorEq] at hb
      · simp only [reduceCtorEq] at hb
      · simp only [reduceCtorEq] at hb
      · rw [← Except.error.inj he']
        exact h.harmless e rfl
      · rw [← Except.error.inj he']
        rcases h.failed hheld e rfl with rfl | ⟨e'', rfl, hdenies⟩
        · exact Or.inl rfl
        · exact Or.inr ⟨e'', rfl, hdenies⟩
  | ok a =>
      change Gated schema held flag' (guest >>= next) (next' a)
      have hafter := hnext a
      cases hflag : flag a with
      | true =>
          -- Either the flag was set before, or the guest has just been denied.
          have hset : ∀ b, next' a = .ok b → flag' b = true := hafter.kept hflag
          have hguest : held = false → ∃ e, guest >>= next = .error e ∧ e.Denies schema := by
            intro hheld
            rcases h.denied hheld a rfl hflag with ⟨e, rfl, hdenies⟩
            exact ⟨e, rfl, hdenies⟩
          refine ⟨fun _ => hset, fun _ b hb hunset => ?_, fun hheld _ _ _ => hguest hheld,
            hafter.harmless, fun hheld _ _ => Or.inr (hguest hheld)⟩
          rw [hset b hb] at hunset
          exact absurd hunset.symm Bool.false_ne_true
      | false =>
          -- The flag is still unset, so both callers go on with the same result.
          have hunheld : held = false := by
            cases hheld : held with
            | false => rfl
            | true => exact absurd (hflag.symm.trans (h.kept hheld a rfl)) Bool.false_ne_true
          rw [h.shared hunheld a rfl hflag, hunheld]
          rw [hflag] at hafter
          exact hafter

/-- A result made of another one, with the same flag. -/
theorem map (f : α → β) (h : Gated schema held flag guest member)
    (hflag : ∀ a, flag' (f a) = flag a) :
    Gated schema held flag' (guest.map f) (member.map f) := by
  have hbind := h.bind fun a => Gated.ok (f a) (hflag a)
  cases guest <;> cases member <;> exact hbind

/-- A context does not change the cause of a failure. -/
theorem inContext (context : String) (h : Gated schema held flag guest member) :
    Gated schema held flag (guest.mapError (.inContext context))
      (member.mapError (.inContext context)) := by
  have hdenied : (∃ e, guest = .error e ∧ e.Denies schema) →
      ∃ e, guest.mapError (Failure.inContext context) = .error e ∧ e.Denies schema := by
    rintro ⟨e, rfl, hdenies⟩
    exact ⟨.inContext context e, rfl, hdenies⟩
  cases member with
  | ok a =>
      change Gated schema held flag (guest.mapError (.inContext context)) (.ok a)
      refine ⟨h.kept, fun hheld b hb hunset => ?_, fun hheld b hb hset => ?_, fun e he => ?_,
        fun _ e he => ?_⟩
      · rw [h.shared hheld b hb hunset]
        rfl
      · exact hdenied (h.denied hheld b hb hset)
      · simp only [reduceCtorEq] at he
      · simp only [reduceCtorEq] at he
  | error e =>
      change Gated schema held flag (guest.mapError (.inContext context))
        (.error (.inContext context e))
      refine ⟨fun _ b hb => ?_, fun _ b hb => ?_, fun _ b hb => ?_, fun e' he' => ?_,
        fun hheld e' he' => ?_⟩
      · simp only [reduceCtorEq] at hb
      · simp only [reduceCtorEq] at hb
      · simp only [reduceCtorEq] at hb
      · rw [← Except.error.inj he']
        exact h.harmless e rfl
      · rw [← Except.error.inj he']
        rcases h.failed hheld e rfl with rfl | hguest
        · exact Or.inl rfl
        · exact Or.inr (hdenied hguest)

/-- A part for every item of a list. -/
theorem mapM {ι : Type} (f f' : ι → Except Failure α)
    (hstep : ∀ i, Gated schema false flag (f i) (f' i)) (is : List ι) :
    Gated schema false (fun as : List α => as.any flag) (is.mapM f) (is.mapM f') := by
  induction is with
  | nil => exact Gated.ok [] rfl
  | cons i rest ih =>
      rw [List.mapM_cons, List.mapM_cons]
      -- The rest of the list starts with the flag of the first item.
      refine (hstep i).bind fun a => ih.under.bind fun as => ?_
      exact Gated.ok (a :: as) rfl

/-- A part for every item of a list, each of which starts from the result of
    the one before. -/
theorem foldlM {ι : Type} (f f' : α → ι → Except Failure α)
    (hstep : ∀ a i, Gated schema (flag a) flag (f a i) (f' a i)) (is : List ι) (a : α) :
    Gated schema (flag a) flag (is.foldlM f a) (is.foldlM f' a) := by
  induction is generalizing a with
  | nil => exact Gated.ok a rfl
  | cons i rest ih =>
      rw [List.foldlM_cons, List.foldlM_cons]
      exact (hstep a i).bind ih

end Gated

/-! ### What never denies -/

theorem Operator.predicate_harmless (op : Operator) (fieldName : String) (operand : Value)
    (column : Column) : Harmless (op.predicate fieldName operand column) :=
  harmless_of_avoids (op.predicate_avoids (by decide) fieldName operand column)

theorem sortTexts_harmless (v : Value) : Harmless (sortTexts v) :=
  harmless_of_avoids (sortTexts_avoids (by decide) v)

theorem count_harmless (argument : String) (v : Value) : Harmless (count argument v) :=
  harmless_of_avoids (count_avoids (by decide) argument v)

theorem matchPredicate_harmless (constraint : Option Constraint) (typeName : String)
    (entity : Entity) (aliasName : String) :
    Harmless (matchPredicate constraint typeName entity aliasName) :=
  harmless_of_avoids (matchPredicate_avoids (by decide) constraint typeName entity aliasName)

theorem Schema.levelEntity_harmless (schema : Schema) (position : Position) (fetch : Fetch)
    (constraint : Option Constraint) (typeName : String) (fields : List (String × QueryNode)) :
    Harmless (schema.levelEntity position fetch constraint typeName fields) :=
  harmless_of_avoids (schema.levelEntity_avoids (by decide) position fetch constraint
    (fun hpolicy => absurd hpolicy (by decide)) typeName fields)

theorem Schema.link_harmless (schema : Schema) (level : Level) (fieldName : String)
    (field : Field) (use : FieldLink) : Harmless (schema.link level fieldName field use) :=
  harmless_of_avoids (schema.link_avoids (by decide) level fieldName field use)

/-! ### Levels for two callers -/

namespace Level

/-- A level for a caller who is authenticated or not. -/
def as (level : Level) (authenticated : Bool) : Level :=
  { level with authenticated := authenticated }

variable (schema : Schema) (level : Level)
  (hentity : schema.entity? level.typeName = some level.entity)

include hentity

/-- The only gate there is. -/
theorem field_gated (name : String) :
    Gated schema false Guarded.restricted ((level.as false).field name)
      ((level.as true).field name) := by
  cases hfield : level.entity.field? name with
  | none =>
      simp only [Level.field, Level.as, hfield]
      exact Gated.error _ nofun
  | some field =>
      cases hrestricted : level.entity.requiresAuthorization name field with
      | true =>
          simp only [Level.field, Level.as, hfield, hrestricted]
          refine Gated.deny _ _ rfl ?_
          -- What makes the field restricted is just what a denial has to name.
          simp only [Entity.requiresAuthorization, Bool.and_eq_true, Bool.not_eq_true',
            Entity.isPublic, List.contains_eq_mem, decide_eq_false_iff_not] at hrestricted
          exact ⟨level.typeName, name, level.entity, field, rfl, hentity, hfield, hrestricted.1,
            hrestricted.2⟩
      | false =>
          simp only [Level.field, Level.as, hfield, hrestricted]
          exact Gated.ok _ rfl

theorem column_gated (name : String) :
    Gated schema false Guarded.restricted ((level.as false).column name)
      ((level.as true).column name) := by
  refine (level.field_gated schema hentity name).bind fun field => ?_
  split
  · exact Gated.ok _ rfl
  · exact Gated.error _ nofun

theorem operation_gated (fieldName : String) (operation : String × Value) :
    Gated schema false Guarded.restricted ((level.as false).operation fieldName operation)
      ((level.as true).operation fieldName operation) := by
  refine (level.column_gated schema hentity fieldName).bind fun column => ?_
  split
  · exact Gated.error _ nofun
  · rename_i op _
    have hpredicate := op.predicate_harmless fieldName operation.2 column.value
    exact (Gated.of_harmless _ hpredicate).bind fun _ => Gated.ok _ rfl

theorem condition_gated (entry : String × Value) :
    Gated schema false Guarded.restricted ((level.as false).condition entry)
      ((level.as true).condition entry) := by
  rcases entry with ⟨fieldName, v⟩
  cases v with
  | object operations =>
      exact (Gated.mapM _ _ (level.operation_gated schema hentity fieldName) operations).map _
        fun _ => rfl
  | array items => exact Gated.error _ nofun
  | _ => exact (level.column_gated schema hentity fieldName).bind fun _ => Gated.ok _ rfl

theorem filter_gated (v : Value) :
    Gated schema false Guarded.restricted ((level.as false).filter v)
      ((level.as true).filter v) := by
  cases v with
  | null => exact Gated.ok _ rfl
  | object conditions =>
      exact (Gated.mapM _ _ (level.condition_gated schema hentity) conditions).map _ fun _ => rfl
  | _ => exact Gated.error _ nofun

theorem sort_gated (v : Value) :
    Gated schema false Guarded.restricted ((level.as false).sort v) ((level.as true).sort v) := by
  refine (Gated.of_harmless _ (sortTexts_harmless v)).bind fun texts => ?_
  split
  · exact Gated.ok _ rfl
  · have hterm : ∀ text, Gated schema false Guarded.restricted ((level.as false).orderTerm text)
        ((level.as true).orderTerm text) :=
      fun text => (level.column_gated schema hentity _).bind fun _ => Gated.ok _ rfl
    exact (Gated.mapM _ _ hterm texts).bind fun _ => Gated.ok _ rfl

theorem addClause_gated (clauses : Guarded Clauses) (arg : String × Value) :
    Gated schema clauses.restricted Guarded.restricted ((level.as false).addClause clauses arg)
      ((level.as true).addClause clauses arg) := by
  unfold Level.addClause
  split
  · exact (level.filter_gated schema hentity arg.2).under.bind fun _ => Gated.ok _ rfl
  · split
    · exact (level.sort_gated schema hentity arg.2).under.bind fun _ => Gated.ok _ rfl
    · split
      · exact (Gated.of_harmless _ (count_harmless "limit" arg.2)).bind fun _ => Gated.ok _ rfl
      · split
        · exact (Gated.of_harmless _ (count_harmless "offset" arg.2)).bind fun _ => Gated.ok _ rfl
        · exact Gated.ok _ rfl

theorem clauses_gated (args : List (String × Value)) :
    Gated schema false Guarded.restricted ((level.as false).clauses args)
      ((level.as true).clauses args) :=
  Gated.foldlM _ _ (level.addClause_gated schema hentity) args ⟨Clauses.none, false⟩

end Level

/-! ### Requests for two callers -/

/-- Whether some field of a level or of one below it is restricted. -/
def ResolvedFields.authRequired (r : ResolvedFields) : Bool :=
  r.restricted || r.authBelow

/-- The two callers meet the same levels, up to the point where the guest is
    denied. By induction over the request. -/
theorem resolve_gated (schema : Schema) :
    (∀ (node : QueryNode) (fetch : Fetch) (position : Position) (constraint : Option Constraint)
      (next : Nat),
      Gated schema false Resolved.authRequired
        (resolveLevel schema false fetch position constraint next node)
        (resolveLevel schema true fetch position constraint next node)) ∧
    ∀ (fields : List (String × QueryNode)) (level : Level) (next : Nat),
      schema.entity? level.typeName = some level.entity →
        Gated schema false ResolvedFields.authRequired
          (resolveFields schema (level.as false) next fields)
          (resolveFields schema (level.as true) next fields) := by
  refine QueryNode.induction ?_ ?_ ?_ ?_
  · intro name aliasName args fetch position constraint next
    simp only [resolveLevel]
    exact Gated.error _ (by rintro ⟨⟩)
  · intro name aliasName typeName fields more args ih fetch position constraint next
    rw [resolveLevel_typed, resolveLevel_typed]
    cases hlevel : schema.levelEntity position fetch constraint typeName fields with
    | error e =>
        exact Gated.error e (schema.levelEntity_harmless position fetch constraint typeName fields
          e hlevel)
    | ok entity =>
        have hentity := schema.levelEntity_eq_ok position fetch constraint typeName fields entity
          hlevel
        let level : Level := ⟨typeName, entity, localAlias (next + 1), true⟩
        -- Fields, clauses and constraint follow one another. Only the first two can
        -- set the flag.
        have hselected := ih level (next + 2) hentity
        have hclauses := level.clauses_gated schema hentity args
        have hmatching := matchPredicate_harmless constraint typeName entity level.aliasName
        refine hselected.bind fun selected => hclauses.under.bind fun clauses => ?_
        refine (Gated.of_harmless _ hmatching).map _ fun matching => ?_
        exact Bool.or_right_comm selected.restricted clauses.restricted selected.authBelow
  · intro level next _
    simp only [resolveFields]
    exact Gated.ok _ rfl
  · intro key node rest ihnode ihrest level next hentity
    rw [resolveFields_cons, resolveFields_cons]
    refine (level.field_gated schema hentity node.name).bind fun field => ?_
    cases field.value.relation with
    | none =>
        refine (ihrest level next hentity).under.map _ fun others => ?_
        exact Bool.or_assoc field.restricted others.restricted others.authBelow
    | some use =>
        refine (Gated.of_harmless _ (schema.link_harmless (level.as true) node.name field.value
          use)).bind fun linked => ?_
        -- The nested level may set the flag too, before the other fields are reached.
        refine ((ihnode linked.1 .nested (some linked.2) next).inContext _).under.bind
          fun below => ?_
        refine (ihrest level below.next hentity).under.map _ fun others => ?_
        simp only [ResolvedFields.addLevel, ResolvedFields.authRequired]
        ac_rfl

/-- Authentication only ever removes denials. A guest gets a query exactly if a
    member gets the same one and it needs no authorization. Where it does, the
    guest is denied a field that is stored in a column and not public. A member
    is never denied, and where a member fails a guest fails in the same way or
    is denied. -/
theorem compileQuery_authentication (schema : Schema) (minDepth : Nat)
    (constraint : Option Constraint) (node : QueryNode) :
    (∀ c, schema.compileQuery minDepth false constraint node = .ok c ↔
      schema.compileQuery minDepth true constraint node = .ok c ∧ c.authRequired = false) ∧
    (∀ c, schema.compileQuery minDepth true constraint node = .ok c → c.authRequired = true →
      ∃ e, schema.compileQuery minDepth false constraint node = .error e ∧ e.Denies schema) ∧
    ∀ e, schema.compileQuery minDepth true constraint node = .error e →
      e.root.kind ≠ .authorization ∧
        (schema.compileQuery minDepth false constraint node = .error e ∨
          ∃ e', schema.compileQuery minDepth false constraint node = .error e' ∧
            e'.Denies schema) := by
  have hgated : Gated schema false CompiledQuery.authRequired
      (schema.compileQuery minDepth false constraint node)
      (schema.compileQuery minDepth true constraint node) :=
    ((resolve_gated schema).1 node .aggregation .top constraint 0).bind fun _ => Gated.ok _ rfl
  refine ⟨fun c => ⟨fun hguest => ?_, fun ⟨hmember, hunset⟩ => hgated.shared rfl c hmember hunset⟩,
    fun c hmember hset => hgated.denied rfl c hmember hset,
    fun e hmember => ⟨hgated.harmless e hmember, hgated.failed rfl e hmember⟩⟩
  -- A guest who gets a query is not denied, which leaves one case.
  cases hmember : schema.compileQuery minDepth true constraint node with
  | error e =>
      rcases hgated.failed rfl e hmember with herror | ⟨e', herror, _⟩
      · simp only [hguest, reduceCtorEq] at herror
      · simp only [hguest, reduceCtorEq] at herror
  | ok c' =>
      cases hflag : c'.authRequired with
      | true =>
          rcases hgated.denied rfl c' hmember hflag with ⟨e, herror, _⟩
          simp only [hguest, reduceCtorEq] at herror
      | false =>
          have hsame := hgated.shared rfl c' hmember hflag
          rw [hguest] at hsame
          rw [Except.ok.inj hsame]
          exact ⟨rfl, hflag⟩

/-- A member gets the users of the blog who have an address. A guest is told
    that the address is not available. -/
theorem compileQuery_authentication_blog :
    (∃ c, Blog.schema.compileQuery 3 true none Blog.request = .ok c ∧ c.authRequired = true) ∧
      ∃ e, Blog.schema.compileQuery 3 false none Blog.request = .error e ∧
        e.Denies Blog.schema ∧ e.root = .authorization "User" "email" := by
  have hmember : ∃ c, Blog.schema.compileQuery 3 true none Blog.request = .ok c ∧
      c.authRequired = true := ⟨_, rfl, rfl⟩
  rcases hmember with ⟨c, hc, hauth⟩
  rcases (compileQuery_authentication Blog.schema 3 none Blog.request).2.1 c hc hauth with
    ⟨e, he, hdenies⟩
  have hroot : Blog.schema.compileQuery 3 false none Blog.request =
      .error (.authorization "User" "email") := rfl
  refine ⟨⟨c, hc, hauth⟩, e, he, hdenies, ?_⟩
  rw [← Except.error.inj (hroot.symm.trans he)]
  rfl

end ViewCompiler
