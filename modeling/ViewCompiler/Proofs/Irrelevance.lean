import ViewCompiler.Proofs.Acceptance

/-!
# What a Request May Say Without Effect

Requests that differ only in what compiling does not look at.

Much of a request is never looked at: arguments of unknown names, the keys under
which fields are listed, every type of a node but the first, and whatever a node
says below a field that stands for no relation. `QueryNode.Varies` relates two
requests that differ in these at any number of nodes. Compiling them gives the
same outcome, down to the failure.

The order of the arguments is almost of that kind. Clauses are made one argument
after the other, each from an argument of its own name, so a result does not
depend on the order. A failure does: of several arguments that are refused, the
first one is reported. Two outcomes are therefore compared as far as a view of
failures can tell (`Indistinct`). A view that shows everything makes that an
equality, and one that shows nothing leaves it to the results. Both are carried
through the same induction.

That no name occurs twice among the arguments is asked for only where their order
changes, because of two arguments of one name the last one counts.

## Main definitions

* `recognised`: The arguments that are looked at.
* `SameArguments`, `ReorderedArguments`: Arguments that differ in the others, and
  in their order.
* `QueryNode.Varies`: Requests that differ in what is not looked at.
* `Indistinct`: Outcomes that a view of failures cannot tell apart.

## Theorems

* `Level.clauses_recognised`: Clauses are made from recognised arguments only.
* `Level.clauses_reordered`: They do not depend on the order of these.
* `resolve_indistinct`: The levels of two requests.
* `compileQuery_irrelevant`: The queries of two requests.
-/

namespace ViewCompiler

open Json Sql Schema

/-! ### Requests that differ -/

/-- The names of the arguments that are looked at. -/
def argumentNames : List String := ["where", "orderBy", "limit", "offset"]

/-- The arguments that are looked at, in their order. -/
def recognised (args : List (String × Value)) : List (String × Value) :=
  args.filter fun arg => decide (arg.1 ∈ argumentNames)

/-- Arguments that differ only in those that are not looked at. -/
def SameArguments (args args' : List (String × Value)) : Prop :=
  recognised args = recognised args'

/-- Arguments that differ also in the order of those that are looked at, of which
    no two have the same name. -/
def ReorderedArguments (args args' : List (String × Value)) : Prop :=
  (recognised args).Perm (recognised args') ∧ ((recognised args).map Prod.fst).Nodup

/-- A name that is, in the named type, that of a field which stands for no
    relation. -/
def Schema.IsPlain (schema : Schema) (typeName name : String) : Prop :=
  ∃ entity field, schema.entity? typeName = some entity ∧ entity.field? name = some field ∧
    field.relation = none

mutual
/-- Nodes that differ in what is not looked at, here or further down. Arguments
    may differ as `R` says. Types after the first may be any. -/
inductive QueryNode.Varies (schema : Schema)
    (R : List (String × Value) → List (String × Value) → Prop) : QueryNode → QueryNode → Prop where
  | untyped (name : String) (aliasName : Option String) (args args' : List (String × Value))
      (hargs : R args args') :
      QueryNode.Varies schema R ⟨name, aliasName, [], args⟩ ⟨name, aliasName, [], args'⟩
  | typed (name : String) (aliasName : Option String) (typeName : String)
      (fields fields' : List (String × QueryNode))
      (more more' : List (String × List (String × QueryNode))) (args args' : List (String × Value))
      (hfields : QueryNode.FieldsVary schema R typeName fields fields') (hargs : R args args') :
      QueryNode.Varies schema R ⟨name, aliasName, (typeName, fields) :: more, args⟩
        ⟨name, aliasName, (typeName, fields') :: more', args'⟩
/-- Fields of a type that differ in what is not looked at. Their keys may be any. -/
inductive QueryNode.FieldsVary (schema : Schema)
    (R : List (String × Value) → List (String × Value) → Prop) :
    String → List (String × QueryNode) → List (String × QueryNode) → Prop where
  | nil (typeName : String) : QueryNode.FieldsVary schema R typeName [] []
  | cons (typeName key key' : String) (node node' : QueryNode)
      (rest rest' : List (String × QueryNode)) (hnode : QueryNode.Varies schema R node node')
      (hrest : QueryNode.FieldsVary schema R typeName rest rest') :
      QueryNode.FieldsVary schema R typeName ((key, node) :: rest) ((key', node') :: rest')
  | plain (typeName key key' : String) (node node' : QueryNode)
      (rest rest' : List (String × QueryNode)) (hplain : schema.IsPlain typeName node.name)
      (hname : node'.name = node.name) (halias : node'.aliasName = node.aliasName)
      (hrest : QueryNode.FieldsVary schema R typeName rest rest') :
      QueryNode.FieldsVary schema R typeName ((key, node) :: rest) ((key', node') :: rest')
end

/-! ### Outcomes that cannot be told apart -/

/-- Two outcomes that are the same result, or failures that look the same. -/
def Indistinct {α β : Type} (view : Failure → β) (x y : Except Failure α) : Prop :=
  x.mapError view = y.mapError view

namespace Indistinct

variable {α β γ : Type} {view : Failure → β} {x y : Except Failure α}

theorem cases (h : Indistinct view x y) :
    (∃ e e', x = .error e ∧ y = .error e' ∧ view e = view e') ∨ ∃ a, x = .ok a ∧ y = .ok a := by
  unfold Indistinct at h
  cases x with
  | error e =>
      cases y with
      | error e' => exact Or.inl ⟨e, e', rfl, rfl, Except.error.inj h⟩
      | ok b => simp only [Except.mapError, reduceCtorEq] at h
  | ok a =>
      cases y with
      | error e => simp only [Except.mapError, reduceCtorEq] at h
      | ok b => exact Or.inr ⟨a, rfl, by rw [Except.ok.inj h]⟩

theorem error {e e' : Failure} (h : view e = view e') :
    Indistinct view (.error e : Except Failure α) (.error e') :=
  congrArg Except.error h

theorem bind {next next' : α → Except Failure γ} (h : Indistinct view x y)
    (hnext : ∀ a, x = .ok a → Indistinct view (next a) (next' a)) :
    Indistinct view (x >>= next) (y >>= next') := by
  rcases h.cases with ⟨e, e', rfl, rfl, hview⟩ | ⟨a, rfl, rfl⟩
  · exact Indistinct.error hview
  · exact hnext a rfl

theorem map {f f' : α → γ} (h : Indistinct view x y) (hf : ∀ a, f a = f' a) :
    Indistinct view (x.map f) (y.map f') := by
  rcases h.cases with ⟨e, e', rfl, rfl, hview⟩ | ⟨a, rfl, rfl⟩
  · exact Indistinct.error hview
  · exact congrArg Except.ok (hf a)

/-- A context hides nothing that was seen, and shows nothing that was not. -/
theorem inContext (context : String)
    (hview : ∀ e e', view e = view e' → view (.inContext context e) = view (.inContext context e'))
    (h : Indistinct view x y) :
    Indistinct view (x.mapError (.inContext context)) (y.mapError (.inContext context)) := by
  rcases h.cases with ⟨e, e', rfl, rfl, hsame⟩ | ⟨a, rfl, rfl⟩
  · exact Indistinct.error (hview e e' hsame)
  · rfl

/-- Outcomes that a view of everything cannot tell apart are the same. -/
theorem eq (h : Indistinct id x y) : x = y := by
  rcases h.cases with ⟨e, e', rfl, rfl, hview⟩ | ⟨a, rfl, rfl⟩
  · exact congrArg Except.error hview
  · rfl

/-- Outcomes with the same results cannot be told apart by a view of nothing. -/
theorem of_ok_iff (h : ∀ a, x = .ok a ↔ y = .ok a) : Indistinct (fun _ => ()) x y := by
  cases x with
  | ok a => rw [(h a).mp rfl]; rfl
  | error e =>
      cases y with
      | ok b => exact absurd ((h b).mpr rfl) (by simp only [reduceCtorEq, not_false_eq_true])
      | error e' => rfl

end Indistinct

/-! ### Arguments -/

namespace Level

variable (level : Level)

/-- An argument of another name leaves the clauses as they are. -/
theorem addClause_of_not_mem (clauses : Guarded Clauses) (arg : String × Value)
    (h : arg.1 ∉ argumentNames) : level.addClause clauses arg = .ok clauses := by
  simp only [argumentNames, List.mem_cons, List.not_mem_nil, or_false, not_or] at h
  rcases h with ⟨hwhere, horder, hlimit, hoffset⟩
  unfold Level.addClause
  rw [if_neg hwhere, if_neg horder, if_neg hlimit, if_neg hoffset]

theorem foldlM_recognised (args : List (String × Value)) (start : Guarded Clauses) :
    args.foldlM level.addClause start = (recognised args).foldlM level.addClause start := by
  induction args generalizing start with
  | nil => rfl
  | cons arg rest ih =>
      by_cases hmem : arg.1 ∈ argumentNames
      · have hcons : recognised (arg :: rest) = arg :: recognised rest :=
          List.filter_cons_of_pos (decide_eq_true hmem)
        rw [hcons, List.foldlM_cons, List.foldlM_cons]
        exact congrArg _ (funext ih)
      · have hskip : recognised (arg :: rest) = recognised rest :=
          List.filter_cons_of_neg (by simp only [hmem, decide_false, Bool.false_eq_true,
            not_false_eq_true])
        rw [hskip, List.foldlM_cons, level.addClause_of_not_mem start arg hmem]
        exact ih start

/-- Clauses are made from the recognised arguments only. -/
theorem clauses_recognised (args : List (String × Value)) :
    level.clauses args = level.clauses (recognised args) :=
  level.foldlM_recognised args _

/-- What is asked for determines the clauses. -/
theorem Asked.unique {given : String → Value} {c c' : Clauses} (h : level.Asked given c)
    (h' : level.Asked given c') : c = c' := by
  rcases h with ⟨⟨g, hg, hpredicate⟩, ⟨s, hs, horderBy⟩, hlimit, hoffset⟩
  rcases h' with ⟨⟨g', hg', hpredicate'⟩, ⟨s', hs', horderBy'⟩, hlimit', hoffset'⟩
  rcases c with ⟨predicate, orderBy, limit, offset⟩
  rcases c' with ⟨predicate', orderBy', limit', offset'⟩
  simp only at hpredicate hpredicate' horderBy horderBy' hlimit hlimit' hoffset hoffset'
  have hfilter : g = g' := Except.ok.inj (hg.symm.trans hg')
  have hsort : s = s' := Except.ok.inj (hs.symm.trans hs')
  rw [Clauses.mk.injEq]
  refine ⟨?_, ?_, Except.ok.inj (hlimit.symm.trans hlimit'),
    Except.ok.inj (hoffset.symm.trans hoffset')⟩
  · rw [hpredicate, hpredicate', hfilter]
  · rw [horderBy, horderBy', hsort]

end Level

/-- A fold that looks for the last argument of a name finds the only one there is,
    in whatever order the arguments are. -/
theorem given_perm (args args' : List (String × Value)) (hperm : args.Perm args')
    (hnodup : (args.map Prod.fst).Nodup) : given args = given args' := by
  funext name
  suffices hfold : ∀ start, args.foldl (fun v arg => if arg.1 = name then arg.2 else v) start =
      args'.foldl (fun v arg => if arg.1 = name then arg.2 else v) start from hfold .null
  induction hperm with
  | nil => exact fun start => rfl
  | cons arg _ ih =>
      intro start
      rw [List.foldl_cons, List.foldl_cons]
      exact ih (List.nodup_cons.mp hnodup).2 _
  | swap arg arg' rest =>
      intro start
      -- Two neighbours have different names, so one of them at most is looked for.
      have hne : arg'.1 ≠ arg.1 := fun heq =>
        (List.nodup_cons.mp hnodup).1 (heq ▸ List.mem_cons_self)
      simp only [List.foldl_cons]
      by_cases hfirst : arg'.1 = name
      · have hsecond : ¬ arg.1 = name := fun heq => hne (hfirst.trans heq.symm)
        rw [if_pos hfirst, if_neg hsecond, if_neg hsecond, if_pos hfirst]
      · rw [if_neg hfirst, if_neg hfirst]
  | trans hleft _ ihleft ihright =>
      intro start
      exact (ihleft hnodup start).trans (ihright ((hleft.map Prod.fst).nodup_iff.mp hnodup) start)

namespace Level

variable (level : Level)

/-- Clauses do not depend on the order of the arguments. Whether there are any is
    asked of each argument on its own, each part is made from the argument of its
    name, and the flag is a disjunction over all of them. -/
theorem clauses_perm (args args' : List (String × Value)) (hperm : args.Perm args')
    (hnodup : (args.map Prod.fst).Nodup) (c : Guarded Clauses) (h : level.clauses args = .ok c) :
    level.clauses args' = .ok c := by
  have haccepted : ∀ arg ∈ args', level.entity.AcceptsArgument level.authenticated arg := by
    intro arg harg
    exact (level.succeeds_clauses_iff args).mp ⟨c, h⟩ arg (hperm.mem_iff.mpr harg)
  rcases (level.succeeds_clauses_iff args').mpr haccepted with ⟨c', h'⟩
  have hvalue : c.value = c'.value := by
    have hasked := level.clauses_asked args c h
    rw [given_perm args args' hperm hnodup] at hasked
    exact Asked.unique level hasked (level.clauses_asked args' c' h')
  have hrestricted : c.restricted = c'.restricted := by
    rw [level.clauses_restricted args c h, level.clauses_restricted args' c' h']
    exact (hperm.flatMap_right argumentFields).any_eq
  rw [h']
  rcases c with ⟨value, restricted⟩
  rcases c' with ⟨value', restricted'⟩
  simp only at hvalue hrestricted
  rw [hvalue, hrestricted]

theorem clauses_reordered (args args' : List (String × Value)) (h : ReorderedArguments args args') :
    Indistinct (fun _ => ()) (level.clauses args) (level.clauses args') := by
  rcases h with ⟨hperm, hnodup⟩
  rw [level.clauses_recognised args, level.clauses_recognised args']
  refine Indistinct.of_ok_iff fun c => ⟨?_, ?_⟩
  · exact level.clauses_perm _ _ hperm hnodup c
  · exact level.clauses_perm _ _ hperm.symm ((hperm.map Prod.fst).nodup_iff.mp hnodup) c

end Level

/-! ### Levels -/

theorem QueryNode.Varies.names {schema : Schema}
    {R : List (String × Value) → List (String × Value) → Prop} {node node' : QueryNode}
    (h : node.Varies schema R node') :
    node'.name = node.name ∧ node'.aliasName = node.aliasName := by
  cases h <;> exact ⟨rfl, rfl⟩

theorem QueryNode.resultKey_congr {node node' : QueryNode} (hname : node'.name = node.name)
    (halias : node'.aliasName = node.aliasName) : node'.resultKey = node.resultKey := by
  rw [QueryNode.resultKey, QueryNode.resultKey, hname, halias]

/-- The entity of a level depends on whether there are fields, and not on which. -/
theorem Schema.levelEntity_fieldsVary (schema : Schema) (position : Position) (fetch : Fetch)
    (constraint : Option Constraint) (typeName : String)
    (fields fields' : List (String × QueryNode))
    (R : List (String × Value) → List (String × Value) → Prop)
    (h : QueryNode.FieldsVary schema R typeName fields fields') :
    schema.levelEntity position fetch constraint typeName fields =
      schema.levelEntity position fetch constraint typeName fields' := by
  have hempty : fields.isEmpty = fields'.isEmpty := by
    cases h <;> rfl
  unfold Schema.levelEntity
  rw [hempty]

section Resolution

variable {β : Type} (schema : Schema) (view : Failure → β)
  (R : List (String × Value) → List (String × Value) → Prop)
  (hview : ∀ context e e', view e = view e' →
    view (.inContext context e) = view (.inContext context e'))
  (hargs : ∀ (level : Level) (args args' : List (String × Value)), R args args' →
    Indistinct view (level.clauses args) (level.clauses args'))

include hview hargs

/-- The levels of two requests that differ in what is not looked at cannot be told
    apart, if the clauses of their arguments cannot. By induction over the first
    request, while the relation is taken apart along with it. -/
theorem resolve_indistinct :
    (∀ (node node' : QueryNode) (authenticated : Bool) (fetch : Fetch) (position : Position)
      (constraint : Option Constraint) (next : Nat), node.Varies schema R node' →
        Indistinct view (resolveLevel schema authenticated fetch position constraint next node)
          (resolveLevel schema authenticated fetch position constraint next node')) ∧
    ∀ (fields fields' : List (String × QueryNode)) (level : Level) (next : Nat),
      schema.entity? level.typeName = some level.entity →
      QueryNode.FieldsVary schema R level.typeName fields fields' →
        Indistinct view (resolveFields schema level next fields)
          (resolveFields schema level next fields') := by
  refine QueryNode.induction ?_ ?_ ?_ ?_
  · intro name aliasName args node' authenticated fetch position constraint next hvaries
    cases hvaries
    rw [resolveLevel, resolveLevel]
    exact Indistinct.error rfl
  · intro name aliasName typeName fields more args ih node' authenticated fetch position constraint
      next hvaries
    rcases hvaries with _ | ⟨_, _, _, _, fields', _, more', _, args', hfields, hrelated⟩
    rw [resolveLevel_typed, resolveLevel_typed, schema.levelEntity_fieldsVary position fetch
      constraint typeName fields fields' R hfields]
    -- The stages of the two levels, side by side.
    refine Indistinct.bind rfl fun entity hentity => ?_
    have hknown := schema.levelEntity_eq_ok position fetch constraint typeName fields' entity
      hentity
    refine (ih fields' _ _ hknown hfields).bind fun selected _ => ?_
    exact (hargs _ args args' hrelated).bind fun clauses _ => rfl
  · intro fields' level next _ hvary
    cases hvary
    rfl
  · intro key node rest ihnode ihrest fields' level next hentity hvary
    have hnames : ∃ key' node' rest', fields' = (key', node') :: rest' ∧
        node'.name = node.name ∧ node'.aliasName = node.aliasName ∧
        QueryNode.FieldsVary schema R level.typeName rest rest' ∧
        (node.Varies schema R node' ∨ schema.IsPlain level.typeName node.name) := by
      rcases hvary with _ | ⟨_, _, key', _, node', _, rest', hnode, hrest⟩ |
        ⟨_, _, key', _, node', _, rest', hplain, hname, halias, hrest⟩
      · exact ⟨key', node', rest', rfl, hnode.names.1, hnode.names.2, hrest, Or.inl hnode⟩
      · exact ⟨key', node', rest', rfl, hname, halias, hrest, Or.inr hplain⟩
    rcases hnames with ⟨key', node', rest', rfl, hname, halias, hrest, hnode⟩
    have hkey := QueryNode.resultKey_congr hname halias
    rw [resolveFields_cons, resolveFields_cons, hname]
    refine Indistinct.bind rfl fun field hfield => ?_
    cases hrelation : field.value.relation with
    | none =>
        refine (ihrest rest' level next hentity hrest).map fun others => ?_
        simp only [ResolvedFields.addColumn, hname, hkey]
    | some use =>
        -- A node below a relation is looked at, so it is not one that may be any.
        have hvaries : node.Varies schema R node' := by
          rcases hnode with hvaries | ⟨entity, plain, hknown, hplain, hnone⟩
          · exact hvaries
          · have hsame : level.entity = entity := Option.some.inj (hentity.symm.trans hknown)
            have hfound := ((level.field_eq_ok_iff node.name field).mp hfield).1
            rw [hsame, hplain] at hfound
            rw [← Option.some.inj hfound, hnone] at hrelation
            simp only [reduceCtorEq] at hrelation
        refine Indistinct.bind rfl fun linked _ => ?_
        refine ((ihnode node' _ _ _ _ next hvaries).inContext _ (hview _)).bind fun below _ => ?_
        refine (ihrest rest' level below.next hentity hrest).map fun others => ?_
        simp only [ResolvedFields.addLevel, hkey]

theorem compileQuery_indistinct (minDepth : Nat) (authenticated : Bool)
    (constraint : Option Constraint) (node node' : QueryNode) (h : node.Varies schema R node') :
    Indistinct view (schema.compileQuery minDepth authenticated constraint node)
      (schema.compileQuery minDepth authenticated constraint node') := by
  have hresolve := (resolve_indistinct schema view R hview hargs).1 node node' authenticated
    .aggregation .top constraint 0 h
  have hkey := QueryNode.resultKey_congr h.names.1 h.names.2
  unfold Schema.compileQuery
  rw [hkey]
  exact hresolve.bind fun r _ => rfl

end Resolution

/-- What is not looked at does not matter. Two requests that differ in arguments of
    other names, in the keys of fields, in types after the first and in what is
    below plain fields have the same outcome, be it a failure or a query. If their
    arguments are also in another order, both fail or both become the same query. -/
theorem compileQuery_irrelevant (schema : Schema) (minDepth : Nat) (authenticated : Bool)
    (constraint : Option Constraint) (node node' : QueryNode) :
    (node.Varies schema SameArguments node' →
      schema.compileQuery minDepth authenticated constraint node =
        schema.compileQuery minDepth authenticated constraint node') ∧
    (node.Varies schema ReorderedArguments node' →
      ((∃ e, schema.compileQuery minDepth authenticated constraint node = .error e) ∧
        ∃ e, schema.compileQuery minDepth authenticated constraint node' = .error e) ∨
      ∃ c, schema.compileQuery minDepth authenticated constraint node = .ok c ∧
        schema.compileQuery minDepth authenticated constraint node' = .ok c) := by
  constructor
  · intro hvaries
    refine (compileQuery_indistinct schema id SameArguments ?_ ?_ minDepth authenticated constraint
      node node' hvaries).eq
    · exact fun context e e' hsame => congrArg (Failure.inContext context) hsame
    · intro level args args' hsame
      rw [level.clauses_recognised args, level.clauses_recognised args', hsame]
      rfl
  · intro hvaries
    have hindistinct := compileQuery_indistinct schema (fun _ => ()) ReorderedArguments
      (fun _ _ _ _ => rfl) Level.clauses_reordered minDepth authenticated constraint node node'
      hvaries
    rcases hindistinct.cases with ⟨e, e', he, he', _⟩ | ⟨c, hc, hc'⟩
    · exact Or.inl ⟨⟨e, he⟩, e', he'⟩
    · exact Or.inr ⟨c, hc, hc'⟩

namespace Blog

/-- The request of the blog in other words: with other keys, a type that is not
    looked at, and a plain field that pretends to have something below it. -/
def restated (args : List (String × Value)) : QueryNode where
  name := "users"
  aliasName := none
  fieldsByTypeName := [("User", [
      ("first", ⟨"name", none, [("Nowhere", [leaf "nothing"])], [("where", .string "anything")]⟩),
      ("second", ⟨"posts", none, [("Post", [leaf "title",
        ("author", ⟨"author", none, [("User", [leaf "name"])], [("after", .null)]⟩)])], []⟩)]),
    ("Post", [])]
  args := args

theorem request_varies (R : List (String × Value) → List (String × Value) → Prop)
    (args : List (String × Value)) (hargs : R request.args args) (hnil : R [] [])
    (hafter : R [] [("after", .null)]) : request.Varies schema R (restated args) := by
  have hplain : schema.IsPlain "User" "name" := ⟨user, _, rfl, rfl, rfl⟩
  have hleaf : ∀ name : String, QueryNode.Varies schema R ⟨name, none, [], []⟩
      ⟨name, none, [], []⟩ := fun name => .untyped name none [] [] hnil
  have hauthor := QueryNode.Varies.typed "author" none "User" _ _ [] [] [] _
    (.cons "User" "name" "name" _ _ [] [] (hleaf "name") (.nil "User")) hafter
  have hposts := QueryNode.Varies.typed "posts" none "Post" _ _ [] [] [] []
    (.cons "Post" "title" "title" _ _ _ _ (hleaf "title")
      (.cons "Post" "author" "author" _ _ [] [] hauthor (.nil "Post"))) hnil
  exact .typed "users" none "User" _ _ [] [("Post", [])] _ args
    (.plain "User" "name" "first" _ _ _ _ hplain rfl rfl
      (.cons "User" "posts" "second" _ _ [] [] hposts (.nil "User"))) hargs

end Blog

/-- The request of the blog can be put in other words, and its arguments in another
    order. A guest is refused in the same way. -/
theorem compileQuery_irrelevant_blog :
    let filter : String × Value := ("where", .object [("email", .object [("neq", .null)])])
    let reworded := Blog.restated [filter, ("after", .int 7), ("limit", .int 10)]
    let reordered := Blog.restated [("limit", .int 10), filter]
    (∃ c, Blog.schema.compileQuery 3 true none Blog.request = .ok c ∧
      Blog.schema.compileQuery 3 true none reworded = .ok c ∧
      Blog.schema.compileQuery 3 true none reordered = .ok c) ∧
    Blog.schema.compileQuery 3 false none reworded = .error (.authorization "User" "email") := by
  intro filter reworded reordered
  have hreworded : Blog.request.Varies Blog.schema SameArguments reworded :=
    Blog.request_varies SameArguments _ rfl rfl rfl
  have hreordered : Blog.request.Varies Blog.schema ReorderedArguments reordered :=
    Blog.request_varies ReorderedArguments _ ⟨List.Perm.swap _ _ _, by decide⟩
      ⟨List.Perm.refl _, List.nodup_nil⟩ ⟨List.Perm.refl _, List.nodup_nil⟩
  have hcompiles : ∃ c, Blog.schema.compileQuery 3 true none Blog.request = .ok c := ⟨_, rfl⟩
  rcases hcompiles with ⟨c, hc⟩
  refine ⟨⟨c, hc, ?_, ?_⟩, ?_⟩
  · rw [← (compileQuery_irrelevant Blog.schema 3 true none Blog.request reworded).1 hreworded, hc]
  · rcases (compileQuery_irrelevant Blog.schema 3 true none Blog.request reordered).2 hreordered
      with ⟨⟨e, he⟩, _⟩ | ⟨c', hc', hreordered'⟩
    · exact absurd (hc.symm.trans he) (by simp only [reduceCtorEq, not_false_eq_true])
    · rw [hreordered', Except.ok.inj (hc.symm.trans hc')]
  · rw [← (compileQuery_irrelevant Blog.schema 3 false none Blog.request reworded).1 hreworded]
    rfl

end ViewCompiler
