import ViewCompiler.Proofs.Failures
import ViewCompiler.Proofs.Visits

/-!
# The Contexts of a Failure

Which way a failure has come, as its contexts tell.

A failure arises at one level of a request. On its way out it gets a context at every
relation that was followed to that level, so the contexts, from the outermost on, are
the relations of a way down from the request. `Visit.Raises` lists what a level can
fail for by itself, and `Visit.resolve_eq_error_iff` says that compiling ends in a
failure exactly if its cause is raised at the end of the way that its contexts name.

That the contexts are all of the way, and not more, needs that no part of a level ever
yields a failure which is in a context already (`Visit.Raises.bare`).

What a caller is shown of a failure is read off from the same two parts, the cause and
the contexts.

## Main definitions

* `Failure.contexts`: The contexts of a failure.
* `Visit.Raises`: What a level fails for by itself.

## Theorems

* `Failure.eq_foldr_contexts`: A failure is its cause in its contexts.
* `Failure.userMessage_eq_join`: The message, with the contexts behind the cause.
* `Visit.resolve_eq_error_bare_iff`, `Visit.resolve_eq_error_inContext_iff`: One level.
* `Visit.resolve_eq_error_iff`: The whole way.
* `compileQuery_failurePath`: The failures of compiling.
-/

namespace ViewCompiler

open Json Sql Schema

/-! ### Cause and contexts -/

namespace Failure

/-- The contexts of a failure, the outermost first. -/
def contexts : Failure → List String
  | .inContext context cause => context :: cause.contexts
  | _ => []

/-- A failure is its cause, in its contexts. -/
theorem eq_foldr_contexts (e : Failure) : e = e.contexts.foldr .inContext e.root := by
  induction e with
  | inContext context cause ih =>
      rw [contexts, root, List.foldr_cons, ← ih]
  | _ => rfl

theorem kind_root (e : Failure) : e.root.kind ≠ .withContext := by
  induction e with
  | inContext context cause ih => exact ih
  | _ => exact nofun

/-- A refused field is all that a caller is told about a request for it. -/
theorem userMessage_of_authorization (e : Failure) (typeName fieldName : String)
    (h : e.root = .authorization typeName fieldName) :
    e.userMessage = authorizationText typeName fieldName := by
  induction e with
  | inContext context cause ih =>
      have hkind : cause.root.kind = .authorization := congrArg kind h
      rw [userMessage, if_pos hkind]
      exact ih h
  | authorization typeName' fieldName' =>
      simp only [root, authorization.injEq] at h
      rw [userMessage, h.1, h.2]
  | _ => simp only [root, reduceCtorEq] at h

/-- Any other failure is shown with its contexts, from the innermost to the outermost. -/
theorem userMessage_eq_join (e : Failure) (h : e.root.kind ≠ .authorization) :
    e.userMessage = e.root.userMessage ++ String.join (e.contexts.reverse.map (": " ++ ·)) := by
  induction e with
  | inContext context cause ih =>
      have hcause : cause.root.kind ≠ .authorization := h
      -- The context of the last step out comes to stand behind all others.
      have hlast : String.join ((contexts (.inContext context cause)).reverse.map (": " ++ ·)) =
          String.join (cause.contexts.reverse.map (": " ++ ·)) ++ (": " ++ context) := by
        simp only [contexts, List.reverse_cons, List.map_append, List.map_cons, List.map_nil,
          String.join_append, String.join_cons, String.join_nil, String.append_empty]
      rw [hlast, root, ← String.append_assoc, ← ih hcause, userMessage, if_neg hcause,
        ← String.append_assoc]
      rfl
  | _ => exact (String.append_empty).symm

end Failure

/-! ### Failures of a level -/

namespace Visit

/-- What a visit can fail for by itself: its node has no type, its entity cannot be
    visited, one of its fields fails by itself, or its arguments do, or its rows cannot be
    matched. Each of these is come to after all that stand before it. -/
inductive Raises (schema : Schema) (authenticated : Bool) : Visit → Failure → Prop where
  | untyped (v : Visit) (hnone : v.node.selection? = none) :
      Raises schema authenticated v (.noTypeSelected v.node.name)
  | entity (v : Visit) (typeName : String) (fields : List (String × QueryNode)) (e : Failure)
      (hselection : v.node.selection? = some (typeName, fields))
      (hentity : schema.levelEntity v.position v.fetch v.constraint typeName fields = .error e) :
      Raises schema authenticated v e
  | field (v : Visit) (level : Level) (child : QueryNode) (number : Nat) (e : Failure)
      (hcomes : v.ComesTo schema authenticated level child number)
      (hfield : level.FieldRaises schema child e) : Raises schema authenticated v e
  | clauses (v : Visit) (level : Level) (fields : List (String × QueryNode))
      (selected : ResolvedFields) (e : Failure) (hopens : v.Opens schema authenticated level fields)
      (hselected : resolveFields schema level (v.next + 2) fields = .ok selected)
      (hclauses : level.clauses v.node.args = .error e) : Raises schema authenticated v e
  | matching (v : Visit) (level : Level) (fields : List (String × QueryNode))
      (selected : ResolvedFields) (clauses : Guarded Clauses) (e : Failure)
      (hopens : v.Opens schema authenticated level fields)
      (hselected : resolveFields schema level (v.next + 2) fields = .ok selected)
      (hclauses : level.clauses v.node.args = .ok clauses)
      (hmatching : matchPredicate v.constraint level.typeName level.entity level.aliasName =
        .error e) : Raises schema authenticated v e

variable {schema : Schema} {authenticated : Bool}

/-- What a level raises is in no context yet. -/
theorem Raises.bare {v : Visit} {e : Failure} (h : v.Raises schema authenticated e) :
    e.kind ≠ .withContext := by
  have hschema : ∀ text, (Failure.schema text).kind ≠ .withContext := fun _ => nofun
  have hdenied : ∀ typeName fieldName,
      (Failure.authorization typeName fieldName).kind ≠ .withContext := fun _ _ => nofun
  have hpolicy : ∀ text, (Failure.policy text).kind ≠ .withContext := fun _ => nofun
  have hform : ∀ text, (Failure.validation text).kind ≠ .withContext := fun _ => nofun
  cases h with
  | untyped hnone => exact hschema _
  | entity typeName fields _ hselection hentity =>
      exact schema.levelEntity_failsAs (P := fun e => e.kind ≠ .withContext) hschema _ _ _
        (fun _ => hpolicy) typeName fields e hentity
  | field level child number _ hcomes hfield =>
      rcases hfield with hmissing | ⟨field, use, _, _, hlink⟩
      · exact level.field_failsAs (P := fun e => e.kind ≠ .withContext) hschema hdenied child.name e
          hmissing
      · exact schema.link_failsAs (P := fun e => e.kind ≠ .withContext) hschema level child.name
          field.value use e hlink
  | clauses level fields selected _ hopens hselected hclauses =>
      exact level.clauses_failsAs (P := fun e => e.kind ≠ .withContext) hschema hdenied hform _ e
        hclauses
  | matching level fields selected clauses _ hopens hselected hclauses hmatching =>
      exact matchPredicate_failsAs (P := fun e => e.kind ≠ .withContext) hschema _ _ _ _ e hmatching

theorem resolve_of_untyped {v : Visit} (h : v.node.selection? = none) :
    v.resolve schema authenticated = .error (.noTypeSelected v.node.name) := by
  rcases v with ⟨⟨name, aliasName, types, args⟩, fetch, position, constraint, next⟩
  cases types with
  | nil => rfl
  | cons selection more =>
      simp only [QueryNode.selection?, List.head?_cons, reduceCtorEq] at h

theorem resolve_of_entity_error {v : Visit} {typeName : String} {fields : List (String × QueryNode)}
    {e : Failure} (hselection : v.node.selection? = some (typeName, fields))
    (hentity : schema.levelEntity v.position v.fetch v.constraint typeName fields = .error e) :
    v.resolve schema authenticated = .error e := by
  rcases v with ⟨⟨name, aliasName, types, args⟩, fetch, position, constraint, next⟩
  cases types with
  | nil => simp only [QueryNode.selection?, List.head?_nil, reduceCtorEq] at hselection
  | cons selection more =>
      simp only [QueryNode.selection?, List.head?_cons, Option.some.injEq] at hselection
      subst hselection
      simp only at hentity
      simp only [resolve, resolveLevel_typed, hentity, bind, Except.bind]

/-- A visit fails where a field that it comes to does. -/
theorem ComesTo.resolve_eq_error {v : Visit} {level : Level} {child : QueryNode} {number : Nat}
    (hcomes : v.ComesTo schema authenticated level child number) {e : Failure}
    (hfails : level.FieldFails schema number child e) :
    v.resolve schema authenticated = .error e := by
  rcases hcomes with ⟨before, key, after, r, hopens, hr, rfl⟩
  have hfields := (resolveFields_eq_error_iff schema level (v.next + 2) _ e).mpr
    ⟨before, key, child, after, r, rfl, hr, hfails⟩
  rw [resolve_of_opens hopens, hfields]
  rfl

/-- What a level raises is what its visit ends in. -/
theorem Raises.resolve_eq_error {v : Visit} {e : Failure} (h : v.Raises schema authenticated e) :
    v.resolve schema authenticated = .error e := by
  cases h with
  | untyped hnone => exact resolve_of_untyped hnone
  | entity typeName fields _ hselection hentity =>
      exact resolve_of_entity_error hselection hentity
  | field level child number _ hcomes hfield => exact hcomes.resolve_eq_error (Or.inl hfield)
  | clauses level fields selected _ hopens hselected hclauses =>
      rw [resolve_of_opens hopens, hselected]
      simp only [bind, Except.bind, hclauses]
  | matching level fields selected clauses _ hopens hselected hclauses hmatching =>
      rw [resolve_of_opens hopens, hselected]
      simp only [bind, Except.bind, hclauses, hmatching, Except.map]

/-- What happens below a relation comes out with the relation as its context. -/
theorem Descends.resolve_eq_error {v w : Visit} {context : String}
    (hstep : v.Descends schema authenticated context w) {cause : Failure}
    (hcause : w.resolve schema authenticated = .error cause) :
    v.resolve schema authenticated = .error (.inContext context cause) := by
  cases hstep with
  | relation level child number fetch constraint hcomes hleads =>
      refine hcomes.resolve_eq_error (Or.inr ⟨fetch, constraint, cause, hleads, ?_, rfl⟩)
      have hauthenticated : level.authenticated = authenticated := by
        rcases hcomes with ⟨_, _, _, _, hopens, _⟩
        exact hopens.authenticated
      rw [hauthenticated]
      exact hcause

/-- A visit fails for something that its own level raises, or below it. -/
theorem raises_or_descends {v : Visit} {e : Failure}
    (h : v.resolve schema authenticated = .error e) :
    v.Raises schema authenticated e ∨ ∃ context w cause, v.Descends schema authenticated context w ∧
      w.resolve schema authenticated = .error cause ∧ e = .inContext context cause := by
  cases hselection : v.node.selection? with
  | none =>
      rw [resolve_of_untyped hselection, Except.error.injEq] at h
      exact Or.inl (h ▸ .untyped v hselection)
  | some selection =>
      rcases selection with ⟨typeName, fields⟩
      cases hentity : schema.levelEntity v.position v.fetch v.constraint typeName fields with
      | error cause =>
          rw [resolve_of_entity_error hselection hentity, Except.error.injEq] at h
          exact Or.inl (h ▸ .entity v typeName fields cause hselection hentity)
      | ok entity =>
          have hopens : v.Opens schema authenticated
              ⟨typeName, entity, localAlias (v.next + 1), authenticated⟩ fields :=
            ⟨hselection, hentity, rfl, rfl⟩
          -- The level is open, so what fails is one of the three stages that are left.
          simp only [resolve_of_opens hopens, bind_eq_error_iff, map_eq_error_iff] at h
          rcases h with hfields | ⟨selected, hselected, hclauses | ⟨clauses, hclauses, hmatching⟩⟩
          · rcases (resolveFields_eq_error_iff schema _ _ fields e).mp hfields with
              ⟨before, key, child, after, r, rfl, hr, hfails⟩
            have hcomes : v.ComesTo schema authenticated
                ⟨typeName, entity, localAlias (v.next + 1), authenticated⟩ child r.next :=
              ⟨before, key, after, r, hopens, hr, rfl⟩
            rcases hfails with hraises | ⟨fetch, constraint, cause, hleads, hbelow, rfl⟩
            · exact Or.inl (.field v _ child r.next e hcomes hraises)
            · exact Or.inr ⟨_, _, cause, .relation v _ child r.next fetch constraint hcomes hleads,
                hbelow, rfl⟩
          · exact Or.inl (.clauses v _ fields selected e hopens hselected hclauses)
          · exact Or.inl
              (.matching v _ fields selected clauses e hopens hselected hclauses hmatching)

/-! ### Failures of a request -/

/-- A failure in no context has been raised by the visit itself. -/
theorem resolve_eq_error_bare_iff (v : Visit) (e : Failure) (he : e.kind ≠ .withContext) :
    v.resolve schema authenticated = .error e ↔ v.Raises schema authenticated e := by
  constructor
  · intro h
    rcases raises_or_descends h with hraises | ⟨context, w, cause, _, _, rfl⟩
    · exact hraises
    · exact absurd rfl he
  · exact Raises.resolve_eq_error

/-- The outermost context of a failure is that of a step down, below which the rest of
    the failure has come about. -/
theorem resolve_eq_error_inContext_iff (v : Visit) (context : String) (cause : Failure) :
    v.resolve schema authenticated = .error (.inContext context cause) ↔
      ∃ w, v.Descends schema authenticated context w ∧
        w.resolve schema authenticated = .error cause := by
  constructor
  · intro h
    rcases raises_or_descends h with hraises | ⟨context', w, cause', hstep, hcause, heq⟩
    · exact absurd rfl hraises.bare
    · simp only [Failure.inContext.injEq] at heq
      rcases heq with ⟨rfl, rfl⟩
      exact ⟨w, hstep, hcause⟩
  · rintro ⟨w, hstep, hcause⟩
    exact hstep.resolve_eq_error hcause

/-- A visit ends in a failure exactly if the contexts of the failure name a way down, at
    the end of which its cause is raised. By induction on the failure, one context at a
    time. -/
theorem resolve_eq_error_iff (v : Visit) (e : Failure) :
    v.resolve schema authenticated = .error e ↔
      ∃ last, v.Reaches schema authenticated e.contexts last ∧
        last.Raises schema authenticated e.root := by
  induction e generalizing v with
  | inContext context cause ih =>
      rw [resolve_eq_error_inContext_iff]
      constructor
      · rintro ⟨w, hstep, hcause⟩
        rcases (ih w).mp hcause with ⟨last, hway, hraises⟩
        exact ⟨last, .step v w last context cause.contexts hstep hway, hraises⟩
      · rintro ⟨last, hway, hraises⟩
        cases hway with
        | step _ w _ _ _ hstep hrest => exact ⟨w, hstep, (ih w).mpr ⟨last, hrest, hraises⟩⟩
  | _ =>
      refine (resolve_eq_error_bare_iff v _ ?_).trans ⟨?_, ?_⟩
      · exact nofun
      · intro hraises
        exact ⟨v, .refl v, hraises⟩
      · rintro ⟨last, hway, hraises⟩
        cases hway
        exact hraises

end Visit

/-- A failure has come the way that its contexts name. Compiling fails with `e` exactly if
    relations can be followed, from the request down, whose contexts are those of `e`, and
    the level at the end raises its cause. A failure is nothing but a cause in contexts. Of
    these a caller is shown the refused field alone, or else the text of the cause and then
    all contexts, the innermost first. -/
theorem compileQuery_failurePath (schema : Schema) (minDepth : Nat) (authenticated : Bool)
    (constraint : Option Constraint) (node : QueryNode) :
    (∀ e, schema.compileQuery minDepth authenticated constraint node = .error e ↔
      ∃ last, (Visit.outermost constraint node).Reaches schema authenticated e.contexts last ∧
        last.Raises schema authenticated e.root) ∧
    ∀ e : Failure, e = e.contexts.foldr .inContext e.root ∧ e.root.kind ≠ .withContext ∧
      (∀ typeName fieldName, e.root = .authorization typeName fieldName →
        e.userMessage = Failure.authorizationText typeName fieldName) ∧
      ∀ text, e.root = .schema text ∨ e.root = .policy text ∨ e.root = .validation text →
        e.userMessage = text ++ String.join (e.contexts.reverse.map (": " ++ ·)) := by
  constructor
  · intro e
    rw [← Visit.resolve_eq_error_iff]
    -- Only the outermost level can fail, and the rest is made from what it yields.
    exact map_eq_error_iff _ _ e
  · intro e
    refine ⟨e.eq_foldr_contexts, e.kind_root, e.userMessage_of_authorization, ?_⟩
    rintro text (hroot | hroot | hroot)
    all_goals
      have hkind : e.root.kind ≠ .authorization := by
        rw [hroot]
        exact nofun
      rw [e.userMessage_eq_join hkind, hroot]
      rfl

namespace Blog

/-- The posts of all users with one field of their authors. -/
def authorsWith (name : String) : QueryNode where
  name := "users"
  aliasName := none
  fieldsByTypeName := [("User", [
    ("posts", ⟨"posts", none, [("Post", [leaf "title",
      ("author", ⟨"author", none, [("User", [leaf name])], []⟩)])], []⟩)])]
  args := []

end Blog

/-- Two failures two relations below the users. Who asks for a field that does not exist is
    told the way to it, and who asks for a hidden one is not. -/
theorem compileQuery_failurePath_authors :
    let contexts := ["while resolving 'User.posts'", "while resolving 'Post.author'"]
    ∃ unknown hidden, Blog.schema.compileQuery 3 false none (Blog.authorsWith "age") =
        .error unknown ∧
      (∃ last, (Visit.outermost none (Blog.authorsWith "age")).Reaches Blog.schema false contexts
        last ∧ last.Raises Blog.schema false (.unknownField "User" "age")) ∧
      unknown.userMessage = "The field 'User.age' is not available" ++
        ": while resolving 'Post.author'" ++ ": while resolving 'User.posts'" ∧
      Blog.schema.compileQuery 3 false none (Blog.authorsWith "email") = .error hidden ∧
      hidden.contexts = contexts ∧
      hidden.userMessage = "The field 'User.email' is not available without authentication" := by
  intro contexts
  let unknown := contexts.foldr Failure.inContext (.unknownField "User" "age")
  let hidden := contexts.foldr Failure.inContext (.authorization "User" "email")
  have hunknown : Blog.schema.compileQuery 3 false none (Blog.authorsWith "age") =
      .error unknown := rfl
  have hpath := compileQuery_failurePath Blog.schema 3 false none (Blog.authorsWith "age")
  refine ⟨unknown, hidden, hunknown, (hpath.1 unknown).mp hunknown, ?_, rfl, rfl, ?_⟩
  · exact ((hpath.2 unknown).2.2.2 _ (Or.inl rfl)).trans rfl
  · exact (hpath.2 hidden).2.2.1 "User" "email" rfl

end ViewCompiler
