import Mathlib.Data.List.Pairwise
import ViewCompiler.Request.Json

/-!
# Values in Order

The objects of a request hold their members in the order of their names.

A value does not have to be in order: its type admits the members of an object
in any order, and a name more than once. What is read from a text is in order
though, in every object at every depth, because reading an object inserts one
member after the other where it belongs (`Decoder.value_sorted`). Whatever goes
through the members of an object of a request one by one therefore goes through
them in the order of their names.

## Main definitions

* `Value.Sorted`: A value in which the members of all objects are in order.
* `QueryNode.Sorted`: A query of which all arguments are.

## Theorems

* `Entries.keys_sortedOfList`: Entries are in order after sorted writes.
* `Entries.sortedOfList_of_sorted`: Writes in order are kept as they are.
* `Decoder.value_sorted`: Values that are read are in order.
* `QueryNode.sorted_of_ofText?`: So are the arguments of queries.
-/

namespace ViewCompiler

open Json

/-! ### Entries -/

namespace Entries

variable {α : Type}

theorem mem_of_mem_put (key : String) (value : α) (entries : Entries α) (p : String × α)
    (h : p ∈ put key value entries) : p = (key, value) ∨ p ∈ entries := by
  induction entries with
  | nil => exact Or.inl (List.mem_singleton.mp h)
  | cons head rest ih =>
      rcases head with ⟨k, v⟩
      by_cases hk : k = key
      · simp only [put, if_pos hk, List.mem_cons] at h
        rcases h with rfl | hrest
        · exact Or.inl (by rw [hk])
        · exact Or.inr (List.mem_cons_of_mem _ hrest)
      · simp only [put, if_neg hk, List.mem_cons] at h
        rcases h with rfl | hrest
        · exact Or.inr List.mem_cons_self
        · exact (ih hrest).imp_right (List.mem_cons_of_mem _)

theorem mem_of_mem_insertSorted (key : String) (value : α) (entries : Entries α) (p : String × α)
    (h : p ∈ insertSorted key value entries) : p = (key, value) ∨ p ∈ entries := by
  induction entries with
  | nil => exact Or.inl (List.mem_singleton.mp h)
  | cons head rest ih =>
      rcases head with ⟨k, v⟩
      by_cases hk : k = key
      · simp only [insertSorted, if_pos hk, List.mem_cons] at h
        rcases h with rfl | hrest
        · exact Or.inl (by rw [hk])
        · exact Or.inr (List.mem_cons_of_mem _ hrest)
      · by_cases hlt : key < k
        · simp only [insertSorted, if_neg hk, if_pos hlt] at h
          exact List.mem_cons.mp h
        · simp only [insertSorted, if_neg hk, if_neg hlt, List.mem_cons] at h
          rcases h with rfl | hrest
          · exact Or.inr List.mem_cons_self
          · exact (ih hrest).imp_right (List.mem_cons_of_mem _)

/-- If every write leaves behind what it writes and what was there, all that is
    there after several writes was written or there before. -/
theorem mem_of_mem_foldl (write : String → α → Entries α → Entries α)
    (hwrite : ∀ key value entries p, p ∈ write key value entries → p = (key, value) ∨ p ∈ entries)
    (writes : List (String × α)) (entries : Entries α) (p : String × α)
    (h : p ∈ writes.foldl (fun entries w => write w.1 w.2 entries) entries) :
    p ∈ writes ∨ p ∈ entries := by
  induction writes generalizing entries with
  | nil => exact Or.inr h
  | cons w rest ih =>
      rcases ih (write w.1 w.2 entries) h with hrest | hentries
      · exact Or.inl (List.mem_cons_of_mem w hrest)
      · rcases hwrite w.1 w.2 entries p hentries with rfl | hbefore
        · exact Or.inl List.mem_cons_self
        · exact Or.inr hbefore

theorem mem_of_mem_ofList (writes : List (String × α)) (p : String × α)
    (h : p ∈ ofList writes) : p ∈ writes :=
  (mem_of_mem_foldl put mem_of_mem_put writes [] p h).resolve_right List.not_mem_nil

theorem mem_of_mem_sortedOfList (writes : List (String × α)) (p : String × α)
    (h : p ∈ sortedOfList writes) : p ∈ writes :=
  (mem_of_mem_foldl insertSorted mem_of_mem_insertSorted writes [] p h).resolve_right
    List.not_mem_nil

/-- A sorted write keeps entries in order, each name once. -/
theorem keys_insertSorted (key : String) (value : α) (entries : Entries α)
    (h : (keys entries).Pairwise (· < ·)) :
    (keys (insertSorted key value entries)).Pairwise (· < ·) := by
  induction entries with
  | nil => exact List.pairwise_singleton _ key
  | cons head rest ih =>
      rcases head with ⟨k, v⟩
      rw [keys, List.map_cons, List.pairwise_cons] at h
      by_cases hk : k = key
      · rw [insertSorted, if_pos hk, keys, List.map_cons, List.pairwise_cons]
        exact h
      · by_cases hlt : key < k
        · rw [insertSorted, if_neg hk, if_pos hlt, keys, List.map_cons, List.pairwise_cons]
          refine ⟨fun name hname => ?_, List.pairwise_cons.mpr h⟩
          rcases List.mem_cons.mp hname with rfl | hrest
          · exact hlt
          · exact String.lt_trans hlt (h.1 name hrest)
        -- The name is behind that of the first entry, and all others are too.
        · rw [insertSorted, if_neg hk, if_neg hlt, keys, List.map_cons, List.pairwise_cons]
          refine ⟨fun name hname => ?_, ih h.2⟩
          rcases List.mem_map.mp hname with ⟨p, hp, rfl⟩
          rcases mem_of_mem_insertSorted key value rest p hp with rfl | hrest
          · exact Std.lt_of_le_of_ne hlt hk
          · exact h.1 p.1 (List.mem_map_of_mem hrest)

theorem keys_sortedOfList (writes : List (String × α)) :
    (keys (sortedOfList writes)).Pairwise (· < ·) := by
  suffices hfold : ∀ entries : Entries α, (keys entries).Pairwise (· < ·) →
      (keys (writes.foldl (fun entries w => insertSorted w.1 w.2 entries) entries)).Pairwise
        (· < ·) from hfold [] List.Pairwise.nil
  induction writes with
  | nil => exact fun entries h => h
  | cons w rest ih => exact fun entries h => ih _ (keys_insertSorted w.1 w.2 entries h)

theorem insertSorted_of_forall_lt (key : String) (value : α) (entries : Entries α)
    (h : ∀ name ∈ keys entries, name < key) :
    insertSorted key value entries = entries ++ [(key, value)] := by
  induction entries with
  | nil => rfl
  | cons head rest ih =>
      rcases head with ⟨k, v⟩
      rw [keys, List.map_cons, List.forall_mem_cons] at h
      have hne : k ≠ key := fun heq => String.lt_irrefl key (heq ▸ h.1)
      rw [insertSorted, if_neg hne, if_neg (String.lt_asymm h.1), ih h.2, List.cons_append]

theorem sortedOfList_of_sorted (writes : List (String × α)) (h : (keys writes).Pairwise (· < ·)) :
    sortedOfList writes = writes :=
  foldl_of_pairwise insertSorted (· < ·) insertSorted_of_forall_lt writes h

end Entries

/-! ### Values -/

namespace Json

mutual
/-- A value in which the members of every object are in the order of their
    names, each name once. -/
def Value.Sorted : Value → Prop
  | .array items => Value.ItemsSorted items
  | .object members => (Entries.keys members).Pairwise (· < ·) ∧ Value.MembersSorted members
  | _ => True
def Value.ItemsSorted : List Value → Prop
  | [] => True
  | v :: vs => v.Sorted ∧ Value.ItemsSorted vs
def Value.MembersSorted : List (String × Value) → Prop
  | [] => True
  | (_, v) :: ms => v.Sorted ∧ Value.MembersSorted ms
end

theorem Value.membersSorted_iff (members : List (String × Value)) :
    Value.MembersSorted members ↔ ∀ m ∈ members, m.2.Sorted := by
  induction members with
  | nil => simp [Value.MembersSorted]
  | cons m rest ih =>
      rcases m with ⟨k, v⟩
      rw [Value.MembersSorted, ih, List.forall_mem_cons]

mutual
/-- What is read is in order. -/
theorem Decoder.value_sorted (budget : Nat) (d : Document) (v : Value)
    (h : Decoder.value budget d = some v) : v.Sorted := by
  match budget, d with
  | budget + 1, .array items =>
      simp only [Decoder.value, Option.map_eq_some_iff] at h
      rcases h with ⟨vs, hvs, rfl⟩
      rw [Value.Sorted]
      exact Decoder.values_sorted budget items vs hvs
  | budget + 1, .object members =>
      simp only [Decoder.value, Option.map_eq_some_iff] at h
      rcases h with ⟨ms, hms, rfl⟩
      rw [Value.Sorted, Value.membersSorted_iff]
      refine ⟨Entries.keys_sortedOfList ms, fun m hm => ?_⟩
      exact Decoder.memberValues_sorted budget members ms hms m
        (Entries.mem_of_mem_sortedOfList ms m hm)
  | 0, .array _ => simp only [Decoder.value, reduceCtorEq] at h
  | 0, .object _ => simp only [Decoder.value, reduceCtorEq] at h
  | _, .unreadable => simp only [Decoder.value, reduceCtorEq] at h
  | _, .null | _, .bool _ | _, .number _ | _, .string _ =>
      simp only [Decoder.value, Option.some.injEq] at h
      simp only [← h, Value.Sorted]
theorem Decoder.values_sorted (budget : Nat) (items : List Document) (vs : List Value)
    (h : Decoder.values budget items = some vs) : Value.ItemsSorted vs := by
  match items with
  | [] =>
      simp only [Decoder.values, Option.some.injEq] at h
      rw [← h, Value.ItemsSorted]
      trivial
  | d :: rest =>
      simp only [Decoder.values, Option.bind_eq_bind, Option.bind_eq_some_iff, Option.pure_def,
        Option.some.injEq] at h
      rcases h with ⟨v, hv, vs', hvs', rfl⟩
      exact ⟨Decoder.value_sorted budget d v hv, Decoder.values_sorted budget rest vs' hvs'⟩
theorem Decoder.memberValues_sorted (budget : Nat) (members : List (String × Document))
    (ms : List (String × Value)) (h : Decoder.memberValues budget members = some ms) :
    ∀ m ∈ ms, m.2.Sorted := by
  match members with
  | [] =>
      simp only [Decoder.memberValues, Option.some.injEq] at h
      rw [← h]
      exact fun m hm => absurd hm List.not_mem_nil
  | (k, d) :: rest =>
      simp only [Decoder.memberValues, Option.bind_eq_bind, Option.bind_eq_some_iff,
        Option.pure_def, Option.some.injEq] at h
      rcases h with ⟨v, hv, ms', hms', rfl⟩
      exact List.forall_mem_cons.mpr ⟨Decoder.value_sorted budget d v hv,
        Decoder.memberValues_sorted budget rest ms' hms'⟩
end

/-- Everything in an object that is read was read by the reader of members. -/
theorem Document.exists_of_mem_entries? {α : Type} (read : Document → Option α) (d : Document)
    (entries : Entries α) (h : d.entries? read = some entries) (p : String × α)
    (hp : p ∈ entries) : ∃ d', read d' = some p.2 := by
  cases d with
  | object members =>
      simp only [Document.entries?, Option.map_eq_some_iff] at h
      rcases h with ⟨ms, hms, rfl⟩
      have hread := Entries.mem_of_mem_ofList ms p hp
      clear hp
      induction members generalizing ms with
      | nil =>
          simp only [List.mapM_nil, Option.pure_def, Option.some.injEq] at hms
          rw [← hms] at hread
          exact absurd hread List.not_mem_nil
      | cons m rest ih =>
          simp only [List.mapM_cons, Option.bind_eq_bind, Option.bind_eq_some_iff,
            Option.map_eq_some_iff, Option.pure_def, Option.some.injEq] at hms
          rcases hms with ⟨_, ⟨v, hv, rfl⟩, ms', hms', rfl⟩
          rcases List.mem_cons.mp hread with rfl | hrest
          · exact ⟨m.2, hv⟩
          · exact ih ms' hms' hrest
  | _ => simp only [Document.entries?, reduceCtorEq] at h

/-- A field with a default is the default, or was read. -/
theorem defaulted_eq_some {α : Type} (fields : Entries Document) (name : String)
    (read : Document → Option α) (value a : α) (h : defaulted fields name read value = some a) :
    a = value ∨ ∃ d, read d = some a := by
  unfold defaulted at h
  split at h
  · exact Or.inl (Option.some.inj h).symm
  · exact Or.inr ⟨_, h⟩

end Json

/-! ### Queries -/

namespace QueryNode

mutual
/-- A query of which all arguments are in order, at every level. -/
def Sorted : QueryNode → Prop
  | .mk _ _ types args => (∀ arg ∈ args, arg.2.Sorted) ∧ TypesSorted types
def TypesSorted : List (String × List (String × QueryNode)) → Prop
  | [] => True
  | (_, fields) :: more => FieldsSorted fields ∧ TypesSorted more
def FieldsSorted : List (String × QueryNode) → Prop
  | [] => True
  | (_, node) :: rest => node.Sorted ∧ FieldsSorted rest
end

theorem typesSorted_of_forall (types : List (String × List (String × QueryNode)))
    (h : ∀ entry ∈ types, FieldsSorted entry.2) : TypesSorted types := by
  induction types with
  | nil => trivial
  | cons entry rest ih =>
      exact ⟨h entry List.mem_cons_self, ih fun e he => h e (List.mem_cons_of_mem entry he)⟩

theorem fieldsSorted_of_forall (fields : List (String × QueryNode))
    (h : ∀ entry ∈ fields, entry.2.Sorted) : FieldsSorted fields := by
  induction fields with
  | nil => trivial
  | cons entry rest ih =>
      exact ⟨h entry List.mem_cons_self, ih fun e he => h e (List.mem_cons_of_mem entry he)⟩

/-- What is read of a query is in order. By induction on the budget, as the three
    readers hand it down to each other. -/
theorem decoder_sorted (budget : Nat) :
    (∀ d node, decoder budget d = some node → node.Sorted) ∧
      (∀ d types, typesDecoder budget d = some types → TypesSorted types) ∧
      ∀ d fields, fieldsDecoder budget d = some fields → FieldsSorted fields := by
  induction budget with
  | zero =>
      simp only [decoder, typesDecoder, fieldsDecoder, reduceCtorEq, false_implies, implies_true,
        and_self]
  | succ budget ih =>
      rcases ih with ⟨ihnode, ihtypes, ihfields⟩
      refine ⟨fun d node h => ?_, fun d types h => ?_, fun d fields h => ?_⟩
      · simp only [decoder, Option.bind_eq_bind, Option.bind_eq_some_iff, Option.pure_def,
          Option.some.injEq] at h
        rcases h with ⟨fields, _, name, _, aliasName, _, types, htypes, args, hargs, rfl⟩
        constructor
        · intro arg harg
          rcases defaulted_eq_some fields "args" _ [] args hargs with rfl | ⟨d', hd'⟩
          · exact absurd harg List.not_mem_nil
          · cases budget with
            | zero => simp only [Decoder.entries, reduceCtorEq] at hd'
            | succ budget =>
                rcases Document.exists_of_mem_entries? _ d' args hd' arg harg with ⟨d'', hd''⟩
                exact Decoder.value_sorted budget d'' arg.2 hd''
        · rcases defaulted_eq_some fields "fieldsByTypeName" _ [] types htypes with
            rfl | ⟨d', hd'⟩
          · trivial
          · exact ihtypes d' types hd'
      · refine typesSorted_of_forall types fun entry hentry => ?_
        rcases Document.exists_of_mem_entries? _ d types h entry hentry with ⟨d', hd'⟩
        exact ihfields d' entry.2 hd'
      · refine fieldsSorted_of_forall fields fun entry hentry => ?_
        rcases Document.exists_of_mem_entries? _ d fields h entry hentry with ⟨d', hd'⟩
        exact ihnode d' entry.2 hd'

theorem sorted_of_ofText? (text : List Text.Symbol) (node : QueryNode)
    (h : ofText? text = some node) : node.Sorted := by
  simp only [ofText?, decode?, Option.bind_eq_bind, Option.bind_eq_some_iff] at h
  rcases h with ⟨document, _, hnode⟩
  exact (decoder_sorted nestingLimit).1 document node hnode

end QueryNode

end ViewCompiler
