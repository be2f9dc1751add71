/-!
# Keyed Entries

Lists of named values whose order is part of their meaning.

A schema lists its entities, an entity its fields and a request its
arguments in the order in which they were written, and that order reaches the
compiled statement. A list of pairs keeps it. Writing to a name that is
already there replaces the value where it stands, so a repeated name keeps
its first place and takes its last value.

Free JSON objects are the exception: they are held in the order of their
names, which `insertSorted` maintains. Names are compared by code points,
which is also the order of their UTF-8 bytes.

## Main definitions

* `Entries`: Named values in order.
* `Entries.get?`: Reading the value of a name.
* `Entries.put`: Writing a value under a name.
* `Entries.insertSorted`: The same, keeping the names in order.

## Theorems

* `Entries.keys_put`: Writing adds a name at the end, or no name at all.
* `Entries.get?_put`: What is read after a write.
* `Entries.nodup_keys_ofList`: Writes leave every name once.
* `Entries.ofList_of_nodup`: Writes of different names are kept as they are.
* `Entries.mem_of_get?`: What is read is there.
* `Entries.get?_of_mem`: What is there is read, if no name repeats.
-/

namespace ViewCompiler

/-- Named values in the order in which the names were first written. -/
abbrev Entries (α : Type) := List (String × α)

namespace Entries

variable {α : Type}

/-- The names, in order. -/
def keys (entries : Entries α) : List String :=
  entries.map Prod.fst

/-- The value under `key`. -/
def get? (key : String) : Entries α → Option α
  | [] => none
  | (k, v) :: rest => if k = key then some v else get? key rest

/-- Write `value` under `key`: in place if the name is there, otherwise at
    the end. -/
def put (key : String) (value : α) : Entries α → Entries α
  | [] => [(key, value)]
  | (k, v) :: rest => if k = key then (k, value) :: rest else (k, v) :: put key value rest

/-- Write `value` under `key` into entries that are in the order of their
    names. -/
def insertSorted (key : String) (value : α) : Entries α → Entries α
  | [] => [(key, value)]
  | (k, v) :: rest =>
      if k = key then (k, value) :: rest
      else if key < k then (key, value) :: (k, v) :: rest
      else (k, v) :: insertSorted key value rest

/-- Entries as they stand after the writes of a list, from left to right. -/
def ofList (writes : List (String × α)) : Entries α :=
  writes.foldl (fun entries w => put w.1 w.2 entries) []

/-- Entries in the order of their names, after the writes of a list. -/
def sortedOfList (writes : List (String × α)) : Entries α :=
  writes.foldl (fun entries w => insertSorted w.1 w.2 entries) []

theorem keys_put (key : String) (value : α) (entries : Entries α) :
    keys (put key value entries) =
      if key ∈ keys entries then keys entries else keys entries ++ [key] := by
  induction entries with
  | nil => simp [put, keys]
  | cons head rest ih =>
      rcases head with ⟨k, v⟩
      by_cases hk : k = key
      · simp [put, keys, hk]
      · have hk' : ¬ key = k := fun h => hk h.symm
        simp only [put, if_neg hk, keys, List.map_cons, List.mem_cons, hk', false_or] at ih ⊢
        by_cases hm : key ∈ List.map Prod.fst rest <;> simp only [ih, hm, if_pos, if_neg,
          not_false_eq_true, List.cons_append]

theorem get?_put (key other : String) (value : α) (entries : Entries α) :
    get? other (put key value entries) =
      if key = other then some value else get? other entries := by
  induction entries with
  | nil => simp [put, get?]
  | cons head rest ih =>
      rcases head with ⟨k, v⟩
      by_cases hk : k = key
      · subst hk
        by_cases ho : k = other <;> simp [put, get?, ho]
      · by_cases ho : k = other
        · subst ho
          simp [put, get?, hk, Ne.symm hk]
        · simp [put, get?, hk, ho, ih]

theorem nodup_keys_put (key : String) (value : α) (entries : Entries α)
    (h : (keys entries).Nodup) : (keys (put key value entries)).Nodup := by
  rw [keys_put]
  by_cases hmem : key ∈ keys entries
  · rw [if_pos hmem]
    exact h
  · rw [if_neg hmem, List.nodup_append]
    refine ⟨h, by simp, ?_⟩
    rintro a ha b hb rfl
    exact hmem (List.mem_singleton.mp hb ▸ ha)

theorem nodup_keys_ofList (writes : List (String × α)) : (keys (ofList writes)).Nodup := by
  suffices hfold : ∀ entries : Entries α, (keys entries).Nodup →
      (keys (writes.foldl (fun entries w => put w.1 w.2 entries) entries)).Nodup from
    hfold [] List.Pairwise.nil
  induction writes with
  | nil => exact fun entries h => h
  | cons w rest ih => exact fun entries h => ih _ (nodup_keys_put w.1 w.2 entries h)

/-- If a write under a name that is related to all names before it goes to the
    end, writes whose names are so related are kept as they are. -/
theorem foldl_of_pairwise (write : String → α → Entries α → Entries α)
    (r : String → String → Prop)
    (hwrite : ∀ key value entries, (∀ name ∈ keys entries, r name key) →
      write key value entries = entries ++ [(key, value)])
    (writes : List (String × α)) (h : (keys writes).Pairwise r) :
    writes.foldl (fun entries w => write w.1 w.2 entries) [] = writes := by
  -- What has been written so far is in front of what is to come.
  suffices hfold : ∀ entries : Entries α, (keys (entries ++ writes)).Pairwise r →
      writes.foldl (fun entries w => write w.1 w.2 entries) entries = entries ++ writes from
    hfold [] h
  clear h
  induction writes with
  | nil => exact fun entries _ => (List.append_nil entries).symm
  | cons w rest ih =>
      intro entries h
      have hbefore : ∀ name ∈ keys entries, r name w.1 := by
        rw [keys, List.map_append, List.pairwise_append] at h
        exact fun name hname => h.2.2 name hname w.1 List.mem_cons_self
      rw [List.append_cons] at h
      rw [List.foldl_cons, hwrite w.1 w.2 entries hbefore, ih _ h, ← List.append_cons]

theorem put_of_forall_ne (key : String) (value : α) (entries : Entries α)
    (h : ∀ name ∈ keys entries, name ≠ key) :
    put key value entries = entries ++ [(key, value)] := by
  induction entries with
  | nil => rfl
  | cons head rest ih =>
      rcases head with ⟨k, v⟩
      rw [keys, List.map_cons, List.forall_mem_cons] at h
      rw [put, if_neg h.1, ih h.2, List.cons_append]

theorem ofList_of_nodup (writes : List (String × α)) (h : (keys writes).Nodup) :
    ofList writes = writes :=
  foldl_of_pairwise put (· ≠ ·) put_of_forall_ne writes h

theorem mem_of_get? (entries : Entries α) (key : String) (value : α)
    (h : entries.get? key = some value) : (key, value) ∈ entries := by
  induction entries with
  | nil => simp only [Entries.get?, reduceCtorEq] at h
  | cons entry rest ih =>
      rcases entry with ⟨k, v⟩
      rw [Entries.get?] at h
      by_cases hk : k = key
      · rw [if_pos hk] at h
        rw [hk, Option.some.inj h]
        exact List.mem_cons_self
      · rw [if_neg hk] at h
        exact List.mem_cons_of_mem _ (ih h)

theorem get?_of_mem (entries : Entries α) (h : (keys entries).Nodup) (key : String) (value : α)
    (hmem : (key, value) ∈ entries) : entries.get? key = some value := by
  induction entries with
  | nil => exact absurd hmem List.not_mem_nil
  | cons entry rest ih =>
      rcases entry with ⟨k, v⟩
      rw [keys, List.map_cons, List.nodup_cons] at h
      rw [Entries.get?]
      rcases List.mem_cons.mp hmem with heq | hrest
      · rw [Prod.mk.injEq] at heq
        rw [if_pos heq.1.symm, heq.2]
      · have hne : k ≠ key := fun heq => h.1 (List.mem_map.mpr ⟨(key, value), hrest, heq.symm⟩)
        rw [if_neg hne]
        exact ih h.2 hrest

end Entries

end ViewCompiler
