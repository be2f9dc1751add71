import ViewCompiler.Proofs.ReadBack
import ViewCompiler.Proofs.SortedValues
import ViewCompiler.Schema.Json

/-!
# Restoring What Was Written

What it means that a decoder undoes a writer, and how that is put together.

A decoder restores something from a value if it finds it in the document of the
value. Two more things have to be known before it finds it in the text. The
value must be one that is read back, and the decoder must be given enough
budget: it stops at a fixed nesting, whatever the text is. So `Restores` has a
depth, from which on a budget is enough, and every law of this module says what
depth a compound needs if its parts need theirs. A record or a sequence needs
one more than its parts.

There is one law for each way in which decoders are built. The law of records
is for the decoders that start by looking for fields: an object whose names are
all different always has them, whatever order it lists them in, so what is left
to say of a record is what its decoder makes of the fields.

For a free value the depth is its own nesting, and the names of its objects
have to be in order, because that is how they are when they are read.

## Main definitions

* `Value.nesting`: How many arrays and objects of a value are in one another.
* `Decoder.Restores`: A decoder finds something in a value.

## Theorems

* `Decoder.Restores.optional`, `Decoder.Restores.list`,
  `Decoder.Restores.entries`, `Decoder.Restores.record`: The laws of compounds.
* `Decoder.restores_value`, `Decoder.restores_values`: Free values are restored
  within their nesting.
* `Decoder.Restores.decode?_compact`: What is restored is found in the text.
-/

namespace ViewCompiler

namespace Json

/-! ### Nesting -/

mutual
/-- How many arrays and objects of a value are in one another. -/
def Value.nesting : Value → Nat
  | .array items => Value.itemsNesting items + 1
  | .object members => Value.membersNesting members + 1
  | _ => 0
def Value.itemsNesting : List Value → Nat
  | [] => 0
  | v :: vs => max v.nesting (Value.itemsNesting vs)
def Value.membersNesting : List (String × Value) → Nat
  | [] => 0
  | (_, v) :: ms => max v.nesting (Value.membersNesting ms)
end

theorem Value.nesting_le_membersNesting (members : List (String × Value)) (m : String × Value)
    (h : m ∈ members) : m.2.nesting ≤ Value.membersNesting members := by
  induction members with
  | nil => exact absurd h List.not_mem_nil
  | cons n rest ih =>
      rw [Value.membersNesting]
      rcases List.mem_cons.mp h with rfl | hrest
      · exact Nat.le_max_left _ _
      · exact Nat.le_trans (ih hrest) (Nat.le_max_right _ _)

/-! ### Parts of values -/

theorem Value.itemsWhole_iff (items : List Value) :
    Value.ItemsWhole items ↔ ∀ v ∈ items, v.Whole := by
  induction items with
  | nil => simp [Value.ItemsWhole]
  | cons v rest ih => rw [Value.ItemsWhole, ih, List.forall_mem_cons]

theorem Value.membersWhole_iff (members : List (String × Value)) :
    Value.MembersWhole members ↔ ∀ m ∈ members, m.2.Whole := by
  induction members with
  | nil => simp [Value.MembersWhole]
  | cons m rest ih =>
      rcases m with ⟨k, v⟩
      rw [Value.MembersWhole, ih, List.forall_mem_cons]

theorem Value.itemDocuments_eq_map (items : List Value) :
    Value.itemDocuments items = items.map Value.document := by
  induction items with
  | nil => rfl
  | cons v rest ih => rw [Value.itemDocuments, ih, List.map_cons]

theorem Value.memberDocuments_eq_map (members : List (String × Value)) :
    Value.memberDocuments members = members.map fun m => (m.1, m.2.document) := by
  induction members with
  | nil => rfl
  | cons m rest ih =>
      rcases m with ⟨k, v⟩
      rw [Value.memberDocuments, ih, List.map_cons]

/-- Different names are looked for at most once each, so every record takes an
    object in which they are. -/
theorem Document.fields?_of_nodup (names : List String) (members : List (String × Document))
    (h : (Entries.keys members).Nodup) : (Document.object members).fields? names = some members := by
  have honce : ∀ name, (members.filter fun m => m.1 == name).length ≤ 1 := by
    intro name
    have hcount : (members.filter fun m => m.1 == name).length =
        (Entries.keys members).count name := by
      rw [Entries.keys, List.count, List.countP_map, List.countP_eq_length_filter]
      rfl
    rw [hcount]
    exact List.nodup_iff_count.mp h name
  rw [Document.fields?, if_pos (by simp [honce])]

@[simp]
theorem required_cons {α : Type} (key name : String) (d : Document) (rest : Entries Document)
    (read : Document → Option α) :
    required ((key, d) :: rest) name read =
      if key = name then read d else required rest name read := by
  rw [required, Entries.get?]
  by_cases hkey : key = name
  · rw [if_pos hkey, if_pos hkey]
  · rw [if_neg hkey, if_neg hkey, required]

@[simp]
theorem defaulted_nil {α : Type} (name : String) (read : Document → Option α) (value : α) :
    defaulted [] name read value = some value := rfl

@[simp]
theorem defaulted_cons {α : Type} (key name : String) (d : Document) (rest : Entries Document)
    (read : Document → Option α) (value : α) :
    defaulted ((key, d) :: rest) name read value =
      if key = name then read d else defaulted rest name read value := by
  rw [defaulted, Entries.get?]
  by_cases hkey : key = name
  · rw [if_pos hkey, if_pos hkey]
  · rw [if_neg hkey, if_neg hkey, defaulted]

@[simp]
theorem Value.whole_string (s : String) : (Value.string s).Whole := trivial

@[simp]
theorem Value.whole_bool (b : Bool) : (Value.bool b).Whole := trivial

@[simp]
theorem Decoder.text_document (budget : Nat) (s : String) :
    Decoder.text budget (Value.string s).document = some s := by
  rw [Value.document, Decoder.text]

@[simp]
theorem Decoder.flag_document (budget : Nat) (b : Bool) :
    Decoder.flag budget (Value.bool b).document = some b := by
  rw [Value.document, Decoder.flag]

/-! ### Laws -/

/-- The decoder finds `a` in `v`, and in its text, if it is given a budget of at
    least `depth`. -/
structure Decoder.Restores {α : Type} (decoder : Decoder α) (depth : Nat) (v : Value) (a : α) :
    Prop where
  whole : v.Whole
  reads : ∀ budget, depth ≤ budget → decoder budget v.document = some a

namespace Decoder

variable {α : Type} {decoder : Decoder α} {depth : Nat}

theorem Restores.mono {v : Value} {a : α} (h : decoder.Restores depth v a) {more : Nat}
    (hmore : depth ≤ more) : decoder.Restores more v a :=
  ⟨h.whole, fun budget hbudget => h.reads budget (Nat.le_trans hmore hbudget)⟩

theorem restores_text (s : String) : text.Restores depth (.string s) s :=
  ⟨Value.whole_string s, fun budget _ => text_document budget s⟩

theorem restores_choice (named : String → Option α) (name : String) (a : α)
    (h : named name = some a) : (choice named).Restores depth (.string name) a :=
  ⟨Value.whole_string name, fun _ _ => by rw [Value.document, choice, h]⟩

/-- Something that may be absent, provided that it is not written as if it
    were. -/
theorem Restores.optional (write : α → Value) (hnull : ∀ a, (write a).isNull = false)
    (o : Option α) (h : ∀ a, decoder.Restores depth (write a) a) :
    decoder.optional.Restores depth (Schema.optionToJson write o) o := by
  cases o with
  | none => exact ⟨trivial, fun budget _ => by rw [Schema.optionToJson, Value.document]; rfl⟩
  | some a =>
      refine ⟨(h a).whole, fun budget hbudget => ?_⟩
      have hread := (h a).reads budget hbudget
      have hsome := hnull a
      rw [Schema.optionToJson]
      -- Only a null would be taken for something absent.
      cases hv : write a with
      | null =>
          rw [hv] at hsome
          exact Bool.noConfusion hsome
      | _ =>
          rw [hv] at hread
          rw [Value.document] at hread ⊢
          rw [Decoder.optional, hread, Option.map_some]
          exact fun heq => Document.noConfusion heq

theorem restores_optionalString (o : Option String) :
    text.optional.Restores depth (Value.optionalString o) o := by
  have hwrite : Value.optionalString o = Schema.optionToJson Value.string o := by
    cases o <;> rfl
  rw [hwrite]
  exact Restores.optional Value.string (fun _ => rfl) o restores_text

theorem Restores.list (write : α → Value) (items : List α)
    (h : ∀ a ∈ items, decoder.Restores depth (write a) a) :
    decoder.list.Restores (depth + 1) (.array (items.map write)) items := by
  refine ⟨?_, fun budget hbudget => ?_⟩
  · rw [Value.Whole, Value.itemsWhole_iff, List.forall_mem_map]
    exact fun a ha => (h a ha).whole
  · obtain ⟨k, rfl⟩ : ∃ k, budget = k + 1 := ⟨budget - 1, by omega⟩
    rw [Value.document, Value.itemDocuments_eq_map, Decoder.list, Document.items?, List.map_map]
    exact mapM_map_of_forall _ _ items fun a ha => (h a ha).reads k (by omega)

theorem Restores.entries (write : α → Value) (entries : Entries α)
    (hnodup : (Entries.keys entries).Nodup)
    (h : ∀ entry ∈ entries, decoder.Restores depth (write entry.2) entry.2) :
    decoder.entries.Restores (depth + 1)
      (.object (entries.map fun entry => (entry.1, write entry.2))) entries := by
  refine ⟨?_, fun budget hbudget => ?_⟩
  · rw [Value.Whole, Value.membersWhole_iff, List.forall_mem_map]
    exact fun entry hentry => (h entry hentry).whole
  · obtain ⟨k, rfl⟩ : ∃ k, budget = k + 1 := ⟨budget - 1, by omega⟩
    have hmembers := mapM_map_of_forall (fun entry => (entry.1, (write entry.2).document))
      (fun m => (decoder k m.2).map fun v => (m.1, v)) entries fun entry hentry => by
        rw [(h entry hentry).reads k (by omega), Option.map_some]
    rw [Value.document, Value.memberDocuments_eq_map, List.map_map, Decoder.entries,
      Document.entries?]
    exact (congrArg _ hmembers).trans (by rw [Option.map_some, Entries.ofList_of_nodup _ hnodup])

theorem Restores.record {names : List String} {read : Nat → Entries Document → Option α}
    (hdecoder : ∀ budget d, decoder (budget + 1) d = (d.fields? names).bind (read budget))
    {members : List (String × Value)} {a : α} (hnodup : (Entries.keys members).Nodup)
    (hwhole : ∀ m ∈ members, m.2.Whole)
    (hread : ∀ budget, depth ≤ budget → read budget (Value.memberDocuments members) = some a) :
    decoder.Restores (depth + 1) (.object members) a := by
  refine ⟨by rwa [Value.Whole, Value.membersWhole_iff], fun budget hbudget => ?_⟩
  obtain ⟨k, rfl⟩ : ∃ k, budget = k + 1 := ⟨budget - 1, by omega⟩
  have hkeys : (Entries.keys (Value.memberDocuments members)).Nodup := by
    rw [Value.memberDocuments_eq_map, Entries.keys, List.map_map]
    exact hnodup
  rw [Value.document, hdecoder, Document.fields?_of_nodup names _ hkeys, Option.bind_some,
    hread k (by omega)]

mutual
/-- A value whose objects are in order is read from its document. -/
theorem value_document (v : Value) (hv : v.Sorted) (budget : Nat) (h : v.nesting ≤ budget) :
    value budget v.document = some v := by
  match v with
  | .null | .bool _ | .number _ | .string _ => rw [Value.document, value]
  | .array items =>
      rw [Value.Sorted] at hv
      rw [Value.nesting] at h
      obtain ⟨k, rfl⟩ : ∃ k, budget = k + 1 := ⟨budget - 1, by omega⟩
      rw [Value.document, value, values_documents items hv k (by omega), Option.map_some]
  | .object members =>
      rw [Value.Sorted] at hv
      rw [Value.nesting] at h
      obtain ⟨k, rfl⟩ : ∃ k, budget = k + 1 := ⟨budget - 1, by omega⟩
      rw [Value.document, value, memberValues_documents members hv.2 k (by omega), Option.map_some,
        Entries.sortedOfList_of_sorted members hv.1]
theorem values_documents (items : List Value) (hitems : Value.ItemsSorted items) (budget : Nat)
    (h : Value.itemsNesting items ≤ budget) :
    values budget (Value.itemDocuments items) = some items := by
  match items with
  | [] => rw [Value.itemDocuments, values]
  | v :: rest =>
      rw [Value.itemsNesting, Nat.max_le] at h
      rw [Value.itemDocuments, values, value_document v hitems.1 budget h.1,
        values_documents rest hitems.2 budget h.2]
      rfl
theorem memberValues_documents (members : List (String × Value))
    (hmembers : Value.MembersSorted members) (budget : Nat)
    (h : Value.membersNesting members ≤ budget) :
    memberValues budget (Value.memberDocuments members) = some members := by
  match members with
  | [] => rw [Value.memberDocuments, memberValues]
  | (name, v) :: rest =>
      rw [Value.membersNesting, Nat.max_le] at h
      rw [Value.memberDocuments, memberValues, value_document v hmembers.1 budget h.1,
        memberValues_documents rest hmembers.2 budget h.2]
      rfl
end

theorem restores_value (v : Value) (hwhole : v.Whole) (hsorted : v.Sorted) :
    value.Restores v.nesting v v :=
  ⟨hwhole, fun budget h => value_document v hsorted budget h⟩

/-- Named values, as arguments and input are. -/
theorem restores_values (entries : Entries Value) (hnodup : (Entries.keys entries).Nodup)
    (hwhole : Value.MembersWhole entries) (hsorted : ∀ entry ∈ entries, entry.2.Sorted) :
    value.entries.Restores (Value.object entries).nesting (.object entries) entries := by
  have hentries := Restores.entries id entries hnodup fun entry hentry =>
    (restores_value entry.2 ((Value.membersWhole_iff entries).mp hwhole entry hentry)
      (hsorted entry hentry)).mono (Value.nesting_le_membersNesting entries entry hentry)
  have hwritten : entries.map (fun entry => (entry.1, id entry.2)) = entries := List.map_id entries
  rw [hwritten] at hentries
  rw [Value.nesting]
  exact hentries

/-- What is restored is found in the text, within the nesting that a text may
    have. -/
theorem Restores.decode?_compact {v : Value} {a : α} (h : decoder.Restores depth v a)
    (hdepth : depth ≤ nestingLimit) : decode? decoder (Text.symbols v.compact) = some a := by
  rw [decode?, Document.read?_compact v h.whole, Option.bind_eq_bind, Option.bind_some,
    h.reads nestingLimit hdepth]

end Decoder

end Json

end ViewCompiler
