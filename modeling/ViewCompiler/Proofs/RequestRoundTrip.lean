import ViewCompiler.Proofs.Restoring

/-!
# Requests Survive Being Written

A request that is written and read again is the same request.

A schema is restored because it was loaded; a request is restored because of
what it is. Four conditions are needed, and each of them keeps out a request
that would come back changed or not at all. The names of a map must be
different, or the entries of one name become one (`QueryNode.Distinct`). The
objects inside an argument must be in the order of their names, because that is
the order in which they are read (`QueryNode.Sorted`). The numbers must be whole
and fit 64 bits, and the text must not nest more deeply than a text may; both
are conditions on what is written, `Value.Whole` and `Value.nesting`.

The type of a query is recursive through two maps, from types to fields and from
fields to nodes, and so are its writer and its reader. The reader hands down a
budget, and a node takes three of it: one for itself and one for either map. The
nesting of what a node is written as counts the same three, so the induction
over the tree never has to compare two ways of counting.

## Main definitions

* `QueryNode.Distinct`: A query without repeated names.

## Theorems

* `QueryNode.restores`: A query is restored from what it is written as.
* `MutationRequest.restores`: So is a mutation.
* `request_ofText?_toJson`: Requests survive being written.
-/

namespace ViewCompiler

open Json

namespace QueryNode

mutual
/-- A query without repeated names: among the arguments of a node, among its
    types, and among the fields of a type. -/
def Distinct : QueryNode → Prop
  | .mk _ _ types args =>
      (Entries.keys args).Nodup ∧ (Entries.keys types).Nodup ∧ TypesDistinct types
def TypesDistinct : List (String × List (String × QueryNode)) → Prop
  | [] => True
  | (_, fields) :: more => (Entries.keys fields).Nodup ∧ FieldsDistinct fields ∧ TypesDistinct more
def FieldsDistinct : List (String × QueryNode) → Prop
  | [] => True
  | (_, node) :: rest => node.Distinct ∧ FieldsDistinct rest
end

/-! ### The two maps between nodes -/

theorem typesDecoder_eq : typesDecoder = fieldsDecoder.entries := by
  funext budget d
  cases budget with
  | zero => rw [typesDecoder, Decoder.entries]
  | succ budget => rw [typesDecoder, Decoder.entries]

theorem fieldsDecoder_eq : fieldsDecoder = decoder.entries := by
  funext budget d
  cases budget with
  | zero => rw [fieldsDecoder, Decoder.entries]
  | succ budget => rw [fieldsDecoder, Decoder.entries]

theorem typesToJson_eq_map (types : List (String × List (String × QueryNode))) :
    typesToJson types = types.map fun entry => (entry.1, .object (fieldsToJson entry.2)) := by
  induction types with
  | nil => rfl
  | cons entry rest ih =>
      rcases entry with ⟨typeName, fields⟩
      rw [typesToJson, ih, List.map_cons]

theorem fieldsToJson_eq_map (fields : List (String × QueryNode)) :
    fieldsToJson fields = fields.map fun entry => (entry.1, entry.2.toJson) := by
  induction fields with
  | nil => rfl
  | cons entry rest ih =>
      rcases entry with ⟨key, node⟩
      rw [fieldsToJson, ih, List.map_cons]

/-! ### Nodes -/

/-- A node is restored if its types and its arguments are, with an alias or
    without one. -/
theorem restores_mk (name : String) (aliasName : Option String)
    (types : List (String × List (String × QueryNode))) (args : List (String × Value))
    (depth : Nat) (htypes : typesDecoder.Restores depth (.object (typesToJson types)) types)
    (hargs : Decoder.value.entries.Restores depth (.object args) args) :
    decoder.Restores (depth + 1) (QueryNode.mk name aliasName types args).toJson
      (.mk name aliasName types args) := by
  rw [toJson.eq_def]
  cases aliasName with
  | none =>
      refine .record (fun _ _ => by rw [decoder]; rfl) (by simp [Entries.keys])
        (by simp [htypes.whole, hargs.whole]) fun budget hbudget => ?_
      simp [Value.memberDocuments, htypes.reads budget hbudget, hargs.reads budget hbudget]
  | some a =>
      have halias : Decoder.text.optional.Restores depth (.string a) (some a) :=
        Decoder.restores_optionalString (some a)
      refine .record (fun _ _ => by rw [decoder]; rfl) (by simp [Entries.keys])
        (by simp [htypes.whole, hargs.whole]) fun budget hbudget => ?_
      simp [Value.memberDocuments, halias.reads budget hbudget, htypes.reads budget hbudget,
        hargs.reads budget hbudget]

theorem whole_toJson (name : String) (aliasName : Option String)
    (types : List (String × List (String × QueryNode))) (args : List (String × Value))
    (h : (QueryNode.mk name aliasName types args).toJson.Whole) :
    Value.MembersWhole (typesToJson types) ∧ Value.MembersWhole args := by
  rw [toJson.eq_def] at h
  cases aliasName <;> simpa [Value.Whole, Value.MembersWhole] using h

theorem nesting_toJson (name : String) (aliasName : Option String)
    (types : List (String × List (String × QueryNode))) (args : List (String × Value)) :
    (QueryNode.mk name aliasName types args).toJson.nesting =
      max (Value.object (typesToJson types)).nesting (Value.object args).nesting + 1 := by
  rw [toJson.eq_def]
  cases aliasName <;> simp [Value.nesting, Value.membersNesting]

mutual
/-- A query is restored. The two maps between a node and the next one are folded
    into lists of the induction, and what their entries need together is the
    nesting of the object that they are written as. -/
theorem restores (node : QueryNode) (hdistinct : node.Distinct) (hsorted : node.Sorted)
    (hwhole : node.toJson.Whole) : decoder.Restores node.toJson.nesting node.toJson node := by
  match node with
  | .mk name aliasName types args =>
      have hparts := whole_toJson name aliasName types args hwhole
      have hargs := Decoder.restores_values args hdistinct.1 hparts.2 hsorted.1
      have htypes : typesDecoder.Restores (Value.object (typesToJson types)).nesting
          (.object (typesToJson types)) types := by
        rw [typesDecoder_eq, Value.nesting]
        have hentries := Decoder.Restores.entries (fun fields => .object (fieldsToJson fields))
          types hdistinct.2.1 (restores_types types hdistinct.2.2 hsorted.2 hparts.1)
        rw [← typesToJson_eq_map] at hentries
        exact hentries
      rw [nesting_toJson]
      exact restores_mk name aliasName types args _ (htypes.mono (Nat.le_max_left _ _))
        (hargs.mono (Nat.le_max_right _ _))
theorem restores_types (types : List (String × List (String × QueryNode)))
    (hdistinct : TypesDistinct types) (hsorted : TypesSorted types)
    (hwhole : Value.MembersWhole (typesToJson types)) :
    ∀ entry ∈ types, fieldsDecoder.Restores (Value.membersNesting (typesToJson types))
      (.object (fieldsToJson entry.2)) entry.2 := by
  match types with
  | [] => exact fun entry hentry => absurd hentry List.not_mem_nil
  | (typeName, fields) :: more =>
      rw [typesToJson, Value.MembersWhole, Value.Whole] at hwhole
      rw [typesToJson, Value.membersNesting]
      refine List.forall_mem_cons.mpr ⟨?_, fun entry hentry => ?_⟩
      · have hentries := Decoder.Restores.entries toJson fields hdistinct.1
          (restores_fields fields hdistinct.2.1 hsorted.1 hwhole.1)
        rw [← fieldsToJson_eq_map] at hentries
        rw [fieldsDecoder_eq]
        refine hentries.mono ?_
        rw [Value.nesting]
        exact Nat.le_max_left _ _
      · exact (restores_types more hdistinct.2.2 hsorted.2 hwhole.2 entry hentry).mono
          (Nat.le_max_right _ _)
theorem restores_fields (fields : List (String × QueryNode)) (hdistinct : FieldsDistinct fields)
    (hsorted : FieldsSorted fields) (hwhole : Value.MembersWhole (fieldsToJson fields)) :
    ∀ entry ∈ fields, decoder.Restores (Value.membersNesting (fieldsToJson fields))
      entry.2.toJson entry.2 := by
  match fields with
  | [] => exact fun entry hentry => absurd hentry List.not_mem_nil
  | (key, node) :: rest =>
      rw [fieldsToJson, Value.MembersWhole] at hwhole
      rw [fieldsToJson, Value.membersNesting]
      refine List.forall_mem_cons.mpr ⟨?_, fun entry hentry => ?_⟩
      · exact (restores node hdistinct.1 hsorted.1 hwhole.1).mono (Nat.le_max_left _ _)
      · exact (restores_fields rest hdistinct.2 hsorted.2 hwhole.2 entry hentry).mono
          (Nat.le_max_right _ _)
end

end QueryNode

namespace MutationRequest

/-- A mutation is restored: its input is two records deep. -/
theorem restores (m : MutationRequest) (hdistinct : (Entries.keys m.input).Nodup)
    (hsorted : ∀ entry ∈ m.input, entry.2.Sorted) (hwhole : m.toJson.Whole) :
    decoder.Restores m.toJson.nesting m.toJson m := by
  have hinputWhole : Value.MembersWhole m.input := by
    simpa [toJson, Value.Whole, Value.MembersWhole] using hwhole
  have hinput := Decoder.restores_values m.input hdistinct hinputWhole hsorted
  have hargs : argsDecoder.Restores ((Value.object m.input).nesting + 1)
      (.object [("input", .object m.input)]) m.input := by
    refine .record (fun _ _ => rfl) (by simp [Entries.keys]) (by simp [hinput.whole])
      fun budget hbudget => ?_
    simp [Value.memberDocuments, hinput.reads budget hbudget]
  have hnesting : m.toJson.nesting = (Value.object m.input).nesting + 1 + 1 := by
    simp [toJson, Value.nesting, Value.membersNesting]
  rw [hnesting]
  refine .record (fun _ _ => rfl) (by simp [Entries.keys]) (by simp [hargs.whole])
    fun budget hbudget => ?_
  simp [Value.memberDocuments, hargs.reads budget hbudget]

end MutationRequest
/-- A query and a mutation are read from the text that they are written as, and
    they are what they were: every map in its order, an alias where there was
    one and nowhere else, and all values of arguments and input. -/
theorem request_ofText?_toJson :
    (∀ node : QueryNode, node.Distinct → node.Sorted → node.toJson.Whole →
      node.toJson.nesting ≤ nestingLimit →
        QueryNode.ofText? (Text.symbols node.toJson.compact) = some node) ∧
      ∀ m : MutationRequest, (Entries.keys m.input).Nodup → (∀ entry ∈ m.input, entry.2.Sorted) →
        m.toJson.Whole → m.toJson.nesting ≤ nestingLimit →
          MutationRequest.ofText? (Text.symbols m.toJson.compact) = some m := by
  constructor
  · intro node hdistinct hsorted hwhole hnesting
    exact (QueryNode.restores node hdistinct hsorted hwhole).decode?_compact hnesting
  · intro m hdistinct hsorted hwhole hnesting
    exact (MutationRequest.restores m hdistinct hsorted hwhole).decode?_compact hnesting

/-- A query with an alias on one of its two levels, and with both limits of
    whole numbers among its arguments. -/
def latestPosts : QueryNode :=
  ⟨"posts", some "latest", [("Post", [("t", ⟨"title", none, [], []⟩)]), ("Draft", [])],
    [("where", .object [("id", .int 18446744073709551615),
      ("rank", .array [.int (-9223372036854775808), .null])]), ("limit", .int 5)]⟩

/-- A mutation whose input is not in the order of its names. -/
def createPost : MutationRequest :=
  ⟨"createPost", [("title", .string "\"\n"), ("id", .object [("a", .bool true), ("b", .int 0)])]⟩

theorem request_ofText?_toJson_posts :
    QueryNode.ofText? (Text.symbols latestPosts.toJson.compact) = some latestPosts ∧
      MutationRequest.ofText? (Text.symbols createPost.toJson.compact) = some createPost := by
  have hwhere : ["id", "rank"].Pairwise (· < ·) := by decide
  have hinput : ["a", "b"].Pairwise (· < ·) := by decide
  refine ⟨request_ofText?_toJson.1 latestPosts ?_ ?_ ?_ ?_,
    request_ofText?_toJson.2 createPost ?_ ?_ ?_ ?_⟩
  · simp [latestPosts, QueryNode.Distinct, QueryNode.TypesDistinct, QueryNode.FieldsDistinct,
      Entries.keys]
  · simp only [latestPosts, QueryNode.Sorted, QueryNode.TypesSorted, QueryNode.FieldsSorted,
      List.forall_mem_cons, List.not_mem_nil, false_implies, implies_true, Value.Sorted,
      Value.MembersSorted, Value.ItemsSorted, Value.int, Entries.keys, List.map_cons,
      List.map_nil, hwhere, and_self]
  · simp [latestPosts, QueryNode.toJson, QueryNode.typesToJson, QueryNode.fieldsToJson,
      Value.Whole, Value.MembersWhole, Value.ItemsWhole, Value.int, Number.Whole]
  · decide
  · decide
  · simp only [createPost, List.forall_mem_cons, List.not_mem_nil, false_implies, implies_true,
      Value.Sorted, Value.MembersSorted, Value.int, Entries.keys, List.map_cons, List.map_nil,
      hinput, and_self]
  · simp [createPost, MutationRequest.toJson, Value.Whole, Value.MembersWhole, Value.int,
      Number.Whole]
  · decide

end ViewCompiler
