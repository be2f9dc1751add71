import ViewCompiler.Proofs.Acceptance
import ViewCompiler.Proofs.Views

/-!
# Sorting by the Named Field

Which fields the rows of a level are sorted by.

A field that is written in a sort is found again, unless it stands there without a direction
and its name ends in one (`orderingOf_write_iff`). In that case another field is meant, which
need not exist.

`clauses_sortedByNamed` is what this comes to for the clauses of a level: where no such
name is written without a direction, the rows are sorted by the columns of the fields that
were named. `compileQuery_sort_misread` has the other case.

## Main definitions

* `SortedBy`, `Spelled`: The terms of a sort by the named fields, and its argument.

## Theorems

* `Level.orderTerms_write`: The terms of a list of fields.
* `clauses_sortedByNamed`: The sort of a level.
* `compileQuery_sort_misread`: Names that stand for other fields.
-/

namespace ViewCompiler

open Json Sql Schema

/-! ### Sorts -/

/-- The terms of a sort, one for each of the fields: the column in which the field is
    stored, in the direction that it is written with. -/
def SortedBy (level : Level) (picks : List (String × Spelling)) (terms : List OrderTerm) : Prop :=
  List.Forall₂ (fun pick term => ∃ field columnName, level.entity.field? pick.1 = some field ∧
    field.nativeColumnName = some columnName ∧
    term = ⟨.physical level.aliasName columnName, pick.2.direction⟩) picks terms

/-- The arguments that name fields: a list of texts, or a text alone. -/
inductive Spelled : List (String × Spelling) → Value → Prop where
  | list (picks : List (String × Spelling)) :
      Spelled picks (.array (picks.map fun pick => .string (pick.2.write pick.1)))
  | single (pick : String × Spelling) : Spelled [pick] (.string (pick.2.write pick.1))

theorem Spelled.sortTexts_eq_ok {picks : List (String × Spelling)} {v : Value}
    (h : Spelled picks v) :
    sortTexts v = .ok (picks.map fun pick => pick.2.write pick.1) := by
  cases h with
  | single pick => rfl
  | list =>
      rw [sortTexts, mapM_eq_ok_iff, List.forall₂_map_left_iff, List.forall₂_map_right_iff]
      exact List.forall₂_same.mpr fun pick _ => rfl

namespace Level

/-- One field: its term is that of its column. -/
theorem orderTerm_write (level : Level) (pick : String × Spelling)
    (husable : level.entity.OffersColumn level.authenticated pick.1)
    (hplain : pick.2 = .plain → ¬ EndsInDirection pick.1) :
    ∃ g field columnName, level.orderTerm (pick.2.write pick.1) = .ok g ∧
      level.entity.field? pick.1 = some field ∧ field.nativeColumnName = some columnName ∧
      g.value = ⟨.physical level.aliasName columnName, pick.2.direction⟩ := by
  rcases (level.succeeds_column_iff pick.1).mpr husable with ⟨column, hcolumn⟩
  rcases (level.column_eq_ok_iff pick.1 column).mp hcolumn with
    ⟨field, columnName, hfield, _, hnative, hvalue⟩
  have hread := (orderingOf_write_iff pick.2 pick.1).mpr hplain
  refine ⟨⟨⟨column.value, pick.2.direction⟩, column.restricted⟩, field, columnName, ?_,
    ((level.field_eq_ok_iff pick.1 _).mp hfield).1, hnative, ?_⟩
  · simp only [Level.orderTerm, hread, hcolumn]
    rfl
  · simp only [hvalue]

/-- A list of fields, one after the other. -/
theorem orderTerms_write (level : Level) (picks : List (String × Spelling))
    (husable : ∀ pick ∈ picks, level.entity.OffersColumn level.authenticated pick.1)
    (hplain : ∀ pick ∈ picks, pick.2 = .plain → ¬ EndsInDirection pick.1) :
    ∃ gs, (picks.map fun pick => pick.2.write pick.1).mapM level.orderTerm = .ok gs ∧
      SortedBy level picks (gs.map Guarded.value) := by
  simp only [mapM_eq_ok_iff]
  induction picks with
  | nil => exact ⟨[], .nil, .nil⟩
  | cons pick rest ih =>
      rcases level.orderTerm_write pick (husable pick List.mem_cons_self)
        (hplain pick List.mem_cons_self) with ⟨g, field, columnName, hg, hfield, hnative, hvalue⟩
      rcases ih (fun p hp => husable p (List.mem_cons_of_mem pick hp))
        (fun p hp => hplain p (List.mem_cons_of_mem pick hp)) with ⟨gs, hgs, hsorted⟩
      exact ⟨g :: gs, .cons hg hgs, .cons ⟨field, columnName, hfield, hnative, hvalue⟩ hsorted⟩

end Level

/-- Rows are sorted by the fields that a sort names, in its order and in the directions
    that the fields are written with. The fields are any that the caller may sort by. A field
    is found again exactly if it is written with a direction, or has a name that does not end
    in one, and it is enough that this is so for all fields of the sort. -/
theorem clauses_sortedByNamed (level : Level) (picks : List (String × Spelling))
    (hpicks : picks ≠ [])
    (husable : ∀ pick ∈ picks, level.entity.OffersColumn level.authenticated pick.1) :
    (∀ pick ∈ picks, orderingOf (pick.2.write pick.1) = (pick.1, pick.2.direction) ↔
      (pick.2 = .plain → ¬ EndsInDirection pick.1)) ∧
    ((∀ pick ∈ picks, pick.2 = .plain → ¬ EndsInDirection pick.1) → ∀ v, Spelled picks v →
      ∃ terms, SortedBy level picks terms ∧
        (∃ c, level.clauses [("orderBy", v)] = .ok c) ∧
        ∀ args c, given args "orderBy" = v → level.clauses args = .ok c →
          c.value.orderBy = some terms) := by
  refine ⟨fun pick _ => orderingOf_write_iff pick.2 pick.1, ?_⟩
  intro hplain v hv
  rcases level.orderTerms_write picks husable hplain with ⟨gs, hgs, hsorted⟩
  have hsome : (picks.map fun pick => pick.2.write pick.1).isEmpty = false := by
    cases picks with
    | nil => exact absurd rfl hpicks
    | cons pick rest => rfl
  have hsort : level.sort v =
      .ok ⟨some (gs.map Guarded.value), gs.any Guarded.restricted⟩ := by
    simp only [Level.sort, hv.sortTexts_eq_ok, bind, Except.bind, hsome, Bool.false_eq_true,
      if_false, hgs]
    rfl
  refine ⟨gs.map Guarded.value, hsorted, ?_, ?_⟩
  · have haccepts := (level.succeeds_sort_iff v).mp ⟨_, hsort⟩
    refine (level.succeeds_clauses_iff _).mpr (List.forall_mem_singleton.mpr ?_)
    simp only [Entity.AcceptsArgument, String.reduceEq, false_imp_iff, true_imp_iff, or_self,
      haccepts, and_self]
  -- Whatever else is asked for, the sort is made from the argument of its name.
  · intro args c hgiven hc
    rcases (level.clauses_asked args c hc).orderBy with ⟨g, hg, horderBy⟩
    rw [hgiven, hsort, Except.ok.injEq] at hg
    rw [horderBy, ← hg]

/-! ### A chart

Songs with their ranks, and with fields that are named as if they were sorts. -/

namespace Chart

/-- Songs, with two fields whose names end in a direction. -/
def song : Entity where
  tableSchemaName := "app"
  tableName := "song"
  viewSchemaName := none
  publicViewName := "song_public"
  authViewName := "song_auth"
  idColumnName := "id"
  fields := ["id", "title", "rank", "rank_DESC", "peak_ASC"].map Blog.stored
  publicFieldNames := ["id", "title", "rank", "rank_DESC", "peak_ASC"]
  disallowGenericRootLevelAggregation := false

def schema : Schema where
  viewSchemaName := "views"
  entities := [("Song", song)]
  relations := []
  mutations := []

/-- The titles of all songs, sorted. -/
def titlesBy (text : String) : QueryNode where
  name := "songs"
  aliasName := none
  fieldsByTypeName := [("Song", [Blog.leaf "title"])]
  args := [("orderBy", .array [.string text])]

/-- The level of the songs. -/
def level : Level := ⟨"Song", song, "s", false⟩

/-- Fields of the songs, of which two need their direction. -/
def picks : List (String × Spelling) :=
  [("rank_DESC", .descending), ("title", .plain), ("peak_ASC", .ascending)]

theorem offersColumn (name : String) (h : name ∈ song.publicFieldNames) :
    song.OffersColumn false name := by
  have hstored : ∀ name ∈ song.publicFieldNames, song.field? name = some ⟨some name, none⟩ := by
    decide
  exact ⟨⟨some name, none⟩, ⟨hstored name h, Or.inl h⟩, rfl, rfl⟩

end Chart

/-- With a direction, fields that are named like sorts are sorted by as any other. -/
theorem clauses_sortedByNamed_chart :
    ∃ c, Chart.level.clauses [("orderBy", .array [.string "rank_DESC_DESC", .string "title",
        .string "peak_ASC_ASC"])] = .ok c ∧
      ∃ terms, SortedBy Chart.level Chart.picks terms ∧ c.value.orderBy = some terms := by
  have husable : ∀ pick ∈ Chart.picks, Chart.level.entity.OffersColumn false pick.1 :=
    fun pick hpick => Chart.offersColumn pick.1 (by revert pick; decide)
  have hnamed := (clauses_sortedByNamed Chart.level Chart.picks (by decide) husable).2
  rcases hnamed (by decide) _ (.list Chart.picks) with ⟨terms, hsorted, ⟨c, hc⟩, hterms⟩
  exact ⟨c, hc, terms, hsorted, hterms _ c rfl hc⟩

/-- Two fields that a caller may sort by, and that are not found by their names. One is
    looked for in vain without its ending, and in place of the other the songs are sorted by
    their ranks. -/
theorem compileQuery_sort_misread :
    Chart.song.OffersColumn false "peak_ASC" ∧
      Chart.schema.compileQuery 3 false none (Chart.titlesBy "peak_ASC") =
        .error (.unknownField "Song" "peak") ∧
      Chart.song.OffersColumn false "rank_DESC" ∧
      ∃ c, Chart.schema.compileQuery 3 false none (Chart.titlesBy "rank_DESC") = .ok c ∧
        ∃ s ∈ c.statement.selects,
          s.orderBy = some [⟨.physical (localAlias 1) "rank", .desc⟩] := by
  refine ⟨Chart.offersColumn _ (by decide), rfl, Chart.offersColumn _ (by decide), _, rfl, ?_⟩
  exact ⟨_, List.mem_cons_of_mem _ (List.mem_cons_of_mem _ List.mem_cons_self), rfl⟩

end ViewCompiler
