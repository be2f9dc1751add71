import ViewCompiler.Proofs.ReaderLaws

/-!
# Statements Are Uniquely Readable

Reading the text and the parameters of a tree gives that tree back.

Names can be any strings, also ones that look like the rest of a statement, and
yet the text says where every name ends, because quotes in it are doubled. The
other strings of a tree are the element types of arrays. They are written as they
are, so the text is clear only if they do not contain the bracket that comes
after them.

The proof goes through the constructors of trees (`reads_pieces`). For each kind
of tree it is fixed what can stand behind it, and it is checked that what does
stand behind it is of that kind, and that the reader decides rightly between the
constructors. That takes no more than the next character, with one exception: a
parenthesis opens a conjunction or a select, and the word behind it tells which.

## Main definitions

* `columnStarts`, `predicateStarts`: What a column or predicate can start with.
* `columnEnds`, `predicateEnds`, `selectEnds`, `clauseWords`: What can stand
  behind a tree, or behind a part of a select.
* `Unbracketed`: What is asked of element types.

## Theorems

* `Column.starts`, `Predicate.starts`: What a tree starts with.
* `Reads.columns`, `Reads.fromClause`, `Reads.whereClause`, `Reads.sortClause`,
  `Reads.boundClause`: The parts of a select are read.
* `Reads.predicate_of_test`: Predicates that start with a column are read.
* `reads_pieces`: Every tree is read.
* `Select.readAll_render`, `Predicate.readAll_render`, `Column.readAll_render`:
  A whole text is read.
* `render_uniquely_readable`: Text and parameters determine a tree.
-/

namespace ViewCompiler

namespace Sql

/-! ### What trees start with -/

/-- The characters that a column can start with. -/
def columnStarts : List Char := ['"', '$', 'r', 'C', '(', 'A', 'N']

theorem Column.starts (c : Column) : ∃ first ∈ columnStarts, Starts first (c.pieces true) := by
  cases c with
  | physical tableAlias name =>
      rw [Column.pieces, physicalPieces, if_pos rfl]
      exact ⟨'"', by decide, Starts.name _ _⟩
  | param p =>
      rw [Column.pieces]
      exact ⟨'$', by decide, Starts.bind _ _⟩
  | rowToJson tableAlias =>
      rw [Column.pieces]
      exact ⟨'r', by decide, Starts.text _ rfl⟩
  | jsonAgg c =>
      rw [Column.pieces]
      exact ⟨'C', by decide, Starts.text _ rfl⟩
  | subSelect s =>
      rw [Column.pieces]
      exact ⟨'(', by decide, Starts.text _ rfl⟩
  | array c elementType =>
      rw [Column.pieces]
      exact ⟨'A', by decide, Starts.text _ rfl⟩
  | null =>
      rw [Column.pieces]
      exact ⟨'N', by decide, Starts.text _ rfl⟩

theorem SelectItem.starts (i : SelectItem) :
    ∃ first ∈ columnStarts, Starts first (i.pieces true) := by
  rcases i with ⟨c, a⟩
  rw [SelectItem.pieces]
  rcases c.starts with ⟨first, hfirst, hstarts⟩
  exact ⟨first, hfirst, hstarts.append _⟩

theorem OrderTerm.starts (t : OrderTerm) :
    ∃ first ∈ columnStarts, Starts first (t.pieces true) := by
  rcases t with ⟨c, d⟩
  rw [OrderTerm.pieces]
  rcases c.starts with ⟨first, hfirst, hstarts⟩
  exact ⟨first, hfirst, hstarts.append _⟩

/-- The characters that a predicate can start with. -/
def predicateStarts : List Char := 'T' :: 'F' :: columnStarts

theorem Predicate.starts (p : Predicate) :
    ∃ first ∈ predicateStarts, Starts first (p.pieces true) := by
  have hcolumn : ∀ (c : Column) (qs : List Piece),
      ∃ first ∈ predicateStarts, Starts first (c.pieces true ++ qs) := by
    intro c qs
    rcases c.starts with ⟨first, hfirst, hstarts⟩
    exact ⟨first, List.mem_cons_of_mem _ (List.mem_cons_of_mem _ hfirst), hstarts.append qs⟩
  cases p with
  | always =>
      rw [Predicate.pieces]
      exact ⟨'T', by decide, Starts.text _ rfl⟩
  | never =>
      rw [Predicate.pieces]
      exact ⟨'F', by decide, Starts.text _ rfl⟩
  | and l r =>
      rw [Predicate.pieces]
      exact ⟨'(', by decide, Starts.text _ rfl⟩
  | compare op l r =>
      rw [Predicate.pieces]
      exact hcolumn l _
  | isIn c es =>
      rw [Predicate.pieces]
      exact hcolumn c _
  | isNull c =>
      rw [Predicate.pieces]
      exact hcolumn c _
  | isNotNull c =>
      rw [Predicate.pieces]
      exact hcolumn c _

theorem Column.width_pos (c : Column) : 0 < width (c.pieces true) := by
  rcases c.starts with ⟨first, _, hstarts⟩
  exact hstarts.width_pos

theorem SelectItem.width_column_le (i : SelectItem) :
    width (i.column.pieces true) ≤ width (i.pieces true) := by
  rcases i with ⟨c, a⟩
  rw [SelectItem.pieces, width_append]
  exact Nat.le_add_right _ _

theorem OrderTerm.width_column_le (t : OrderTerm) :
    width (t.column.pieces true) ≤ width (t.pieces true) := by
  rcases t with ⟨c, d⟩
  rw [OrderTerm.pieces, width_append]
  exact Nat.le_add_right _ _

theorem Predicate.width_pos (p : Predicate) : 0 < width (p.pieces true) := by
  rcases p.starts with ⟨first, _, hstarts⟩
  exact hstarts.width_pos

theorem Select.width_pos (s : Select) : 0 < width (s.pieces true) := by
  rcases s with ⟨columns, source, predicate, orderBy, limit, offset⟩
  rw [Select.pieces_eq]
  exact (Starts.text _ rfl).width_pos

/-! ### What stands behind trees -/

/-- An element type that ends where the brackets of the array begin. -/
def Unbracketed (t : String) : Prop := '[' ∉ t.toList

/-- What stands behind a column. -/
def columnEnds : List String := [" ", ",", ")", "]"]

/-- What stands behind a predicate. -/
def predicateEnds : List String := [" ", ")"]

/-- What stands behind a select. -/
def selectEnds : List String := [")"]

/-- The words of the clauses of a select, in their order, and what stands behind
    it. -/
def clauseWords : List String :=
  " FROM " :: " WHERE " :: " ORDER BY " :: " LIMIT " :: " OFFSET " :: selectEnds

/-- What stands behind an item of a select. -/
def itemEnds : List String := ", " :: clauseWords

namespace Reads

open Reader

variable {α β : Type} {after : List String}

theorem sign_bind {op : Comparison} {next : Comparison → Reader β} {qs : List Piece} {b : β}
    (hnext : Reads (next op) qs b after) :
    Reads (sign comparisons >>= next) (.text (" " ++ op.sign ++ " ") :: qs) b after := by
  intro n rest values hrest
  have hsign : sign comparisons ⟨(" " ++ op.sign ++ " ").toList ++ (written n qs ++ rest),
      paramsOf qs ++ values⟩ = some (op, ⟨written n qs ++ rest, paramsOf qs ++ values⟩) := by
    cases op <;> rfl
  simp only [written, List.append_assoc, paramsOf_text, Bind.bind, StateT.bind, hsign,
    Option.bind_some]
  exact hnext n rest values hrest

/-! ### The parts of a select -/

/-- A column and its name, if it has one. What comes after the column alone is not
    the word in front of a name. -/
theorem item {column : Reader Column} {i : SelectItem}
    (h : Reads column (i.column.pieces true) i.column columnEnds) :
    Reads (Reader.item column) (i.pieces true) i itemEnds := by
  rcases i with ⟨c, a⟩
  rw [SelectItem.pieces]
  cases a with
  | none =>
      have hnone : Reads (clause " AS " Reader.name) [] none itemEnds := clause_none (by decide)
      exact h.bind hnone.bind_pure (Leads.nil (by decide))
  | some a =>
      have hname : Reads Reader.name [.name a] a itemEnds := (Reads.name a).narrow (by decide)
      exact h.bind (clause_some hname).bind_pure (Leads.text (by decide))

theorem orderTerm {column : Reader Column} {t : OrderTerm}
    (h : Reads column (t.column.pieces true) t.column columnEnds) :
    Reads (Reader.orderTerm column) (t.pieces true) t after := by
  rcases t with ⟨c, d⟩
  rw [OrderTerm.pieces]
  cases d with
  | asc =>
      refine h.bind ?_ (Leads.text (by decide))
      exact tryWord_bind (pure _)
  | desc =>
      have hword : Leads [" DESC"] [.text (" " ++ Direction.desc.word)] after :=
        Leads.text (by decide)
      refine h.bind (tryWord_missing hword (by decide) ?_) (Leads.text (by decide))
      exact word_bind (pure _)

theorem source {select : Reader Select} {source : Source}
    (h : ∀ s a, source = .subSelect s a → Reads select (s.pieces true) s selectEnds)
    (hafter : after.all (begins delimiters) = true) :
    Reads (Reader.source select) (source.pieces true) source after := by
  cases source with
  | view v a =>
      have ha : Reads Reader.name [.name a] a after := (Reads.name a).narrow hafter
      rw [Source.pieces]
      refine tryWord_missing (Leads.name _ _) (by decide) ?_
      refine (Reads.name v.schemaName).bind (word_bind ?_) (Leads.text (by decide))
      exact (Reads.name v.name).bind (word_bind ha.bind_pure) (Leads.text (by decide))
  | subSelect s a =>
      have ha : Reads Reader.name [.name a] a after := (Reads.name a).narrow hafter
      rw [Source.pieces]
      refine tryWord_bind ((h s a rfl).bind ?_ (Leads.text (by decide)))
      exact word_bind (word_bind ha.bind_pure)

/-! ### The clauses of a select -/

theorem columns {k : Nat} (columns : List SelectItem)
    (h : ∀ i ∈ columns, ReadsWithin Reader.column (i.column.pieces true) i.column columnEnds)
    (hk : width (separated ", " (SelectItem.portions true columns)) ≤ k) :
    Reads (Reader.list (Reader.item (Reader.column k)) k)
      (separated ", " (SelectItem.portions true columns)) columns clauseWords := by
  rw [SelectItem.portions_eq_map] at hk ⊢
  refine list itemEnds columnStarts (by decide) (by decide) (by decide) (by decide) (by decide)
    columns ?_ (fun i _ => i.starts) k hk
  intro i hi
  exact item (h i hi k (Nat.le_trans i.width_column_le (width_le_of_mem hi hk)))

theorem fromClause {k : Nat} (source : Option Source)
    (h : ∀ s a, source = some (.subSelect s a) →
      ReadsWithin Reader.select (s.pieces true) s selectEnds)
    (hk : width (fromPieces true source) ≤ k) :
    OptionalClause " FROM " (Reader.source (Reader.select k)) (clauseWords.drop 1)
      (fromPieces true source) source := by
  cases source with
  | none => exact .missing
  | some source =>
      refine .one (Reads.source (fun s a hs => ?_) (by decide))
      subst hs
      rw [fromPieces, Source.pieces] at hk
      simp only [width, width_append] at hk
      exact h s a rfl k (by omega)

theorem whereClause {k : Nat} (p : Predicate)
    (h : ReadsWithin Reader.predicate (p.pieces true) p predicateEnds)
    (hk : width (wherePieces p.isAlways (p.pieces true)) ≤ k) :
    OptionalClause " WHERE " (Reader.predicate k) (clauseWords.drop 2)
      (wherePieces p.isAlways (p.pieces true)) (if p.isAlways then none else some p) := by
  cases hp : p.isAlways with
  | true => exact .missing
  | false =>
      rw [wherePieces, if_neg (by rw [hp]; decide), width] at hk
      exact .one ((h k (by omega)).narrow (by decide))

theorem sortClause {k : Nat} (orderBy : Option (List OrderTerm))
    (h : ∀ terms, orderBy = some terms → ∀ t ∈ terms,
      ReadsWithin Reader.column (t.column.pieces true) t.column columnEnds)
    (hk : width (sortPieces true orderBy) ≤ k) :
    OptionalClause " ORDER BY " (Reader.list (Reader.orderTerm (Reader.column k)) k)
      (clauseWords.drop 3) (sortPieces true orderBy) orderBy := by
  cases orderBy with
  | none => exact .missing
  | some terms =>
      rw [sortPieces, OrderTerm.portions_eq_map] at hk ⊢
      have hlist : width (separated ", " (terms.map (OrderTerm.pieces true))) ≤ k := by
        simp only [width] at hk
        omega
      refine .two (by decide) (list columnEnds columnStarts (by decide) (by decide) (by decide)
        (by decide) (by decide) terms ?_ (fun t _ => t.starts) k hlist)
      intro t ht
      exact orderTerm (h terms rfl t ht k (Nat.le_trans t.width_column_le
        (width_le_of_mem ht hlist)))

/-- The clauses of the two page bounds. -/
theorem boundClause {w : String} (v : String) (hw : " " ++ v = w)
    (hafter : after.all (begins delimiters) = true) (n : Option Int) :
    OptionalClause w Reader.bound after
      (clausePieces (n.map fun n => [.text v, .bind (.int8 n)])) n := by
  cases n with
  | none => exact .missing
  | some n => exact .two hw ((Reads.bound n).narrow hafter)

/-- A predicate that starts with a column is a test of that column. The first
    character already tells it from a constant, but a select in parentheses has to
    be told from a conjunction. -/
theorem predicate_of_test {k : Nat} {c : Column} {qs : List Piece} {p : Predicate}
    (h : Reads (test (Reader.column k) k) (c.pieces true ++ qs) p after) :
    Reads (Reader.predicate (k + 1)) (c.pieces true ++ qs) p after := by
  rw [Reader.predicate]
  cases c with
  | subSelect s =>
      rw [Column.pieces] at h ⊢
      refine peek_bind '(' (Starts.text _ rfl) (isNext_bind true ?_ h)
      intro n rest
      rcases s with ⟨columns, source, predicate, orderBy, limit, offset⟩
      -- The word of the select follows the parenthesis at once.
      rw [Select.pieces_eq]
      rfl
  | physical tableAlias name =>
      rw [Column.pieces, physicalPieces, if_pos rfl] at h ⊢
      exact peek_bind '"' (Starts.name _ _) h
  | param p =>
      rw [Column.pieces] at h ⊢
      exact peek_bind '$' (Starts.bind _ _) h
  | rowToJson tableAlias =>
      rw [Column.pieces] at h ⊢
      exact peek_bind 'r' (Starts.text _ rfl) h
  | jsonAgg c =>
      rw [Column.pieces] at h ⊢
      exact peek_bind 'C' (Starts.text _ rfl) h
  | array c elementType =>
      rw [Column.pieces] at h ⊢
      exact peek_bind 'A' (Starts.text _ rfl) h
  | null =>
      rw [Column.pieces] at h ⊢
      exact peek_bind 'N' (Starts.text _ rfl) h

end Reads

/-- Every tree is read as it was written. Each case goes along the pieces of its
    constructor: the first character picks the branch of the reader, and what
    comes after a part is what that part may be followed by. -/
theorem reads_pieces :
    TreeInduction
      (fun c => EveryType Unbracketed c.leaves →
        ReadsWithin Reader.column (c.pieces true) c columnEnds)
      (fun p => EveryType Unbracketed p.leaves →
        ReadsWithin Reader.predicate (p.pieces true) p predicateEnds)
      (fun s => EveryType Unbracketed s.leaves →
        ReadsWithin Reader.select (s.pieces true) s selectEnds) where
  physical tableAlias name _ := by
    have hname : Reads Reader.name [.name name] name columnEnds :=
      (Reads.name name).narrow (by decide)
    refine ReadsWithin.of_succ (Column.width_pos _) fun k _ => ?_
    rw [Column.pieces, physicalPieces, if_pos rfl, Reader.column]
    refine Reads.peek_bind '"' (Starts.name _ _) ?_
    exact (Reads.name tableAlias).bind (Reads.word_bind hname.bind_pure) (Leads.text (by decide))
  param p _ := by
    have hvalue : Reads Reader.value [.bind p] p columnEnds :=
      (Reads.value p).narrow (by decide)
    refine ReadsWithin.of_succ (Column.width_pos _) fun k _ => ?_
    rw [Column.pieces, Reader.column]
    exact Reads.peek_bind '$' (Starts.bind _ _) hvalue.bind_pure
  rowToJson tableAlias _ := by
    refine ReadsWithin.of_succ (Column.width_pos _) fun k _ => ?_
    rw [Column.pieces, Reader.column]
    refine Reads.peek_bind 'r' (Starts.text _ rfl) (Reads.word_bind ?_)
    exact (Reads.name tableAlias).bind (Reads.word_bind (Reads.pure _)) (Leads.text (by decide))
  jsonAgg c ih h := by
    refine ReadsWithin.of_succ (Column.width_pos _) fun k hk => ?_
    rw [Column.pieces] at hk ⊢
    have hc := ih h k (width_le_of_enclosed (by decide) hk)
    rw [Reader.column]
    refine Reads.peek_bind 'C' (Starts.text _ rfl) (Reads.word_bind ?_)
    exact hc.bind (Reads.word_bind (Reads.pure _)) (Leads.text (by decide))
  subSelect s ih h := by
    refine ReadsWithin.of_succ (Column.width_pos _) fun k hk => ?_
    rw [Column.pieces] at hk ⊢
    have hs := ih h k (width_le_of_enclosed (by decide) hk)
    rw [Reader.column]
    refine Reads.peek_bind '(' (Starts.text _ rfl) (Reads.word_bind ?_)
    exact hs.bind (Reads.word_bind (Reads.pure _)) (Leads.text (by decide))
  array c elementType ih h := by
    rw [Column.leaves] at h
    have htype : '[' ∉ elementType.toList := h.right elementType List.mem_cons_self
    refine ReadsWithin.of_succ (Column.width_pos _) fun k hk => ?_
    rw [Column.pieces] at hk ⊢
    have hc := ih h.left k (width_le_of_enclosed (by decide) hk)
    rw [Reader.column]
    refine Reads.peek_bind 'A' (Starts.text _ rfl) (Reads.word_bind ?_)
    refine hc.bind (Reads.word_bind ?_) (Leads.text (by decide))
    exact (Reads.elementType elementType htype).bind (Reads.word_bind (Reads.pure _))
      (Leads.text (by decide))
  null _ := by
    refine ReadsWithin.of_succ (Column.width_pos _) fun k _ => ?_
    rw [Column.pieces, Reader.column]
    exact Reads.peek_bind 'N' (Starts.text _ rfl) (Reads.word_bind (Reads.pure _))
  always _ := by
    refine ReadsWithin.of_succ (Predicate.width_pos _) fun k _ => ?_
    rw [Predicate.pieces, Reader.predicate]
    exact Reads.peek_bind 'T' (Starts.text _ rfl) (Reads.word_bind (Reads.pure _))
  never _ := by
    refine ReadsWithin.of_succ (Predicate.width_pos _) fun k _ => ?_
    rw [Predicate.pieces, Reader.predicate]
    exact Reads.peek_bind 'F' (Starts.text _ rfl) (Reads.word_bind (Reads.pure _))
  compare op l r ihl ihr h := by
    rw [Predicate.leaves] at h
    refine ReadsWithin.of_succ (Predicate.width_pos _) fun k hk => ?_
    rw [Predicate.pieces] at hk ⊢
    have hwidth := width_le_of_text (by cases op <;> decide) hk
    have hl := ihl h.left k hwidth.1
    have hr : Reads (Reader.column k) (r.pieces true) r predicateEnds :=
      (ihr h.right k hwidth.2).narrow (by decide)
    -- What comes after the column is a sign, so it is none of the other tests.
    have hsign : Leads [" " ++ op.sign ++ " "] (.text (" " ++ op.sign ++ " ") :: r.pieces true)
        predicateEnds := Leads.text (by cases op <;> decide)
    refine Reads.predicate_of_test (hl.bind ?_ (Leads.text (by cases op <;> decide)))
    refine Reads.tryWord_missing hsign (by cases op <;> decide) ?_
    refine Reads.tryWord_missing hsign (by cases op <;> decide) ?_
    refine Reads.tryWord_missing hsign (by cases op <;> decide) ?_
    exact Reads.sign_bind hr.bind_pure
  isIn c es ihc ihes h := by
    rw [Predicate.leaves, Column.leavesOfList_eq] at h
    refine ReadsWithin.of_succ (Predicate.width_pos _) fun k hk => ?_
    rw [Predicate.pieces, Column.portions_eq_map] at hk ⊢
    have hwidth := width_le_of_text (by decide) hk
    have hc := ihc h.left k hwidth.1
    have hlist : width (separated ", " (es.map (Column.pieces true))) ≤ k := by
      have hwhole := hwidth.2
      rw [width_append] at hwhole
      omega
    have hes : Reads (Reader.list (Reader.column k) k)
        (separated ", " (es.map (Column.pieces true))) es [")"] :=
      Reads.list columnEnds columnStarts (by decide) (by decide) (by decide) (by decide)
        (by decide) es (fun e he => ihes e he (h.right.item e he) k (width_le_of_mem he hlist))
        (fun e _ => e.starts) k hlist
    refine Reads.predicate_of_test (hc.bind (Reads.tryWord_bind ?_) (Leads.text (by decide)))
    exact hes.bind (Reads.word_bind (Reads.pure _)) (Leads.text (by decide))
  isNull c ih h := by
    refine ReadsWithin.of_succ (Predicate.width_pos _) fun k hk => ?_
    rw [Predicate.pieces] at hk ⊢
    have hc := ih h k (width_le_of_text (by decide) hk).1
    have hword : Leads [" IS NULL"] [.text " IS NULL"] predicateEnds := Leads.text (by decide)
    refine Reads.predicate_of_test (hc.bind ?_ (Leads.text (by decide)))
    refine Reads.tryWord_missing hword (by decide) ?_
    exact Reads.tryWord_bind (Reads.pure _)
  isNotNull c ih h := by
    refine ReadsWithin.of_succ (Predicate.width_pos _) fun k hk => ?_
    rw [Predicate.pieces] at hk ⊢
    have hc := ih h k (width_le_of_text (by decide) hk).1
    have hword : Leads [" IS NOT NULL"] [.text " IS NOT NULL"] predicateEnds :=
      Leads.text (by decide)
    refine Reads.predicate_of_test (hc.bind ?_ (Leads.text (by decide)))
    refine Reads.tryWord_missing hword (by decide) ?_
    refine Reads.tryWord_missing hword (by decide) ?_
    exact Reads.tryWord_bind (Reads.pure _)
  and l r ihl ihr h := by
    rw [Predicate.leaves] at h
    refine ReadsWithin.of_succ (Predicate.width_pos _) fun k hk => ?_
    rw [Predicate.pieces] at hk ⊢
    have hl := ihl h.left k (width_le_of_enclosed (by decide) hk)
    have hr := ihr h.right k (by
      simp only [width, width_append, String.reduceEq, if_false] at hk
      omega)
    -- A predicate does not start like a select.
    have hnext : ∀ n rest, "(SELECT ".toList.isPrefixOf (written n (.text "(" :: (l.pieces true ++
        .text " AND " :: (r.pieces true ++ [.text ")"]))) ++ rest) = false := by
      intro n rest
      rcases l.starts with ⟨first, hfirst, hstarts⟩
      rcases hstarts.append (.text " AND " :: (r.pieces true ++ [.text ")"])) n with ⟨t, ht⟩
      have hne : ('S' == first) = false := by
        have hother : 'S' ∉ predicateStarts := by decide
        exact beq_eq_false_iff_ne.mpr fun heq => hother (heq ▸ hfirst)
      rw [written, ht]
      simp [List.isPrefixOf, hne]
    rw [Reader.predicate]
    refine Reads.peek_bind '(' (Starts.text _ rfl) (Reads.isNext_bind false hnext ?_)
    refine Reads.word_bind ?_
    refine hl.bind (Reads.word_bind ?_) (Leads.text (by decide))
    exact hr.bind (Reads.word_bind (Reads.pure _)) (Leads.text (by decide))
  select columns source predicate orderBy limit offset ihcolumns ihsource ihpredicate ihorder h := by
    rw [Select.leaves, SelectItem.leavesOfList_eq] at h
    refine ReadsWithin.of_succ (Select.width_pos _) fun k hk => ?_
    rw [Select.pieces_eq] at hk ⊢
    simp only [width, width_append, String.reduceEq, if_false] at hk
    have hcolumns := Reads.columns columns
      (fun i hi => ihcolumns i hi (h.left.left.left.left.left.item i hi)) (show _ ≤ k by omega)
    have hsource : ∀ s a, source = some (.subSelect s a) →
        ReadsWithin Reader.select (s.pieces true) s selectEnds := by
      intro s a hs
      have htypes := h.left.left.left.left.right
      rw [hs] at htypes
      exact ihsource s a hs htypes
    have hterms : ∀ terms, orderBy = some terms → ∀ t ∈ terms,
        ReadsWithin Reader.column (t.column.pieces true) t.column columnEnds := by
      intro terms horder t ht
      have htypes := h.left.left.right
      rw [horder, OrderTerm.leavesOfOption, OrderTerm.leavesOfList_eq] at htypes
      exact ihorder terms horder t ht (htypes.item t ht)
    have hfrom := Reads.fromClause source hsource (show _ ≤ k by omega)
    have hwhere := Reads.whereClause predicate (ihpredicate h.left.left.left.right)
      (show _ ≤ k by omega)
    have hsort := Reads.sortClause orderBy hterms (show _ ≤ k by omega)
    have hlimit : OptionalClause " LIMIT " Reader.bound (clauseWords.drop 4)
        (clausePieces (limit.map limitPieces)) limit :=
      Reads.boundClause "LIMIT " (by decide) (by decide) limit
    have hoffset : OptionalClause " OFFSET " Reader.bound (clauseWords.drop 5)
        (clausePieces (offset.map offsetPieces)) offset :=
      Reads.boundClause "OFFSET " (by decide) (by decide) offset
    -- The condition that is not written is the one that is read if none is.
    have hpredicate : (if predicate.isAlways then none else some predicate).getD .always =
        predicate := by
      cases predicate <;> rfl
    rw [Reader.select, ← List.append_nil (clausePieces (offset.map offsetPieces))]
    simp only [List.append_assoc]
    refine Reads.word_bind (hcolumns.bind_on ?_)
    refine Reads.optional_bind hfrom (by decide) ?_
    refine Reads.optional_bind hwhere (by decide) ?_
    refine Reads.optional_bind hsort (by decide) ?_
    refine Reads.optional_bind hlimit (by decide) ?_
    refine Reads.optional_bind hoffset (by decide) ?_
    rw [hpredicate]
    exact ⟨Reads.pure _, Leads.nil (by decide)⟩

/-! ### Whole statements -/

theorem Select.readAll_render (s : Select) (h : EveryType Unbracketed s.leaves) :
    readAll Reader.select s.render.sql s.render.params = some s :=
  (reads_pieces.forSelect s h).readAll

theorem Predicate.readAll_render (p : Predicate) (h : EveryType Unbracketed p.leaves) :
    readAll Reader.predicate p.render.sql p.render.params = some p :=
  (reads_pieces.forPredicate p h).readAll

theorem Column.readAll_render (c : Column) (h : EveryType Unbracketed c.leaves) :
    readAll Reader.column c.render.sql c.render.params = some c :=
  (reads_pieces.forColumn c h).readAll

/-- What can be read back is written in one way only. -/
theorem eq_of_readAll {α : Type} {reader : Nat → Reader α} {render : α → Draft} {a b : α}
    (ha : readAll reader (render a).sql (render a).params = some a)
    (hb : readAll reader (render b).sql (render b).params = some b)
    (hsql : (render a).sql = (render b).sql) (hparams : (render a).params = (render b).params) :
    a = b := by
  rw [hsql, hparams, hb] at ha
  exact (Option.some.inj ha).symm

/-- The text and the parameters of a tree determine it, whatever its names are:
    there is a reader that returns the tree, so no two trees have both in common.
    This holds for selects, predicates and columns. Only element types reach the
    text as they are, and these must not contain an opening bracket. -/
theorem render_uniquely_readable :
    ((∀ s : Select, (∀ t ∈ elementTypesOf s.leaves, '[' ∉ t.toList) →
        readAll Reader.select s.render.sql s.render.params = some s) ∧
      (∀ s t : Select, (∀ e ∈ elementTypesOf s.leaves, '[' ∉ e.toList) →
        (∀ e ∈ elementTypesOf t.leaves, '[' ∉ e.toList) →
        s.render.sql = t.render.sql → s.render.params = t.render.params → s = t)) ∧
    ((∀ p : Predicate, (∀ t ∈ elementTypesOf p.leaves, '[' ∉ t.toList) →
        readAll Reader.predicate p.render.sql p.render.params = some p) ∧
      (∀ p q : Predicate, (∀ e ∈ elementTypesOf p.leaves, '[' ∉ e.toList) →
        (∀ e ∈ elementTypesOf q.leaves, '[' ∉ e.toList) →
        p.render.sql = q.render.sql → p.render.params = q.render.params → p = q)) ∧
    ((∀ c : Column, (∀ t ∈ elementTypesOf c.leaves, '[' ∉ t.toList) →
        readAll Reader.column c.render.sql c.render.params = some c) ∧
      (∀ c d : Column, (∀ e ∈ elementTypesOf c.leaves, '[' ∉ e.toList) →
        (∀ e ∈ elementTypesOf d.leaves, '[' ∉ e.toList) →
        c.render.sql = d.render.sql → c.render.params = d.render.params → c = d)) := by
  refine ⟨⟨Select.readAll_render, ?_⟩, ⟨Predicate.readAll_render, ?_⟩,
    ⟨Column.readAll_render, ?_⟩⟩
  · intro s t hs ht hsql hparams
    exact eq_of_readAll (s.readAll_render hs) (t.readAll_render ht) hsql hparams
  · intro p q hp hq hsql hparams
    exact eq_of_readAll (p.readAll_render hp) (q.readAll_render hq) hsql hparams
  · intro c d hc hd hsql hparams
    exact eq_of_readAll (c.readAll_render hc) (d.readAll_render hd) hsql hparams

/-- A query for two columns. -/
def twoColumns : Select where
  columns := [⟨.physical "t" "a", some "x"⟩, ⟨.physical "t" "b", some "y"⟩]
  source := some (.view ⟨"s", "v"⟩ "t")
  predicate := .compare .contains (.physical "t" "tags")
    (.array (.param (.text (some "]::text[]"))) "uuid")
  orderBy := some [⟨.physical "t" "a", .desc⟩]
  limit := some 5
  offset := none

/-- A query for one column, under a name that passes for the rest of the first
    name and for the second column. -/
def oneColumn : Select :=
  { twoColumns with columns := [⟨.physical "t" "a", some "x\", \"t\".\"b\" AS \"y"⟩] }

/-- Both queries are read back, and so are their common predicate and column, and
    the name of the one does not make it the other. -/
theorem render_uniquely_readable_oneColumn :
    (∀ t ∈ elementTypesOf oneColumn.leaves, '[' ∉ t.toList) ∧
    (∀ t ∈ elementTypesOf twoColumns.leaves, '[' ∉ t.toList) ∧
    readAll Reader.select oneColumn.render.sql oneColumn.render.params = some oneColumn ∧
    readAll Reader.select twoColumns.render.sql twoColumns.render.params = some twoColumns ∧
    readAll Reader.predicate oneColumn.predicate.render.sql oneColumn.predicate.render.params =
      some oneColumn.predicate ∧
    readAll Reader.column (Column.subSelect oneColumn).render.sql
      (Column.subSelect oneColumn).render.params = some (.subSelect oneColumn) ∧
    ¬ (oneColumn.render.sql = twoColumns.render.sql ∧
      oneColumn.render.params = twoColumns.render.params) := by
  have hone : ∀ t ∈ elementTypesOf oneColumn.leaves, '[' ∉ t.toList := by decide
  have htwo : ∀ t ∈ elementTypesOf twoColumns.leaves, '[' ∉ t.toList := by decide
  rcases render_uniquely_readable with ⟨⟨hread, heq⟩, ⟨hpredicate, _⟩, ⟨hcolumn, _⟩⟩
  refine ⟨hone, htwo, hread _ hone, hread _ htwo, hpredicate _ (by decide),
    hcolumn _ (by decide), ?_⟩
  rintro ⟨hsql, hparams⟩
  have hsame := heq oneColumn twoColumns hone htwo hsql hparams
  exact absurd (congrArg (fun s => s.columns.length) hsame) (by decide)

end Sql

end ViewCompiler
