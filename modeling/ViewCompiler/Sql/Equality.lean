import ViewCompiler.Sql.Tree

/-!
# Equality of SQL Trees

Whether two trees are the same is decided by comparing them part by part.

## Main definitions

* `Column.same`, `Predicate.same`, `Select.same` and their companions: The
  comparison.

## Theorems

* `Column.same_iff`, `Predicate.same_iff`, `Select.same_iff`: It decides
  equality.
-/

namespace ViewCompiler

namespace Sql

mutual
/-- Whether two columns are the same. -/
def Column.same : Column → Column → Bool
  | .physical t n, .physical t' n' => t == t' && n == n'
  | .param p, .param p' => p == p'
  | .rowToJson t, .rowToJson t' => t == t'
  | .jsonAgg c, .jsonAgg c' => c.same c'
  | .subSelect s, .subSelect s' => s.same s'
  | .array c t, .array c' t' => c.same c' && t == t'
  | .null, .null => true
  | _, _ => false
/-- Whether two lists of columns are the same. -/
def Column.sameList : List Column → List Column → Bool
  | [], [] => true
  | c :: cs, c' :: cs' => c.same c' && Column.sameList cs cs'
  | _, _ => false
/-- Whether two predicates are the same. -/
def Predicate.same : Predicate → Predicate → Bool
  | .always, .always => true
  | .never, .never => true
  | .compare op l r, .compare op' l' r' => op == op' && l.same l' && r.same r'
  | .isIn c es, .isIn c' es' => c.same c' && Column.sameList es es'
  | .isNull c, .isNull c' => c.same c'
  | .isNotNull c, .isNotNull c' => c.same c'
  | .and l r, .and l' r' => l.same l' && r.same r'
  | _, _ => false
/-- Whether two columns of a select are the same. -/
def SelectItem.same : SelectItem → SelectItem → Bool
  | ⟨c, a⟩, ⟨c', a'⟩ => c.same c' && a == a'
/-- Whether two lists of columns of a select are the same. -/
def SelectItem.sameList : List SelectItem → List SelectItem → Bool
  | [], [] => true
  | i :: is, i' :: is' => i.same i' && SelectItem.sameList is is'
  | _, _ => false
/-- Whether two sources are the same. -/
def Source.same : Source → Source → Bool
  | .view v a, .view v' a' => v == v' && a == a'
  | .subSelect s a, .subSelect s' a' => s.same s' && a == a'
  | _, _ => false
/-- Whether two optional sources are the same. -/
def Source.sameOption : Option Source → Option Source → Bool
  | none, none => true
  | some s, some s' => s.same s'
  | _, _ => false
/-- Whether two sort columns are the same. -/
def OrderTerm.same : OrderTerm → OrderTerm → Bool
  | ⟨c, d⟩, ⟨c', d'⟩ => c.same c' && d == d'
/-- Whether two lists of sort columns are the same. -/
def OrderTerm.sameList : List OrderTerm → List OrderTerm → Bool
  | [], [] => true
  | t :: ts, t' :: ts' => t.same t' && OrderTerm.sameList ts ts'
  | _, _ => false
/-- Whether two optional sorts are the same. -/
def OrderTerm.sameOption : Option (List OrderTerm) → Option (List OrderTerm) → Bool
  | none, none => true
  | some ts, some ts' => OrderTerm.sameList ts ts'
  | _, _ => false
/-- Whether two queries are the same. -/
def Select.same : Select → Select → Bool
  | ⟨cs, s, p, o, l, f⟩, ⟨cs', s', p', o', l', f'⟩ =>
      SelectItem.sameList cs cs' && Source.sameOption s s' && p.same p' &&
        OrderTerm.sameOption o o' && l == l' && f == f'
end

mutual
theorem Column.same_iff : ∀ a b : Column, a.same b = true ↔ a = b
  | .physical t n, b => by cases b <;> simp [Column.same]
  | .param p, b => by cases b <;> simp [Column.same]
  | .rowToJson t, b => by cases b <;> simp [Column.same]
  | .jsonAgg c, b => by cases b <;> simp [Column.same, Column.same_iff c]
  | .subSelect s, b => by cases b <;> simp [Column.same, Select.same_iff s]
  | .array c t, b => by cases b <;> simp [Column.same, Column.same_iff c]
  | .null, b => by cases b <;> simp [Column.same]
theorem Column.sameList_iff : ∀ a b : List Column, Column.sameList a b = true ↔ a = b
  | [], b => by cases b <;> simp [Column.sameList]
  | c :: cs, b => by
      cases b <;> simp [Column.sameList, Column.same_iff c, Column.sameList_iff cs]
theorem Predicate.same_iff : ∀ a b : Predicate, a.same b = true ↔ a = b
  | .always, b => by cases b <;> simp [Predicate.same]
  | .never, b => by cases b <;> simp [Predicate.same]
  | .compare op l r, b => by
      cases b <;> simp [Predicate.same, Column.same_iff l, Column.same_iff r, and_assoc]
  | .isIn c es, b => by
      cases b <;> simp [Predicate.same, Column.same_iff c, Column.sameList_iff es]
  | .isNull c, b => by cases b <;> simp [Predicate.same, Column.same_iff c]
  | .isNotNull c, b => by cases b <;> simp [Predicate.same, Column.same_iff c]
  | .and l r, b => by
      cases b <;> simp [Predicate.same, Predicate.same_iff l, Predicate.same_iff r]
theorem SelectItem.same_iff : ∀ a b : SelectItem, a.same b = true ↔ a = b
  | ⟨c, a⟩, ⟨c', a'⟩ => by simp [SelectItem.same, Column.same_iff c]
theorem SelectItem.sameList_iff : ∀ a b : List SelectItem, SelectItem.sameList a b = true ↔ a = b
  | [], b => by cases b <;> simp [SelectItem.sameList]
  | i :: is, b => by
      cases b <;> simp [SelectItem.sameList, SelectItem.same_iff i, SelectItem.sameList_iff is]
theorem Source.same_iff : ∀ a b : Source, a.same b = true ↔ a = b
  | .view v a, b => by cases b <;> simp [Source.same]
  | .subSelect s a, b => by cases b <;> simp [Source.same, Select.same_iff s]
theorem Source.sameOption_iff : ∀ a b : Option Source, Source.sameOption a b = true ↔ a = b
  | none, b => by cases b <;> simp [Source.sameOption]
  | some s, b => by cases b <;> simp [Source.sameOption, Source.same_iff s]
theorem OrderTerm.same_iff : ∀ a b : OrderTerm, a.same b = true ↔ a = b
  | ⟨c, d⟩, ⟨c', d'⟩ => by simp [OrderTerm.same, Column.same_iff c]
theorem OrderTerm.sameList_iff : ∀ a b : List OrderTerm, OrderTerm.sameList a b = true ↔ a = b
  | [], b => by cases b <;> simp [OrderTerm.sameList]
  | t :: ts, b => by
      cases b <;> simp [OrderTerm.sameList, OrderTerm.same_iff t, OrderTerm.sameList_iff ts]
theorem OrderTerm.sameOption_iff :
    ∀ a b : Option (List OrderTerm), OrderTerm.sameOption a b = true ↔ a = b
  | none, b => by cases b <;> simp [OrderTerm.sameOption]
  | some ts, b => by cases b <;> simp [OrderTerm.sameOption, OrderTerm.sameList_iff ts]
theorem Select.same_iff : ∀ a b : Select, a.same b = true ↔ a = b
  | ⟨cs, s, p, o, l, f⟩, ⟨cs', s', p', o', l', f'⟩ => by
      simp [Select.same, SelectItem.sameList_iff cs, Source.sameOption_iff s,
        Predicate.same_iff p, OrderTerm.sameOption_iff o, and_assoc]
end

instance : DecidableEq Column := fun a b => decidable_of_iff _ (Column.same_iff a b)

instance : DecidableEq Predicate := fun a b => decidable_of_iff _ (Predicate.same_iff a b)

instance : DecidableEq Select := fun a b => decidable_of_iff _ (Select.same_iff a b)

end Sql

end ViewCompiler
