import SqlTree.Node.Basic

/-!
# Equality of trees

Two trees are compared part by part. `Expr.beq`, … `Query.beq` decide equality, which is what the
lemmas `Expr.beq_iff`, … `Query.beq_iff` say of each of them; the instances of `DecidableEq` for the
types of trees follow.
-/

namespace SqlTree

mutual

/-- Whether two expressions are equal. -/
def Expr.beq : Expr → Expr → Bool
  | .unknown, .unknown => true
  | .value a, .value b => a == b
  | .column a b, .column a' b' => a == a' && b == b'
  | .userVariable a, .userVariable b => a == b
  | .binary o l r n, .binary o' l' r' n' => o == o' && l.beq l' && r.beq r' && n == n'
  | .between l a b n, .between l' a' b' n' => l.beq l' && a.beq a' && b.beq b' && n == n'
  | .oneOf l r n, .oneOf l' r' n' => l.beq l' && r.beq r' && n == n'
  | .nullTest l n, .nullTest l' n' => l.beq l' && n == n'
  | .existence q n, .existence q' n' => q.beq q' && n == n'
  | .caseOf s a o, .caseOf s' a' o' => beqOption s s' && beqArms a a' && beqOption o o'
  | .function f ps d, .function f' ps' d' => f == f' && beqList ps ps' && d == d'
  | .math o es, .math o' es' => o == o' && beqList es es'
  | .group o es, .group o' es' => o == o' && beqList es es'
  | .query q, .query q' => q.beq q'
  | _, _ => false

/-- Whether two lists of expressions are equal. -/
def beqList : List Expr → List Expr → Bool
  | [], [] => true
  | a :: as, b :: bs => a.beq b && beqList as bs
  | _, _ => false

/-- Whether two expressions that may be left out are equal. -/
def beqOption : Option Expr → Option Expr → Bool
  | none, none => true
  | some a, some b => a.beq b
  | _, _ => false

/-- Whether two conditions with their results are equal. -/
def CaseArm.beq : CaseArm → CaseArm → Bool
  | ⟨c, r⟩, ⟨c', r'⟩ => c.beq c' && r.beq r'

/-- Whether two lists of conditions with their results are equal. -/
def beqArms : List CaseArm → List CaseArm → Bool
  | [], [] => true
  | a :: as, b :: bs => a.beq b && beqArms as bs
  | _, _ => false

/-- Whether two tables are equal. -/
def Table.beq : Table → Table → Bool
  | .schema t, .schema t' => t == t'
  | .query q l, .query q' l' => q.beq q' && l == l'
  | .remote v cs l, .remote v' cs' l' => v == v' && cs == cs' && l == l'
  | _, _ => false

/-- Whether two joins are equal. -/
def JoinClause.beq : JoinClause → JoinClause → Bool
  | ⟨o, t, c⟩, ⟨o', t', c'⟩ => o == o' && t.beq t' && beqOption c c'

/-- Whether two lists of joins are equal. -/
def beqJoins : List JoinClause → List JoinClause → Bool
  | [], [] => true
  | a :: as, b :: bs => a.beq b && beqJoins as bs
  | _, _ => false

/-- Whether two tables with their joins are equal. -/
def FromTable.beq : FromTable → FromTable → Bool
  | ⟨t, js⟩, ⟨t', js'⟩ => t.beq t' && beqJoins js js'

/-- Whether two lists of tables with their joins are equal. -/
def beqSources : List FromTable → List FromTable → Bool
  | [], [] => true
  | a :: as, b :: bs => a.beq b && beqSources as bs
  | _, _ => false

/-- Whether two result columns are equal. -/
def ResultColumn.beq : ResultColumn → ResultColumn → Bool
  | ⟨e, l⟩, ⟨e', l'⟩ => e.beq e' && l == l'

/-- Whether two lists of result columns are equal. -/
def beqColumns : List ResultColumn → List ResultColumn → Bool
  | [], [] => true
  | a :: as, b :: bs => a.beq b && beqColumns as bs
  | _, _ => false

/-- Whether two sorts are equal. -/
def OrderBy.beq : OrderBy → OrderBy → Bool
  | ⟨e, d⟩, ⟨e', d'⟩ => e.beq e' && d == d'

/-- Whether two lists of sorts are equal. -/
def beqOrder : List OrderBy → List OrderBy → Bool
  | [], [] => true
  | a :: as, b :: bs => a.beq b && beqOrder as bs
  | _, _ => false

/-- Whether two groupings are equal. -/
def GroupBy.beq : GroupBy → GroupBy → Bool
  | ⟨es, h⟩, ⟨es', h'⟩ => beqList es es' && beqOption h h'

/-- Whether two groupings that may be left out are equal. -/
def beqGroupBy : Option GroupBy → Option GroupBy → Bool
  | none, none => true
  | some a, some b => a.beq b
  | _, _ => false

/-- Whether two queries are equal. -/
def Query.beq : Query → Query → Bool
  | ⟨d, cs, ss, c, g, o, l⟩, ⟨d', cs', ss', c', g', o', l'⟩ =>
    d == d' && beqColumns cs cs' && beqSources ss ss' && beqOption c c' && beqGroupBy g g'
      && beqOrder o o' && l == l'

end

mutual

theorem Expr.beq_iff : (a b : Expr) → (a.beq b = true ↔ a = b)
  | .unknown, b => by cases b <;> simp [Expr.beq]
  | .value _, b => by cases b <;> simp [Expr.beq]
  | .column .., b => by cases b <;> simp [Expr.beq]
  | .userVariable _, b => by cases b <;> simp [Expr.beq]
  | .binary _ l r _, b => by
      cases b with
      | binary _ l' r' _ => simp [Expr.beq, Expr.beq_iff l l', Expr.beq_iff r r', and_assoc]
      | _ => simp [Expr.beq]
  | .between l s e _, b => by
      cases b with
      | between l' s' e' _ =>
        simp [Expr.beq, Expr.beq_iff l l', Expr.beq_iff s s', Expr.beq_iff e e', and_assoc]
      | _ => simp [Expr.beq]
  | .oneOf l r _, b => by
      cases b with
      | oneOf l' r' _ => simp [Expr.beq, Expr.beq_iff l l', Expr.beq_iff r r', and_assoc]
      | _ => simp [Expr.beq]
  | .nullTest l _, b => by
      cases b with
      | nullTest l' _ => simp [Expr.beq, Expr.beq_iff l l']
      | _ => simp [Expr.beq]
  | .existence q _, b => by
      cases b with
      | existence q' _ => simp [Expr.beq, Query.beq_iff q q']
      | _ => simp [Expr.beq]
  | .caseOf s as o, b => by
      cases b with
      | caseOf s' as' o' =>
        simp [Expr.beq, beqOption_iff s s', beqArms_iff as as', beqOption_iff o o', and_assoc]
      | _ => simp [Expr.beq]
  | .function _ ps _, b => by
      cases b with
      | function _ ps' _ => simp [Expr.beq, beqList_iff ps ps', and_assoc]
      | _ => simp [Expr.beq]
  | .math _ es, b => by
      cases b with
      | math _ es' => simp [Expr.beq, beqList_iff es es']
      | _ => simp [Expr.beq]
  | .group _ es, b => by
      cases b with
      | group _ es' => simp [Expr.beq, beqList_iff es es']
      | _ => simp [Expr.beq]
  | .query q, b => by
      cases b with
      | query q' => simp [Expr.beq, Query.beq_iff q q']
      | _ => simp [Expr.beq]

theorem beqList_iff : (a b : List Expr) → (beqList a b = true ↔ a = b)
  | [], b => by cases b <;> simp [beqList]
  | x :: xs, b => by
      cases b with
      | nil => simp [beqList]
      | cons y ys => simp [beqList, Expr.beq_iff x y, beqList_iff xs ys]

theorem beqOption_iff : (a b : Option Expr) → (beqOption a b = true ↔ a = b)
  | none, b => by cases b <;> simp [beqOption]
  | some x, b => by
      cases b with
      | none => simp [beqOption]
      | some y => simp [beqOption, Expr.beq_iff x y]

theorem CaseArm.beq_iff : (a b : CaseArm) → (a.beq b = true ↔ a = b)
  | ⟨c, r⟩, ⟨c', r'⟩ => by simp [CaseArm.beq, Expr.beq_iff c c', Expr.beq_iff r r']

theorem beqArms_iff : (a b : List CaseArm) → (beqArms a b = true ↔ a = b)
  | [], b => by cases b <;> simp [beqArms]
  | x :: xs, b => by
      cases b with
      | nil => simp [beqArms]
      | cons y ys => simp [beqArms, CaseArm.beq_iff x y, beqArms_iff xs ys]

theorem Table.beq_iff : (a b : Table) → (a.beq b = true ↔ a = b)
  | .schema _, b => by cases b <;> simp [Table.beq]
  | .query q _, b => by
      cases b with
      | query q' _ => simp [Table.beq, Query.beq_iff q q']
      | _ => simp [Table.beq]
  | .remote .., b => by cases b <;> simp [Table.beq, and_assoc]

theorem JoinClause.beq_iff : (a b : JoinClause) → (a.beq b = true ↔ a = b)
  | ⟨_, t, c⟩, ⟨_, t', c'⟩ => by
      simp [JoinClause.beq, Table.beq_iff t t', beqOption_iff c c', and_assoc]

theorem beqJoins_iff : (a b : List JoinClause) → (beqJoins a b = true ↔ a = b)
  | [], b => by cases b <;> simp [beqJoins]
  | x :: xs, b => by
      cases b with
      | nil => simp [beqJoins]
      | cons y ys => simp [beqJoins, JoinClause.beq_iff x y, beqJoins_iff xs ys]

theorem FromTable.beq_iff : (a b : FromTable) → (a.beq b = true ↔ a = b)
  | ⟨t, js⟩, ⟨t', js'⟩ => by simp [FromTable.beq, Table.beq_iff t t', beqJoins_iff js js']

theorem beqSources_iff : (a b : List FromTable) → (beqSources a b = true ↔ a = b)
  | [], b => by cases b <;> simp [beqSources]
  | x :: xs, b => by
      cases b with
      | nil => simp [beqSources]
      | cons y ys => simp [beqSources, FromTable.beq_iff x y, beqSources_iff xs ys]

theorem ResultColumn.beq_iff : (a b : ResultColumn) → (a.beq b = true ↔ a = b)
  | ⟨e, _⟩, ⟨e', _⟩ => by simp [ResultColumn.beq, Expr.beq_iff e e']

theorem beqColumns_iff : (a b : List ResultColumn) → (beqColumns a b = true ↔ a = b)
  | [], b => by cases b <;> simp [beqColumns]
  | x :: xs, b => by
      cases b with
      | nil => simp [beqColumns]
      | cons y ys => simp [beqColumns, ResultColumn.beq_iff x y, beqColumns_iff xs ys]

theorem OrderBy.beq_iff : (a b : OrderBy) → (a.beq b = true ↔ a = b)
  | ⟨e, _⟩, ⟨e', _⟩ => by simp [OrderBy.beq, Expr.beq_iff e e']

theorem beqOrder_iff : (a b : List OrderBy) → (beqOrder a b = true ↔ a = b)
  | [], b => by cases b <;> simp [beqOrder]
  | x :: xs, b => by
      cases b with
      | nil => simp [beqOrder]
      | cons y ys => simp [beqOrder, OrderBy.beq_iff x y, beqOrder_iff xs ys]

theorem GroupBy.beq_iff : (a b : GroupBy) → (a.beq b = true ↔ a = b)
  | ⟨es, h⟩, ⟨es', h'⟩ => by simp [GroupBy.beq, beqList_iff es es', beqOption_iff h h']

theorem beqGroupBy_iff : (a b : Option GroupBy) → (beqGroupBy a b = true ↔ a = b)
  | none, b => by cases b <;> simp [beqGroupBy]
  | some x, b => by
      cases b with
      | none => simp [beqGroupBy]
      | some y => simp [beqGroupBy, GroupBy.beq_iff x y]

theorem Query.beq_iff : (a b : Query) → (a.beq b = true ↔ a = b)
  | ⟨_, cs, ss, c, g, o, _⟩, ⟨_, cs', ss', c', g', o', _⟩ => by
      simp [Query.beq, beqColumns_iff cs cs', beqSources_iff ss ss', beqOption_iff c c',
        beqGroupBy_iff g g', beqOrder_iff o o', and_assoc]

end

instance : DecidableEq Expr := fun a b => decidable_of_iff _ (a.beq_iff b)
instance : DecidableEq CaseArm := fun a b => decidable_of_iff _ (a.beq_iff b)
instance : DecidableEq Table := fun a b => decidable_of_iff _ (a.beq_iff b)
instance : DecidableEq JoinClause := fun a b => decidable_of_iff _ (a.beq_iff b)
instance : DecidableEq FromTable := fun a b => decidable_of_iff _ (a.beq_iff b)
instance : DecidableEq ResultColumn := fun a b => decidable_of_iff _ (a.beq_iff b)
instance : DecidableEq OrderBy := fun a b => decidable_of_iff _ (a.beq_iff b)
instance : DecidableEq GroupBy := fun a b => decidable_of_iff _ (a.beq_iff b)
instance : DecidableEq Query := fun a b => decidable_of_iff _ (a.beq_iff b)

deriving instance DecidableEq for InsertionSource, Insertion, Update, Deletion, CreateTable,
  Statement, Node

end SqlTree
