import DotChain.Expr.Basic

/-!
# Costs of expressions

What a tree tells about the work of evaluating it: how many nodes are entered, how many scopes are opened
and how many contexts are added on top of each other at most. A tree costs what its parts cost one after
the other, with a scope around each part that is evaluated in a context of its own (`cost_indexer`,
`cost_method`, `cost_assign`, `cost_chain`).
-/

namespace DotChain

/-! ## Costs -/

/-- How many nodes are entered, how many scopes are opened, and how many contexts these add on top of each
other. -/
@[ext]
structure Cost where
  nodes : Nat
  scopes : Nat
  reach : Nat
deriving DecidableEq

namespace Cost

/-- The cost of nothing. -/
def free : Cost := ⟨0, 0, 0⟩

/-- The cost of one thing after another. -/
def andThen (first second : Cost) : Cost :=
  ⟨first.nodes + second.nodes, first.scopes + second.scopes, max first.reach second.reach⟩

/-- The cost with a scope around it. -/
def inScope (cost : Cost) : Cost := ⟨cost.nodes, cost.scopes + 1, cost.reach + 1⟩

/-- The cost inside a node. -/
def inNode (cost : Cost) : Cost := ⟨cost.nodes + 1, cost.scopes, cost.reach⟩

/-- The cost of several things, one after the other. -/
def total (costs : List Cost) : Cost := costs.foldr andThen free

/-- No part of a cost is more than the same part of another. -/
structure Within (spent cost : Cost) : Prop where
  nodes : spent.nodes ≤ cost.nodes
  scopes : spent.scopes ≤ cost.scopes
  reach : spent.reach ≤ cost.reach

@[simp] theorem free_andThen (cost : Cost) : free.andThen cost = cost := by
  simp [andThen, free]

@[simp] theorem andThen_free (cost : Cost) : cost.andThen free = cost := by
  simp [andThen, free]

theorem andThen_assoc (first second third : Cost) :
    (first.andThen second).andThen third = first.andThen (second.andThen third) := by
  simp [andThen, Nat.add_assoc, Nat.max_assoc]

theorem andThen_comm (first second : Cost) : first.andThen second = second.andThen first := by
  simp [andThen, Nat.add_comm, Nat.max_comm]

@[simp] theorem total_nil : total [] = free := rfl

@[simp] theorem total_cons (cost : Cost) (costs : List Cost) :
    total (cost :: costs) = cost.andThen (total costs) := rfl

theorem total_concat (costs : List Cost) (last : Cost) :
    total (costs ++ [last]) = (total costs).andThen last := by
  induction costs with
  | nil => simp
  | cons cost costs ih => rw [List.cons_append, total_cons, total_cons, ih, andThen_assoc]

namespace Within

theorem refl (cost : Cost) : cost.Within cost := ⟨Nat.le_refl _, Nat.le_refl _, Nat.le_refl _⟩

theorem free (cost : Cost) : Cost.free.Within cost := ⟨Nat.zero_le _, Nat.zero_le _, Nat.zero_le _⟩

theorem inScope {spent cost : Cost} (within : spent.Within cost) : spent.inScope.Within cost.inScope :=
  ⟨within.nodes, Nat.succ_le_succ within.scopes, Nat.succ_le_succ within.reach⟩

theorem inNode {spent cost : Cost} (within : spent.Within cost) : spent.inNode.Within cost.inNode :=
  ⟨Nat.succ_le_succ within.nodes, within.scopes, within.reach⟩

/-- What comes later may cost something as well. -/
theorem before {spent cost : Cost} (within : spent.Within cost) (later : Cost) :
    spent.Within (cost.andThen later) :=
  ⟨Nat.le_trans within.nodes (Nat.le_add_right _ _), Nat.le_trans within.scopes (Nat.le_add_right _ _),
    Nat.le_trans within.reach (Nat.le_max_left _ _)⟩

theorem after {spent cost : Cost} (earlier : Cost) (within : spent.Within cost) :
    (earlier.andThen spent).Within (earlier.andThen cost) :=
  ⟨Nat.add_le_add_left within.nodes _, Nat.add_le_add_left within.scopes _,
    Nat.max_le.mpr ⟨Nat.le_max_left _ _, Nat.le_trans within.reach (Nat.le_max_right _ _)⟩⟩

end Within

end Cost

/-! ## Costs of trees -/

namespace Expr

mutual

/-- The number of nodes. -/
def size : Expr → Nat
  | literal _ _ => 1
  | property _ _ _ => 1
  | reference _ _ => 1
  | indexer index _ => 1 + size index
  | method _ args _ _ => 1 + sizes args
  | assign target value _ => 1 + size target + size value
  | chain head tail _ => 1 + size head + sizes tail

/-- The number of nodes in several trees. -/
def sizes : List Expr → Nat
  | [] => 0
  | e :: rest => size e + sizes rest

end

mutual

/-- The number of scopes: one for each segment of a chain after the first, one for each index and one for
each call with arguments. -/
def scopes : Expr → Nat
  | literal _ _ => 0
  | property _ _ _ => 0
  | reference _ _ => 0
  | indexer index _ => 1 + scopes index
  | method _ args _ _ => (if args.isEmpty then 0 else 1) + scopesAll args
  | assign target value _ => scopes target + scopes value
  | chain head tail _ => tail.length + scopes head + scopesAll tail

/-- The number of scopes in several trees. -/
def scopesAll : List Expr → Nat
  | [] => 0
  | e :: rest => scopes e + scopesAll rest

end

mutual

/-- The greatest number of scopes inside each other. -/
def reach : Expr → Nat
  | literal _ _ => 0
  | property _ _ _ => 0
  | reference _ _ => 0
  | indexer index _ => 1 + reach index
  | method _ args _ _ => if args.isEmpty then 0 else 1 + reachAll args
  | assign target value _ => max (reach target) (reach value)
  | chain head tail _ => if tail.isEmpty then reach head else max (reach head) (1 + reachAll tail)

/-- The greatest number of scopes inside each other in several trees. -/
def reachAll : List Expr → Nat
  | [] => 0
  | e :: rest => max (reach e) (reachAll rest)

end

/-- What a tree costs. -/
def cost (e : Expr) : Cost := ⟨e.size, e.scopes, e.reach⟩

/-! ## Costs of the parts -/

theorem total_cost (es : List Expr) : Cost.total (es.map cost) = ⟨sizes es, scopesAll es, reachAll es⟩ := by
  induction es with
  | nil => rfl
  | cons e es ih => rw [List.map_cons, Cost.total_cons, ih]; rfl

/-- Each of several trees with a scope around it. -/
theorem total_inScope (es : List Expr) :
    Cost.total (es.map (·.cost.inScope)) =
      ⟨sizes es, es.length + scopesAll es, if es.isEmpty then 0 else 1 + reachAll es⟩ := by
  induction es with
  | nil => rfl
  | cons e es ih =>
    rw [List.map_cons, Cost.total_cons, ih]
    ext
    · rfl
    · simp only [Cost.andThen, Cost.inScope, cost, List.length_cons, scopesAll]
      omega
    · cases es with
      | nil => simp [Cost.andThen, Cost.inScope, cost, reachAll, Nat.add_comm]
      | cons next es =>
        simp only [Cost.andThen, Cost.inScope, cost, List.isEmpty_cons, Bool.false_eq_true, if_false,
          reachAll]
        omega

variable (span : Span)

theorem cost_indexer (index : Expr) : (indexer index span).cost = index.cost.inScope.inNode := by
  ext
  · exact Nat.add_comm ..
  · exact Nat.add_comm ..
  · exact Nat.add_comm ..

/-- The arguments of a call have a scope in common. -/
theorem cost_method (name : String) (args : List Expr) (dotted : Bool) :
    (method name args dotted span).cost =
      (if args.isEmpty then .free else (Cost.total (args.map cost)).inScope).inNode := by
  cases args with
  | nil => rfl
  | cons first rest =>
    rw [total_cost]
    ext
    · exact Nat.add_comm ..
    · exact Nat.add_comm ..
    · exact Nat.add_comm ..

theorem cost_assign (target value : Expr) :
    (assign target value span).cost = (value.cost.andThen target.cost).inNode := by
  rw [Cost.andThen_comm]
  ext
  · simp only [cost, size, Cost.andThen, Cost.inNode]
    omega
  · rfl
  · rfl

/-- Each segment of a chain after the first has a scope of its own. -/
theorem cost_chain (head : Expr) (tail : List Expr) :
    (chain head tail span).cost =
      (head.cost.andThen (Cost.total (tail.map (·.cost.inScope)))).inNode := by
  rw [total_inScope]
  ext
  · simp only [cost, size, Cost.andThen, Cost.inNode]
    omega
  · simp only [cost, scopes, Cost.andThen, Cost.inNode]
    omega
  · cases tail with
    | nil => simp [cost, reach, Cost.andThen, Cost.inNode]
    | cons next tail => rfl

end Expr

end DotChain
