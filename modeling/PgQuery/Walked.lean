import PgQuery.Tree
import PgQuery.Walker

/-!
# What a walk visits

`rawSlots` is the per-kind field order of `raw_expression_tree_walker_impl`: the child slots it
passes to its visitor, which `CallsFalse` follows call by call. A walk with the canonical
recursive visitor `v(m) = m != NULL && (f(m) || walker(m, v))` (`canonicalVisitor`) is specified
over a flat list: `walkedFrom` enumerates the nodes below a tree that the walk reaches, in
preorder and with their depths, and `visitAll` applies `f` along it, stopping at the first
`true`, aborting at a node past the stack budget and logging each node of a kind outside the
`switch`.
-/

namespace PgQuery

/-- The child slots `raw_expression_tree_walker_impl` passes to its visitor, in its order: a
`List`'s members, a `CaseExpr`'s `arg`, each `CaseWhen`'s `expr` and `result`, then its
`defresult`; none for a kind outside its `switch`. -/
def rawSlots : Node → List (Option Node)
  | .rangeVar «alias» _ => [«alias»]
  | .groupingFunc args _ => [args]
  | .namedArgExpr arg _ => [arg]
  | .boolExpr args _ => [args]
  | .subLink testexpr subselect _ => [testexpr, subselect]
  | .caseExpr arg args defresult _ =>
    arg :: args.flatMap (fun w => [w.expr, w.result]) ++ [defresult]
  | .rowExpr args _ => [args]
  | .coalesceExpr args _ => [args]
  | .minMaxExpr args _ => [args]
  | .xmlExpr namedArgs args _ => [namedArgs, args]
  | .jsonValueExpr rawExpr formattedExpr format => [rawExpr, formattedExpr, format]
  | .jsonConstructorExpr args func coercion returning _ => [args, func, coercion, returning]
  | .jsonIsPredicate expr _ => [expr]
  | .nullTest arg _ => [arg]
  | .booleanTest arg _ => [arg]
  | .intoClause rel viewQuery => [rel, viewQuery]
  | .list items => items
  | .aExpr lexpr rexpr _ => [lexpr, rexpr]
  | .funcCall args aggOrder aggFilter over _ => [args, aggOrder, aggFilter, over]
  | .aArrayExpr elements _ => [elements]
  | .resTarget indirection val _ => [indirection, val]
  | .multiAssignRef source => [source]
  | .typeCast arg typeName _ => [arg, some (.typeName typeName)]
  | .collateClause arg => [arg]
  | .sortBy node => [node]
  | .windowDef partitionClause orderClause startOffset endOffset _ =>
    [partitionClause, orderClause, startOffset, endOffset]
  | .rangeTableSample relation args repeatable _ => [relation, args, repeatable]
  | .typeName tn => [tn.typmods, tn.arrayBounds]
  | .columnDef typeName rawDefault collClause _ => [typeName, rawDefault, collClause]
  | .xmlSerialize expr typeName _ => [expr, typeName]
  | .groupingSet content _ => [content]
  | .withClause ctes _ => [ctes]
  | .inferClause indexElems whereClause _ => [indexElems, whereClause]
  | .onConflictClause infer targetList whereClause _ => [infer, targetList, whereClause]
  | .commonTableExpr ctequery _ => [ctequery]
  | .jsonKeyValue key value => [key, value]
  | .jsonObjectConstructor output exprs _ => [output, exprs]
  | .jsonArrayConstructor output exprs _ => [output, exprs]
  | .jsonArrayQueryConstructor output query _ => [output, query]
  | .jsonAggConstructor output aggOrder aggFilter over _ => [output, aggOrder, aggFilter, over]
  | .jsonObjectAgg constructor arg => [constructor, arg]
  | .jsonArrayAgg constructor arg => [constructor, arg]
  | .jsonReturning format => [format]
  | .joinExpr larg rarg quals «alias» => [larg, rarg, quals, «alias»]
  | .insertStmt relation cols selectStmt onConflictClause returningList withClause =>
    [relation, cols, selectStmt, onConflictClause, returningList, withClause]
  | .deleteStmt relation usingClause whereClause returningList withClause =>
    [relation, usingClause, whereClause, returningList, withClause]
  | .updateStmt relation targetList whereClause fromClause returningList withClause =>
    [relation, targetList, whereClause, fromClause, returningList, withClause]
  | .mergeStmt relation sourceRelation joinCondition mergeWhenClauses withClause =>
    [relation, sourceRelation, joinCondition, mergeWhenClauses, withClause]
  | .mergeWhenClause condition targetList values => [condition, targetList, values]
  | .selectStmt distinctClause intoClause targetList fromClause whereClause groupClause
      havingClause windowClause valuesLists sortClause limitOffset limitCount lockingClause
      withClause larg rarg =>
    [distinctClause, intoClause, targetList, fromClause, whereClause, groupClause, havingClause,
    windowClause, valuesLists, sortClause, limitOffset, limitCount, lockingClause, withClause, larg,
    rarg]
  | .plAssignStmt indirection val => [indirection, val]
  | .aIndices lidx uidx => [lidx, uidx]
  | .aIndirection arg indirection => [arg, indirection]
  | .rangeSubselect subquery «alias» => [subquery, «alias»]
  | .rangeFunction functions «alias» coldeflist => [functions, «alias», coldeflist]
  | .rangeTableFunc docexpr rowexpr namespaces columns «alias» =>
    [docexpr, rowexpr, namespaces, columns, «alias»]
  | .rangeTableFuncCol colexpr coldefexpr => [colexpr, coldefexpr]
  | .indexElem expr => [expr]
  | .lockingClause lockedRels => [lockedRels]
  | .jsonOutput typeName returning => [typeName, returning]
  | .tableFunc _ | .var _ | .const _ | .param _ | .aggref _ | .windowFunc _ | .subscriptingRef _
  | .funcExpr _ _ | .opExpr _ _ | .distinctExpr _ _ | .nullIfExpr _ _ | .scalarArrayOpExpr _ _
  | .fieldSelect _ | .fieldStore _ | .relabelType _ _ | .coerceViaIo _ _ | .arrayCoerceExpr _ _
  | .convertRowtypeExpr _ _ | .collateExpr _ | .caseWhen _ | .arrayExpr _ | .rowCompareExpr _
  | .sqlValueFunction _ | .jsonFormat _ | .coerceToDomain _ _ | .coerceToDomainValue _
  | .setToDefault _ | .targetEntry _ | .columnRef _ | .paramRef _ | .aConst _ | .constraint _
  | .functionParameter _ | .cteSearchClause _ | .cteCycleClause _ | .placeHolderVar _
  | .inferenceElem _ | .partitionElem _ | .partitionSpec _ | .partitionBoundSpec _
  | .partitionRangeDatum _ | .currentOfExpr | .integer | .float | .boolean | .string | .bitString
  | .aStar | .«alias» | .other _ _ => []

/-- The kinds `raw_expression_tree_walker_impl`'s `switch` names. -/
def recognized : Node → Bool
  | .rangeVar _ _ | .groupingFunc _ _ | .namedArgExpr _ _ | .boolExpr _ _ | .subLink _ _ _
  | .caseExpr _ _ _ _ | .rowExpr _ _ | .coalesceExpr _ _ | .minMaxExpr _ _ | .sqlValueFunction _
  | .xmlExpr _ _ _ | .jsonFormat _ | .jsonValueExpr _ _ _ | .jsonConstructorExpr _ _ _ _ _
  | .jsonIsPredicate _ _ | .nullTest _ _ | .booleanTest _ _ | .setToDefault _ | .intoClause _ _
  | .list _ | .aExpr _ _ _ | .columnRef _ | .paramRef _ | .aConst _ | .funcCall _ _ _ _ _
  | .aArrayExpr _ _ | .resTarget _ _ _ | .multiAssignRef _ | .typeCast _ _ _ | .collateClause _
  | .sortBy _ | .windowDef _ _ _ _ _ | .rangeTableSample _ _ _ _ | .typeName _
  | .columnDef _ _ _ _ | .xmlSerialize _ _ _ | .groupingSet _ _ | .withClause _ _
  | .inferClause _ _ _ | .onConflictClause _ _ _ _ | .commonTableExpr _ _ | .jsonKeyValue _ _
  | .jsonObjectConstructor _ _ _ | .jsonArrayConstructor _ _ _ | .jsonArrayQueryConstructor _ _ _
  | .jsonAggConstructor _ _ _ _ _ | .jsonObjectAgg _ _ | .jsonArrayAgg _ _ | .currentOfExpr
  | .integer | .float | .boolean | .string | .bitString | .aStar | .«alias» | .jsonReturning _
  | .joinExpr _ _ _ _ | .insertStmt _ _ _ _ _ _ | .deleteStmt _ _ _ _ _ | .updateStmt _ _ _ _ _ _
  | .mergeStmt _ _ _ _ _ | .mergeWhenClause _ _ _ | .selectStmt _ _ _ _ _ _ _ _ _ _ _ _ _ _ _ _
  | .plAssignStmt _ _ | .aIndices _ _ | .aIndirection _ _ | .rangeSubselect _ _
  | .rangeFunction _ _ _ | .rangeTableFunc _ _ _ _ _ | .rangeTableFuncCol _ _ | .indexElem _
  | .lockingClause _ | .jsonOutput _ _ => true
  | .tableFunc _ | .var _ | .const _ | .param _ | .aggref _ | .windowFunc _ | .subscriptingRef _
  | .funcExpr _ _ | .opExpr _ _ | .distinctExpr _ _ | .nullIfExpr _ _ | .scalarArrayOpExpr _ _
  | .fieldSelect _ | .fieldStore _ | .relabelType _ _ | .coerceViaIo _ _ | .arrayCoerceExpr _ _
  | .convertRowtypeExpr _ _ | .collateExpr _ | .caseWhen _ | .arrayExpr _ | .rowCompareExpr _
  | .coerceToDomain _ _ | .coerceToDomainValue _ | .targetEntry _ | .constraint _
  | .functionParameter _ | .cteSearchClause _ | .cteCycleClause _ | .placeHolderVar _
  | .inferenceElem _ | .partitionElem _ | .partitionSpec _ | .partitionBoundSpec _
  | .partitionRangeDatum _ | .other _ _ => false

/-- A walked slot is a child of its node, or a child of one of a `CaseExpr`'s `CaseWhen`s. -/
theorem mem_rawSlots_cases {n : Node} {x : Option Node} (hx : x ∈ rawSlots n) :
    x ∈ children n ∨ ∃ w, some (.caseWhen w) ∈ children n ∧ x ∈ children (.caseWhen w) := by
  cases n
  case caseExpr arg args defresult location =>
    change x ∈ (arg :: args.flatMap fun w => [w.expr, w.result]) ++ [defresult] at hx
    rw [List.cons_append, List.mem_cons, List.mem_append, List.mem_flatMap, List.mem_singleton]
      at hx
    rcases hx with rfl | ⟨w, hw, hx⟩ | rfl
    · exact .inl (List.mem_append_left _ (List.mem_cons_self _ _))
    · exact .inr ⟨w, List.mem_append_left _
        (List.mem_cons_of_mem _ (List.mem_map_of_mem (some ∘ Node.caseWhen) hw)), hx⟩
    · exact .inl (List.mem_append_right _ (List.mem_singleton_self _))
  all_goals first
    | exact absurd hx (List.not_mem_nil x)
    | exact .inl hx

theorem sizeOf_lt_of_mem_rawSlots {n : Node} {x : Option Node} (hx : x ∈ rawSlots n) :
    sizeOf x < sizeOf n := by
  rcases mem_rawSlots_cases hx with h | ⟨w, hw, h⟩
  · exact sizeOf_lt_of_mem_children n x h
  · exact Nat.lt_trans (sizeOf_lt_of_mem_children _ x h) (sizeOf_lt_of_some_mem_children hw)

theorem sizeOf_lt_of_some_mem_rawSlots {n m : Node} (h : some m ∈ rawSlots n) :
    sizeOf m < sizeOf n :=
  Nat.lt_trans (by simp) (sizeOf_lt_of_mem_rawSlots h)

variable {σ : Type}

/-! ## A visitor's calls -/

/-- `CallsFalse walker xs s s'`: the visitor, called on each slot of `xs` in turn, each call from
the backend the previous one left, answers `false` every time, and the last call leaves `s'`. -/
inductive CallsFalse (walker : TreeWalkerCallback σ) :
    List (Option Node) → Backend σ → Backend σ → Prop
  | nil (s : Backend σ) : CallsFalse walker [] s s
  | cons {x : Option Node} {xs : List (Option Node)} {s s₁ s' : Backend σ} :
    walker x s = .ok (false, s₁) → CallsFalse walker xs s₁ s' → CallsFalse walker (x :: xs) s s'

theorem callsFalse_cons_iff {walker : TreeWalkerCallback σ} {x : Option Node}
    {xs : List (Option Node)} {s s' : Backend σ} :
    CallsFalse walker (x :: xs) s s' ↔
      ∃ s₁, walker x s = .ok (false, s₁) ∧ CallsFalse walker xs s₁ s' :=
  ⟨fun | .cons h hs => ⟨_, h, hs⟩, fun ⟨_, h, hs⟩ => .cons h hs⟩

/-! ## The canonical walk -/

/-- Entering a node: the `NOTICE` of the walker's `default` case for a kind outside its
`switch`. -/
def enter (m : Node) (s : Backend σ) : Backend σ :=
  if recognized m then s else unrecognizedNodeType m s

@[simp] theorem enter_context (m : Node) (s : Backend σ) : (enter m s).context = s.context := by
  unfold enter unrecognizedNodeType
  split <;> rfl

/-- `f(m)`: `f` answers at `m`, reading and updating the walk's context. -/
def call (f : Node → σ → Bool × σ) (m : Node) : Walk σ := fun s =>
  let r := f m s.context
  .ok (r.1, { s with context := r.2 })

/-- The canonical recursive visitor `v(m) = m != NULL && (f(m) || walker(m, v))`, with `stack`
walker frames of budget left for the walks it starts; with none left the walker's stack check
fails before it calls a visitor. -/
def canonicalVisitor (f : Node → σ → Bool × σ) : Nat → TreeWalkerCallback σ
  | _, none => done
  | 0, some m => andThen (call f m) (rawExpressionTreeWalkerImpl 0 (fun _ => done) (some m))
  | stack + 1, some m =>
    andThen (call f m) (rawExpressionTreeWalkerImpl (stack + 1) (canonicalVisitor f stack) (some m))

/-- The walk from `t`: `raw_expression_tree_walker_impl(t, v)` with the canonical visitor. -/
def walkFrom (f : Node → σ → Bool × σ) (stack : Nat) (t : Option Node) : Walk σ :=
  rawExpressionTreeWalkerImpl stack (canonicalVisitor f (stack - 1)) t

/-- The nodes a walk from `t` passes to its visitor, in preorder, each with its depth below `t`
counted from `d`. -/
def walkedFrom (t : Node) (d : Nat) : List (Node × Nat) :=
  (rawSlots t).attach.flatMap fun ⟨c, hc⟩ =>
    match c, hc with
    | none, _ => []
    | some m, hm => (m, d) :: walkedFrom m (d + 1)
termination_by sizeOf t
decreasing_by exact sizeOf_lt_of_some_mem_rawSlots hm

/-- One slot's part of `walkedFrom`: nothing for an absent slot, else its node at depth `d` and
the nodes below it. -/
def walkedSlot (d : Nat) : Option Node → List (Node × Nat)
  | none => []
  | some m => (m, d) :: walkedFrom m (d + 1)

/-- The nodes below `t` that a walk from `t` passes to its visitor, in preorder. -/
def walked (t : Node) : List Node := (walkedFrom t 1).map Prod.fst

/-- The depth of the deepest node a walk from `t` reaches: the walker frames it nests. -/
def walkDepth (t : Node) : Nat := (walkedFrom t 1).foldr (fun p h => max p.2 h) 0

theorem walkedFrom_eq (t : Node) (d : Nat) :
    walkedFrom t d = (rawSlots t).flatMap (walkedSlot d) := by
  rw [walkedFrom]
  refine (@List.flatMap_subtype _ _ _ _ _ _ ?_).trans (by rw [List.unattach_attach])
  rintro (_ | m) h <;> rfl

theorem sizeOf_lt_of_mem_walkedFrom {t : Node} {d : Nat} {p : Node × Nat}
    (hp : p ∈ walkedFrom t d) : sizeOf p.1 < sizeOf t := by
  rw [walkedFrom_eq, List.mem_flatMap] at hp
  obtain ⟨_ | c, hc, hp⟩ := hp
  · cases hp
  · have hlt := sizeOf_lt_of_some_mem_rawSlots hc
    rcases List.mem_cons.1 hp with rfl | hp
    · exact hlt
    · exact Nat.lt_trans (sizeOf_lt_of_mem_walkedFrom hp) hlt
termination_by sizeOf t

/-- A walk never passes the node it starts from to its visitor. -/
theorem not_mem_walked (t : Node) : t ∉ walked t := fun h => by
  obtain ⟨p, hp, rfl⟩ := List.mem_map.1 h
  exact Nat.lt_irrefl _ (sizeOf_lt_of_mem_walkedFrom hp)

theorem walkedFrom_map_fst (t : Node) (d d' : Nat) :
    (walkedFrom t d).map Prod.fst = (walkedFrom t d').map Prod.fst := by
  rw [walkedFrom_eq, walkedFrom_eq, List.map_flatMap, List.map_flatMap]
  refine List.flatMap_congr fun c hc => ?_
  cases c with
  | none => rfl
  | some m =>
    have := sizeOf_lt_of_some_mem_rawSlots hc
    simp only [walkedSlot, List.map_cons, walkedFrom_map_fst m (d + 1) (d' + 1)]
termination_by sizeOf t

theorem le_walkDepth {t : Node} {p : Node × Nat} (hp : p ∈ walkedFrom t 1) :
    p.2 ≤ walkDepth t := by
  unfold walkDepth
  generalize walkedFrom t 1 = W at hp ⊢
  induction W with
  | nil => cases hp
  | cons q W ih =>
    rcases List.mem_cons.1 hp with rfl | hp
    · exact Nat.le_max_left _ _
    · exact Nat.le_trans (ih hp) (Nat.le_max_right _ _)

/-- A walk along a preorder list: `f` at each node until it answers `true`; a node at depth
`stack` or more aborts, as `check_stack_depth` does on the way into it, and a node of a kind
outside the `switch` is logged. -/
def visitAll (f : Node → σ → Bool × σ) (stack : Nat) : List (Node × Nat) → Walk σ → Walk σ
  | [], k => k
  | (m, d) :: rest, k => andThen (call f m) fun s =>
    if stack ≤ d then .error .stackDepthExceeded else visitAll f stack rest k (enter m s)

/-- The walk from `t`, specified along the nodes it reaches. -/
def walkSpec (f : Node → σ → Bool × σ) (stack : Nat) (t : Node) : Walk σ := fun s =>
  if stack = 0 then .error .stackDepthExceeded
  else visitAll f stack (walkedFrom t 1) done (enter t s)

section steps

variable (f : Node → σ → Bool × σ) (stack : Nat) {m : Node} {d : Nat} {W : List (Node × Nat)}
  {k : Walk σ} {s : Backend σ}

theorem visitAll_cons_true (h : (f m s.context).1 = true) :
    visitAll f stack ((m, d) :: W) k s = .ok (true, { s with context := (f m s.context).2 }) := by
  simp only [visitAll, andThen, call, h]

theorem visitAll_cons_false (h : (f m s.context).1 = false) :
    visitAll f stack ((m, d) :: W) k s =
      if stack ≤ d then .error .stackDepthExceeded
      else visitAll f stack W k (enter m { s with context := (f m s.context).2 }) := by
  simp only [visitAll, andThen, call, h]

/-- A step of the walk along a preorder list that returns: `f` answered `true` at its node, or
answered `false` within the budget and the walk goes on from the node entered. -/
theorem visitAll_cons_ok {r : Bool × Backend σ} (h : visitAll f stack ((m, d) :: W) k s = .ok r) :
    (f m s.context).1 = true ∧ r = (true, { s with context := (f m s.context).2 }) ∨
      (f m s.context).1 = false ∧ d < stack ∧
        visitAll f stack W k (enter m { s with context := (f m s.context).2 }) = .ok r := by
  cases hb : (f m s.context).1
  · rw [visitAll_cons_false f stack hb] at h
    by_cases hd : stack ≤ d
    · rw [if_pos hd] at h
      cases h
    · rw [if_neg hd] at h
      exact .inr ⟨rfl, by omega, h⟩
  · rw [visitAll_cons_true f stack hb] at h
    cases h
    exact .inl ⟨rfl, rfl⟩

/-- A walk that returns had a frame of budget and walked the nodes below its start node. -/
theorem walkSpec_ok {t : Node} {r : Bool × Backend σ} (h : walkSpec f stack t s = .ok r) :
    0 < stack ∧ visitAll f stack (walkedFrom t 1) done (enter t s) = .ok r := by
  unfold walkSpec at h
  by_cases h0 : stack = 0
  · rw [if_pos h0] at h
    cases h
  · rw [if_neg h0] at h
    exact ⟨Nat.pos_of_ne_zero h0, h⟩

end steps

/-! ## A walk within the stack budget -/

/-- `f` along `ms` until it answers `true`, entering each node it answers `false` at. -/
def runUntil (f : Node → σ → Bool × σ) : List Node → Backend σ → Bool × Backend σ
  | [], s => (false, s)
  | m :: ms, s =>
    let r := f m s.context
    if r.1 then (true, { s with context := r.2 })
    else runUntil f ms (enter m { s with context := r.2 })

/-- The nodes of `ms` that `f`, run from context `c`, answers `false` at before its first `true`. -/
def passedOver (f : Node → σ → Bool × σ) : List Node → σ → List Node
  | [], _ => []
  | m :: ms, c =>
    let r := f m c
    if r.1 then [] else m :: passedOver f ms r.2

/-- The prefix of `ms` that ends at its first node satisfying `p`; all of `ms` when none does. -/
def takeThrough (p : Node → Bool) : List Node → List Node
  | [] => []
  | m :: ms => if p m then [m] else m :: takeThrough p ms

theorem takeThrough_false (ms : List Node) : takeThrough (fun _ => false) ms = ms := by
  induction ms with
  | nil => rfl
  | cons m ms ih => simp [takeThrough, ih]

/-- The visitor that answers `p` and appends each node it is called on to its context. -/
def recordUntil (p : Node → Bool) (m : Node) (calls : List Node) : Bool × List Node :=
  (p m, calls ++ [m])

end PgQuery
