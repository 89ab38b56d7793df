import PgQuery.Node

/-!
# The tree a node roots

`children` lists every child slot a node holds, `ownLocation` its own `location` field; a node
of a tree is the tree or a node of one of its children (`NodeOf`). Every child is smaller than its
parent (`sizeOf_lt_of_mem_children`), so a property inherited from the children holds of every
node (`Node.induction`).
-/

namespace PgQuery

/-- Every child slot a node holds, in field order; a `CaseExpr`'s `CaseWhen`s and a `TypeCast`'s
`TypeName` are children as the nodes they are. -/
def children : Node → List (Option Node)
  | .rangeVar «alias» _ => [«alias»]
  | .groupingFunc args _ => [args]
  | .subscriptingRef refexpr => [refexpr]
  | .funcExpr args _ => [args]
  | .namedArgExpr arg _ => [arg]
  | .opExpr args _ => [args]
  | .distinctExpr args _ => [args]
  | .nullIfExpr args _ => [args]
  | .scalarArrayOpExpr args _ => [args]
  | .boolExpr args _ => [args]
  | .subLink testexpr subselect _ => [testexpr, subselect]
  | .fieldSelect arg => [arg]
  | .fieldStore arg => [arg]
  | .relabelType arg _ => [arg]
  | .coerceViaIo arg _ => [arg]
  | .arrayCoerceExpr arg _ => [arg]
  | .convertRowtypeExpr arg _ => [arg]
  | .collateExpr arg => [arg]
  | .caseExpr arg args defresult _ => arg :: args.map (some ∘ .caseWhen) ++ [defresult]
  | .caseWhen w => [w.expr, w.result]
  | .rowExpr args _ => [args]
  | .rowCompareExpr largs => [largs]
  | .coalesceExpr args _ => [args]
  | .minMaxExpr args _ => [args]
  | .xmlExpr namedArgs args _ => [namedArgs, args]
  | .jsonValueExpr rawExpr formattedExpr format => [rawExpr, formattedExpr, format]
  | .jsonConstructorExpr args func coercion returning _ => [args, func, coercion, returning]
  | .jsonIsPredicate expr _ => [expr]
  | .nullTest arg _ => [arg]
  | .booleanTest arg _ => [arg]
  | .coerceToDomain arg _ => [arg]
  | .targetEntry expr => [expr]
  | .intoClause rel viewQuery => [rel, viewQuery]
  | .list items => items
  | .aExpr lexpr rexpr _ => [lexpr, rexpr]
  | .funcCall args aggOrder aggFilter over _ => [args, aggOrder, aggFilter, over]
  | .aArrayExpr elements _ => [elements]
  | .resTarget indirection val _ => [indirection, val]
  | .multiAssignRef source => [source]
  | .typeCast arg typeName _ => [arg, some (.typeName typeName)]
  | .collateClause arg => [arg]
  | .sortBy node => [node]
  | .windowDef partitionClause orderClause startOffset endOffset _ =>
    [partitionClause, orderClause, startOffset, endOffset]
  | .rangeTableSample relation args repeatable _ => [relation, args, repeatable]
  | .typeName tn => [tn.typmods, tn.arrayBounds]
  | .columnDef typeName rawDefault collClause _ => [typeName, rawDefault, collClause]
  | .functionParameter argType => [argType]
  | .xmlSerialize expr typeName _ => [expr, typeName]
  | .groupingSet content _ => [content]
  | .withClause ctes _ => [ctes]
  | .inferClause indexElems whereClause _ => [indexElems, whereClause]
  | .onConflictClause infer targetList whereClause _ => [infer, targetList, whereClause]
  | .commonTableExpr ctequery _ => [ctequery]
  | .jsonKeyValue key value => [key, value]
  | .jsonObjectConstructor output exprs _ => [output, exprs]
  | .jsonArrayConstructor output exprs _ => [output, exprs]
  | .jsonArrayQueryConstructor output query _ => [output, query]
  | .jsonAggConstructor output aggOrder aggFilter over _ => [output, aggOrder, aggFilter, over]
  | .jsonObjectAgg constructor arg => [constructor, arg]
  | .jsonArrayAgg constructor arg => [constructor, arg]
  | .placeHolderVar phexpr => [phexpr]
  | .inferenceElem expr => [expr]
  | .jsonReturning format => [format]
  | .joinExpr larg rarg quals «alias» => [larg, rarg, quals, «alias»]
  | .insertStmt relation cols selectStmt onConflictClause returningList withClause =>
    [relation, cols, selectStmt, onConflictClause, returningList, withClause]
  | .deleteStmt relation usingClause whereClause returningList withClause =>
    [relation, usingClause, whereClause, returningList, withClause]
  | .updateStmt relation targetList whereClause fromClause returningList withClause =>
    [relation, targetList, whereClause, fromClause, returningList, withClause]
  | .mergeStmt relation sourceRelation joinCondition mergeWhenClauses withClause =>
    [relation, sourceRelation, joinCondition, mergeWhenClauses, withClause]
  | .mergeWhenClause condition targetList values => [condition, targetList, values]
  | .selectStmt distinctClause intoClause targetList fromClause whereClause groupClause
      havingClause windowClause valuesLists sortClause limitOffset limitCount lockingClause
      withClause larg rarg =>
    [distinctClause, intoClause, targetList, fromClause, whereClause, groupClause, havingClause,
    windowClause, valuesLists, sortClause, limitOffset, limitCount, lockingClause, withClause, larg,
    rarg]
  | .plAssignStmt indirection val => [indirection, val]
  | .aIndices lidx uidx => [lidx, uidx]
  | .aIndirection arg indirection => [arg, indirection]
  | .rangeSubselect subquery «alias» => [subquery, «alias»]
  | .rangeFunction functions «alias» coldeflist => [functions, «alias», coldeflist]
  | .rangeTableFunc docexpr rowexpr namespaces columns «alias» =>
    [docexpr, rowexpr, namespaces, columns, «alias»]
  | .rangeTableFuncCol colexpr coldefexpr => [colexpr, coldefexpr]
  | .indexElem expr => [expr]
  | .lockingClause lockedRels => [lockedRels]
  | .jsonOutput typeName returning => [typeName, returning]
  | .other _ children => children
  | .tableFunc _ | .var _ | .const _ | .param _ | .aggref _ | .windowFunc _ | .arrayExpr _
  | .sqlValueFunction _ | .jsonFormat _ | .coerceToDomainValue _ | .setToDefault _ | .columnRef _
  | .paramRef _ | .aConst _ | .constraint _ | .cteSearchClause _ | .cteCycleClause _
  | .partitionElem _ | .partitionSpec _ | .partitionBoundSpec _ | .partitionRangeDatum _
  | .currentOfExpr | .integer | .float | .boolean | .string | .bitString | .aStar | .«alias» => []

/-- The node's own `location` field, when its kind has one. -/
def ownLocation : Node → Option Int
  | .caseWhen w => some w.location
  | .typeName tn => some tn.location
  | .rangeVar _ location | .tableFunc location | .var location | .const location | .param location
  | .aggref location | .groupingFunc _ location | .windowFunc location | .funcExpr _ location
  | .namedArgExpr _ location | .opExpr _ location | .distinctExpr _ location
  | .nullIfExpr _ location | .scalarArrayOpExpr _ location | .boolExpr _ location
  | .subLink _ _ location | .relabelType _ location | .coerceViaIo _ location
  | .arrayCoerceExpr _ location | .convertRowtypeExpr _ location | .caseExpr _ _ _ location
  | .arrayExpr location | .rowExpr _ location | .coalesceExpr _ location | .minMaxExpr _ location
  | .sqlValueFunction location | .xmlExpr _ _ location | .jsonFormat location
  | .jsonConstructorExpr _ _ _ _ location | .jsonIsPredicate _ location | .nullTest _ location
  | .booleanTest _ location | .coerceToDomain _ location | .coerceToDomainValue location
  | .setToDefault location | .aExpr _ _ location | .columnRef location | .paramRef location
  | .aConst location | .funcCall _ _ _ _ location | .aArrayExpr _ location
  | .resTarget _ _ location | .typeCast _ _ location | .windowDef _ _ _ _ location
  | .rangeTableSample _ _ _ location | .columnDef _ _ _ location | .constraint location
  | .xmlSerialize _ _ location | .groupingSet _ location | .withClause _ location
  | .inferClause _ _ location | .onConflictClause _ _ _ location | .cteSearchClause location
  | .cteCycleClause location | .commonTableExpr _ location | .jsonObjectConstructor _ _ location
  | .jsonArrayConstructor _ _ location | .jsonArrayQueryConstructor _ _ location
  | .jsonAggConstructor _ _ _ _ location | .partitionElem location | .partitionSpec location
  | .partitionBoundSpec location | .partitionRangeDatum location => some location
  | .subscriptingRef _ | .fieldSelect _ | .fieldStore _ | .collateExpr _ | .rowCompareExpr _
  | .jsonValueExpr _ _ _ | .targetEntry _ | .intoClause _ _ | .list _ | .multiAssignRef _
  | .collateClause _ | .sortBy _ | .functionParameter _ | .jsonKeyValue _ _ | .jsonObjectAgg _ _
  | .jsonArrayAgg _ _ | .placeHolderVar _ | .inferenceElem _ | .currentOfExpr | .integer | .float
  | .boolean | .string | .bitString | .aStar | .«alias» | .jsonReturning _ | .joinExpr _ _ _ _
  | .insertStmt _ _ _ _ _ _ | .deleteStmt _ _ _ _ _ | .updateStmt _ _ _ _ _ _
  | .mergeStmt _ _ _ _ _ | .mergeWhenClause _ _ _ | .selectStmt _ _ _ _ _ _ _ _ _ _ _ _ _ _ _ _
  | .plAssignStmt _ _ | .aIndices _ _ | .aIndirection _ _ | .rangeSubselect _ _
  | .rangeFunction _ _ _ | .rangeTableFunc _ _ _ _ _ | .rangeTableFuncCol _ _ | .indexElem _
  | .lockingClause _ | .jsonOutput _ _ | .other _ _ => none

private theorem sizeOf_option_pos (o : Option Node) : 0 < sizeOf o := by
  cases o <;> simp only [Option.none.sizeOf_spec, Option.some.sizeOf_spec] <;> omega

private theorem sizeOf_int_pos (l : Int) : 0 < sizeOf l := by
  cases l <;> simp only [Int.ofNat.sizeOf_spec, Int.negSucc.sizeOf_spec] <;> omega

theorem sizeOf_lt_of_mem_children (n : Node) : ∀ x ∈ children n, sizeOf x < sizeOf n := by
  cases n <;> simp [children.eq_def] <;> try omega
  case caseExpr arg args defresult location =>
    refine ⟨by omega, ?_⟩
    rintro x (⟨w, hw, rfl⟩ | rfl)
    · have := List.sizeOf_lt_of_mem hw
      have := sizeOf_option_pos arg
      simp only [Option.some.sizeOf_spec, Node.caseWhen.sizeOf_spec]
      omega
    · omega
  case caseWhen w => cases w; simp; omega
  case list items => exact fun x hx => by have := List.sizeOf_lt_of_mem hx; omega
  case typeCast arg tn location =>
    have := sizeOf_option_pos arg
    have := sizeOf_int_pos location
    omega
  case typeName tn => cases tn; simp; omega
  case other tag cs => exact fun x hx => by have := List.sizeOf_lt_of_mem hx; omega

theorem sizeOf_lt_of_some_mem_children {n c : Node} (h : some c ∈ children n) :
    sizeOf c < sizeOf n :=
  Nat.lt_trans (by simp) (sizeOf_lt_of_mem_children n _ h)

/-- A property that holds of a node whenever it holds of the node's children holds of every
node. -/
theorem Node.induction {motive : Node → Prop}
    (ind : ∀ n, (∀ c, some c ∈ children n → motive c) → motive n) (n : Node) : motive n :=
  ind n fun c _ => Node.induction ind c
termination_by sizeOf n
decreasing_by exact sizeOf_lt_of_some_mem_children ‹_›

/-- `NodeOf m t`: `m` is a node of the tree `t`. -/
inductive NodeOf : Node → Node → Prop
  | refl (t : Node) : NodeOf t t
  | child {m c t : Node} : some c ∈ children t → NodeOf m c → NodeOf m t

theorem NodeOf.trans {m c t : Node} (hm : NodeOf m c) (hc : NodeOf c t) : NodeOf m t := by
  induction hc with
  | refl => exact hm
  | child h _ ih => exact .child h ih

theorem NodeOf.of_child {c t : Node} (h : some c ∈ children t) : NodeOf c t :=
  .child h (.refl c)

/-- Every location field stored in the tree is an offset or the unknown sentinel `-1`. -/
def ValidLocations (t : Node) : Prop :=
  ∀ m, NodeOf m t → ∀ l, ownLocation m = some l → -1 ≤ l

theorem ValidLocations.own {t : Node} {l : Int} (h : ValidLocations t)
    (hl : ownLocation t = some l) : -1 ≤ l :=
  h t (.refl t) l hl

theorem ValidLocations.child {c t : Node} (h : ValidLocations t) (hc : some c ∈ children t) :
    ValidLocations c :=
  fun m hm => h m (hm.trans (.of_child hc))

theorem ValidLocations.of_children {t : Node} (hown : ∀ l, ownLocation t = some l → -1 ≤ l)
    (hc : ∀ c, some c ∈ children t → ValidLocations c) : ValidLocations t := by
  intro m hm
  cases hm with
  | refl => exact hown
  | child h hm => exact hc _ h m hm

theorem validLocations_list {xs : List (Option Node)} :
    ValidLocations (.list xs) ↔ ∀ n, some n ∈ xs → ValidLocations n :=
  ⟨fun h _ hn => h.child hn, fun h => .of_children (fun _ hl => Option.noConfusion hl) h⟩

end PgQuery
