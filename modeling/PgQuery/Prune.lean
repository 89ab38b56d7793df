import PgQuery.Walked

/-!
# Unrecognized nodes as leaves

The walker calls its visitor on nothing below a node of a kind outside its `switch`: it logs the
`NOTICE` and returns. `prune` removes the children of every such node of a tree, keeping the
walked fields of the others, so a walk of `t` and a walk of `prune t` reach the same positions
(`walkedFrom_prune`).
-/

namespace PgQuery

mutual

/-- `t` with the children of every node of a kind outside the walker's `switch` removed. -/
def prune : Node → Node
  | .rangeVar «alias» location => .rangeVar (pruneOpt «alias») location
  | .groupingFunc args location => .groupingFunc (pruneOpt args) location
  | .subscriptingRef _ => .subscriptingRef none
  | .funcExpr _ location => .funcExpr none location
  | .namedArgExpr arg location => .namedArgExpr (pruneOpt arg) location
  | .opExpr _ location => .opExpr none location
  | .distinctExpr _ location => .distinctExpr none location
  | .nullIfExpr _ location => .nullIfExpr none location
  | .scalarArrayOpExpr _ location => .scalarArrayOpExpr none location
  | .boolExpr args location => .boolExpr (pruneOpt args) location
  | .subLink testexpr subselect location =>
    .subLink (pruneOpt testexpr) (pruneOpt subselect) location
  | .fieldSelect _ => .fieldSelect none
  | .fieldStore _ => .fieldStore none
  | .relabelType _ location => .relabelType none location
  | .coerceViaIo _ location => .coerceViaIo none location
  | .arrayCoerceExpr _ location => .arrayCoerceExpr none location
  | .convertRowtypeExpr _ location => .convertRowtypeExpr none location
  | .collateExpr _ => .collateExpr none
  | .caseExpr arg args defresult location =>
    .caseExpr (pruneOpt arg) (pruneCaseWhens args) (pruneOpt defresult) location
  | .caseWhen w => .caseWhen ⟨none, none, w.location⟩
  | .rowExpr args location => .rowExpr (pruneOpt args) location
  | .rowCompareExpr _ => .rowCompareExpr none
  | .coalesceExpr args location => .coalesceExpr (pruneOpt args) location
  | .minMaxExpr args location => .minMaxExpr (pruneOpt args) location
  | .xmlExpr namedArgs args location => .xmlExpr (pruneOpt namedArgs) (pruneOpt args) location
  | .jsonValueExpr rawExpr formattedExpr format =>
    .jsonValueExpr (pruneOpt rawExpr) (pruneOpt formattedExpr) (pruneOpt format)
  | .jsonConstructorExpr args func coercion returning location =>
    .jsonConstructorExpr (pruneOpt args) (pruneOpt func) (pruneOpt coercion) (pruneOpt returning)
    location
  | .jsonIsPredicate expr location => .jsonIsPredicate (pruneOpt expr) location
  | .nullTest arg location => .nullTest (pruneOpt arg) location
  | .booleanTest arg location => .booleanTest (pruneOpt arg) location
  | .coerceToDomain _ location => .coerceToDomain none location
  | .targetEntry _ => .targetEntry none
  | .intoClause rel viewQuery => .intoClause (pruneOpt rel) (pruneOpt viewQuery)
  | .list items => .list (pruneItems items)
  | .aExpr lexpr rexpr location => .aExpr (pruneOpt lexpr) (pruneOpt rexpr) location
  | .funcCall args aggOrder aggFilter over location =>
    .funcCall (pruneOpt args) (pruneOpt aggOrder) (pruneOpt aggFilter) (pruneOpt over) location
  | .aArrayExpr elements location => .aArrayExpr (pruneOpt elements) location
  | .resTarget indirection val location => .resTarget (pruneOpt indirection) (pruneOpt val) location
  | .multiAssignRef source => .multiAssignRef (pruneOpt source)
  | .typeCast arg typeName location => .typeCast (pruneOpt arg) (pruneTypeName typeName) location
  | .collateClause arg => .collateClause (pruneOpt arg)
  | .sortBy node => .sortBy (pruneOpt node)
  | .windowDef partitionClause orderClause startOffset endOffset location =>
    .windowDef (pruneOpt partitionClause) (pruneOpt orderClause) (pruneOpt startOffset) (pruneOpt
    endOffset) location
  | .rangeTableSample relation args repeatable location =>
    .rangeTableSample (pruneOpt relation) (pruneOpt args) (pruneOpt repeatable) location
  | .typeName tn => .typeName (pruneTypeName tn)
  | .columnDef typeName rawDefault collClause location =>
    .columnDef (pruneOpt typeName) (pruneOpt rawDefault) (pruneOpt collClause) location
  | .functionParameter _ => .functionParameter none
  | .xmlSerialize expr typeName location =>
    .xmlSerialize (pruneOpt expr) (pruneOpt typeName) location
  | .groupingSet content location => .groupingSet (pruneOpt content) location
  | .withClause ctes location => .withClause (pruneOpt ctes) location
  | .inferClause indexElems whereClause location =>
    .inferClause (pruneOpt indexElems) (pruneOpt whereClause) location
  | .onConflictClause infer targetList whereClause location =>
    .onConflictClause (pruneOpt infer) (pruneOpt targetList) (pruneOpt whereClause) location
  | .commonTableExpr ctequery location => .commonTableExpr (pruneOpt ctequery) location
  | .jsonKeyValue key value => .jsonKeyValue (pruneOpt key) (pruneOpt value)
  | .jsonObjectConstructor output exprs location =>
    .jsonObjectConstructor (pruneOpt output) (pruneOpt exprs) location
  | .jsonArrayConstructor output exprs location =>
    .jsonArrayConstructor (pruneOpt output) (pruneOpt exprs) location
  | .jsonArrayQueryConstructor output query location =>
    .jsonArrayQueryConstructor (pruneOpt output) (pruneOpt query) location
  | .jsonAggConstructor output aggOrder aggFilter over location =>
    .jsonAggConstructor (pruneOpt output) (pruneOpt aggOrder) (pruneOpt aggFilter) (pruneOpt over)
    location
  | .jsonObjectAgg constructor arg => .jsonObjectAgg (pruneOpt constructor) (pruneOpt arg)
  | .jsonArrayAgg constructor arg => .jsonArrayAgg (pruneOpt constructor) (pruneOpt arg)
  | .placeHolderVar _ => .placeHolderVar none
  | .inferenceElem _ => .inferenceElem none
  | .jsonReturning format => .jsonReturning (pruneOpt format)
  | .joinExpr larg rarg quals «alias» =>
    .joinExpr (pruneOpt larg) (pruneOpt rarg) (pruneOpt quals) (pruneOpt «alias»)
  | .insertStmt relation cols selectStmt onConflictClause returningList withClause =>
    .insertStmt (pruneOpt relation) (pruneOpt cols) (pruneOpt selectStmt) (pruneOpt
    onConflictClause) (pruneOpt returningList) (pruneOpt withClause)
  | .deleteStmt relation usingClause whereClause returningList withClause =>
    .deleteStmt (pruneOpt relation) (pruneOpt usingClause) (pruneOpt whereClause) (pruneOpt
    returningList) (pruneOpt withClause)
  | .updateStmt relation targetList whereClause fromClause returningList withClause =>
    .updateStmt (pruneOpt relation) (pruneOpt targetList) (pruneOpt whereClause) (pruneOpt
    fromClause) (pruneOpt returningList) (pruneOpt withClause)
  | .mergeStmt relation sourceRelation joinCondition mergeWhenClauses withClause =>
    .mergeStmt (pruneOpt relation) (pruneOpt sourceRelation) (pruneOpt joinCondition) (pruneOpt
    mergeWhenClauses) (pruneOpt withClause)
  | .mergeWhenClause condition targetList values =>
    .mergeWhenClause (pruneOpt condition) (pruneOpt targetList) (pruneOpt values)
  | .selectStmt distinctClause intoClause targetList fromClause whereClause groupClause
      havingClause windowClause valuesLists sortClause limitOffset limitCount lockingClause
      withClause larg rarg =>
    .selectStmt (pruneOpt distinctClause) (pruneOpt intoClause) (pruneOpt targetList) (pruneOpt
    fromClause) (pruneOpt whereClause) (pruneOpt groupClause) (pruneOpt havingClause) (pruneOpt
    windowClause) (pruneOpt valuesLists) (pruneOpt sortClause) (pruneOpt limitOffset) (pruneOpt
    limitCount) (pruneOpt lockingClause) (pruneOpt withClause) (pruneOpt larg) (pruneOpt rarg)
  | .plAssignStmt indirection val => .plAssignStmt (pruneOpt indirection) (pruneOpt val)
  | .aIndices lidx uidx => .aIndices (pruneOpt lidx) (pruneOpt uidx)
  | .aIndirection arg indirection => .aIndirection (pruneOpt arg) (pruneOpt indirection)
  | .rangeSubselect subquery «alias» => .rangeSubselect (pruneOpt subquery) (pruneOpt «alias»)
  | .rangeFunction functions «alias» coldeflist =>
    .rangeFunction (pruneOpt functions) (pruneOpt «alias») (pruneOpt coldeflist)
  | .rangeTableFunc docexpr rowexpr namespaces columns «alias» =>
    .rangeTableFunc (pruneOpt docexpr) (pruneOpt rowexpr) (pruneOpt namespaces) (pruneOpt columns)
    (pruneOpt «alias»)
  | .rangeTableFuncCol colexpr coldefexpr =>
    .rangeTableFuncCol (pruneOpt colexpr) (pruneOpt coldefexpr)
  | .indexElem expr => .indexElem (pruneOpt expr)
  | .lockingClause lockedRels => .lockingClause (pruneOpt lockedRels)
  | .jsonOutput typeName returning => .jsonOutput (pruneOpt typeName) (pruneOpt returning)
  | .other tag _ => .other tag []
  | m@(.tableFunc _) | m@(.var _) | m@(.const _) | m@(.param _) | m@(.aggref _)
  | m@(.windowFunc _) | m@(.arrayExpr _) | m@(.sqlValueFunction _) | m@(.jsonFormat _)
  | m@(.coerceToDomainValue _) | m@(.setToDefault _) | m@(.columnRef _) | m@(.paramRef _)
  | m@(.aConst _) | m@(.constraint _) | m@(.cteSearchClause _) | m@(.cteCycleClause _)
  | m@(.partitionElem _) | m@(.partitionSpec _) | m@(.partitionBoundSpec _)
  | m@(.partitionRangeDatum _) | m@(.currentOfExpr) | m@(.integer) | m@(.float) | m@(.boolean)
  | m@(.string) | m@(.bitString) | m@(.aStar) | m@(.«alias») => m
termination_by structural n => n

/-- `prune` on a field that may be `NULL`. -/
def pruneOpt : Option Node → Option Node
  | none => none
  | some n => some (prune n)
termination_by structural x => x

/-- `prune` on each member of a `List`. -/
def pruneItems : List (Option Node) → List (Option Node)
  | [] => []
  | x :: xs => pruneOpt x :: pruneItems xs
termination_by structural xs => xs

/-- `prune` on the `expr` and `result` of each `CaseWhen` of a `CaseExpr`. -/
def pruneCaseWhens : List (CaseWhen Node) → List (CaseWhen Node)
  | [] => []
  | w :: ws => pruneCaseWhen w :: pruneCaseWhens ws
termination_by structural ws => ws

/-- `prune` on the `expr` and `result` of a `CaseWhen`. -/
def pruneCaseWhen : CaseWhen Node → CaseWhen Node
  | ⟨expr, result, location⟩ => ⟨pruneOpt expr, pruneOpt result, location⟩
termination_by structural w => w

/-- `prune` on the `typmods` and `arrayBounds` of a `TypeName`. -/
def pruneTypeName : TypeName Node → TypeName Node
  | ⟨typmods, arrayBounds, location⟩ => ⟨pruneOpt typmods, pruneOpt arrayBounds, location⟩
termination_by structural tn => tn

end

end PgQuery
