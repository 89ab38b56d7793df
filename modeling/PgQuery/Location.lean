import PgQuery.Node

/-!
# `exprLocation`

The parse location of an expression tree, for error reports: the offset of its leftmost token,
or `-1` when it cannot be determined. `exprLocation` takes a `Node *` and answers `-1` for
`NULL`; `exprLocationNode` is its `switch` on a node's kind, and `exprLocationList` the
`foreach` of the `T_List` case, with the loop variable `loc` as its accumulator.
-/

namespace PgQuery

/-- `leftmostLoc`: the minimum of two parse locations, ignoring unknowns; `Min(loc1, loc2)` is
`loc1 < loc2 ? loc1 : loc2`. -/
def leftmostLoc (loc1 loc2 : Int) : Int :=
  if loc1 < 0 then loc2 else if loc2 < 0 then loc1 else if loc1 < loc2 then loc1 else loc2

mutual

/-- `exprLocation`: `-1` for `NULL`, else the `switch` on the node's kind. -/
def exprLocation : Option Node → Int
  | none => -1
  | some n => exprLocationNode n
termination_by structural e => e

/-- The `switch (nodeTag(expr))` of `exprLocation`. -/
def exprLocationNode : Node → Int
  | .rangeVar _ location => location
  | .tableFunc location => location
  | .var location => location
  | .const location => location
  | .param location => location
  | .aggref location => location
  | .groupingFunc _ location => location
  | .windowFunc location => location
  | .subscriptingRef refexpr => exprLocation refexpr
  | .funcExpr args location => leftmostLoc location (exprLocation args)
  | .namedArgExpr arg location => leftmostLoc location (exprLocation arg)
  | .opExpr args location | .distinctExpr args location | .nullIfExpr args location =>
    leftmostLoc location (exprLocation args)
  | .scalarArrayOpExpr args location => leftmostLoc location (exprLocation args)
  | .boolExpr args location => leftmostLoc location (exprLocation args)
  | .subLink testexpr _ location => leftmostLoc (exprLocation testexpr) location
  | .fieldSelect arg => exprLocation arg
  | .fieldStore arg => exprLocation arg
  | .relabelType arg location => leftmostLoc location (exprLocation arg)
  | .coerceViaIo arg location => leftmostLoc location (exprLocation arg)
  | .arrayCoerceExpr arg location => leftmostLoc location (exprLocation arg)
  | .convertRowtypeExpr arg location => leftmostLoc location (exprLocation arg)
  | .collateExpr arg => exprLocation arg
  | .caseExpr _ _ _ location => location
  | .caseWhen w => w.location
  | .arrayExpr location => location
  | .rowExpr _ location => location
  | .rowCompareExpr largs => exprLocation largs
  | .coalesceExpr _ location => location
  | .minMaxExpr _ location => location
  | .sqlValueFunction location => location
  | .xmlExpr _ args location => leftmostLoc location (exprLocation args)
  | .jsonFormat location => location
  | .jsonValueExpr rawExpr _ _ => exprLocation rawExpr
  | .jsonConstructorExpr _ _ _ _ location => location
  | .jsonIsPredicate _ location => location
  | .nullTest arg location => leftmostLoc location (exprLocation arg)
  | .booleanTest arg location => leftmostLoc location (exprLocation arg)
  | .coerceToDomain arg location => leftmostLoc location (exprLocation arg)
  | .coerceToDomainValue location => location
  | .setToDefault location => location
  | .targetEntry expr => exprLocation expr
  | .intoClause rel _ => exprLocation rel
  | .list items => exprLocationList items (-1)
  | .aExpr lexpr _ location => leftmostLoc location (exprLocation lexpr)
  | .columnRef location => location
  | .paramRef location => location
  | .aConst location => location
  | .funcCall args _ _ _ location => leftmostLoc location (exprLocation args)
  | .aArrayExpr _ location => location
  | .resTarget _ _ location => location
  | .multiAssignRef source => exprLocation source
  | .typeCast arg typeName location =>
    leftmostLoc (leftmostLoc (exprLocation arg) typeName.location) location
  | .collateClause arg => exprLocation arg
  | .sortBy node => exprLocation node
  | .windowDef _ _ _ _ location => location
  | .rangeTableSample _ _ _ location => location
  | .typeName tn => tn.location
  | .columnDef _ _ _ location => location
  | .constraint location => location
  | .functionParameter argType => exprLocation argType
  | .xmlSerialize _ _ location => location
  | .groupingSet _ location => location
  | .withClause _ location => location
  | .inferClause _ _ location => location
  | .onConflictClause _ _ _ location => location
  | .cteSearchClause location => location
  | .cteCycleClause location => location
  | .commonTableExpr _ location => location
  | .jsonKeyValue key _ => exprLocation key
  | .jsonObjectConstructor _ _ location => location
  | .jsonArrayConstructor _ _ location => location
  | .jsonArrayQueryConstructor _ _ location => location
  | .jsonAggConstructor _ _ _ _ location => location
  | .jsonObjectAgg constructor _ => exprLocation constructor
  | .jsonArrayAgg constructor _ => exprLocation constructor
  | .placeHolderVar phexpr => exprLocation phexpr
  | .inferenceElem expr => exprLocation expr
  | .partitionElem location => location
  | .partitionSpec location => location
  | .partitionBoundSpec location => location
  | .partitionRangeDatum location => location
  | .currentOfExpr | .integer | .float | .boolean | .string | .bitString | .aStar | .«alias»
  | .jsonReturning _ | .joinExpr _ _ _ _ | .insertStmt _ _ _ _ _ _ | .deleteStmt _ _ _ _ _
  | .updateStmt _ _ _ _ _ _ | .mergeStmt _ _ _ _ _ | .mergeWhenClause _ _ _
  | .selectStmt _ _ _ _ _ _ _ _ _ _ _ _ _ _ _ _ | .plAssignStmt _ _ | .aIndices _ _
  | .aIndirection _ _ | .rangeSubselect _ _ | .rangeFunction _ _ _ | .rangeTableFunc _ _ _ _ _
  | .rangeTableFuncCol _ _ | .indexElem _ | .lockingClause _ | .jsonOutput _ _ | .other _ _ => -1
termination_by structural n => n

/-- The `foreach` of the `T_List` case: `loc = exprLocation(lfirst(lc))`, leaving the loop at
the first `loc >= 0`; `loc` keeps the last member's value when none has one. -/
def exprLocationList : List (Option Node) → Int → Int
  | [], loc => loc
  | x :: xs, _ =>
    let loc := exprLocation x
    if 0 ≤ loc then loc else exprLocationList xs loc
termination_by structural l => l

end

@[simp] theorem exprLocation_none : exprLocation none = -1 := rfl

@[simp] theorem exprLocation_some (n : Node) : exprLocation (some n) = exprLocationNode n := rfl

end PgQuery
