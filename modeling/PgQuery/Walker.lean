import PgQuery.Node

/-!
# `raw_expression_tree_walker_impl`

The walker of raw parse trees, in state-passing form. A `TreeWalkerCallback` is the visitor
`walker(node, context)`: it reads and updates the `Backend`, the walk's `context` together with
the lines sent to the diagnostic channel, and may abort with an `ereport(ERROR)`. The walker has
already visited `node` itself; each case of its `switch` calls the visitor on the node's child
fields in a fixed order and returns `true` at the first call that does (`walkOr`), and a kind
outside the `switch` gets a `NOTICE` and no calls.

`check_stack_depth` is modelled from the spec, with `stack` the walker frames the stack budget
still holds: a caller that recurses through the walker passes one less.
-/

namespace PgQuery

/-- The errors raised on the walker's paths. -/
inductive ErrorData where
  | stackDepthExceeded
  deriving DecidableEq, Repr

/-- A line `elog(NOTICE, fmt, tag)` sends to the diagnostic channel. -/
structure Notice where
  fmt : String
  tag : NodeTag

/-- What a walk acts on: the walker's `context` and the diagnostic log. -/
structure Backend (σ : Type) where
  context : σ
  log : List Notice

/-- A step of a walk: from the backend's state to a result or an error. -/
abbrev Walk (σ : Type) := Backend σ → Except ErrorData (Bool × Backend σ)

/-- `tree_walker_callback`: the visitor, called on a `Node *` that may be `NULL`. -/
abbrev TreeWalkerCallback (σ : Type) := Option Node → Walk σ

variable {σ : Type}

/-- Modelled from the spec: `check_stack_depth`, the recursion guard, "fails with a stack-depth
error if nesting would exceed a safe call budget". -/
def checkStackDepth (stack : Nat) : Except ErrorData Unit :=
  if stack = 0 then .error .stackDepthExceeded else .ok ()

/-- `break` out of the `switch`, to the final `return false`. -/
def done : Walk σ := fun s => .ok (false, s)

/-- `w`, then `k` when `w` answers `false`: `true` is returned at once and an error propagates. -/
def andThen (w k : Walk σ) : Walk σ := fun s =>
  match w s with
  | .ok (true, s) => .ok (true, s)
  | .ok (false, s) => k s
  | .error e => .error e

/-- `if (WALK(n)) return true;`, then the rest `k` of the case. -/
def walkOr (walker : TreeWalkerCallback σ) (n : Option Node) (k : Walk σ) : Walk σ :=
  andThen (walker n) k

/-- `foreach(temp, (List *) node) if (WALK(lfirst(temp))) return true;`, then `k`. -/
def walkItems (walker : TreeWalkerCallback σ) : List (Option Node) → Walk σ → Walk σ
  | [], k => k
  | x :: xs, k => walkOr walker x (walkItems walker xs k)

/-- The `foreach` over a `CaseExpr`'s `CaseWhen`s: each one's `expr`, then its `result`. -/
def walkCaseWhens (walker : TreeWalkerCallback σ) : List (CaseWhen Node) → Walk σ → Walk σ
  | [], k => k
  | w :: ws, k => walkOr walker w.expr <| walkOr walker w.result <| walkCaseWhens walker ws k

/-- The line of `elog(NOTICE, "unrecognized node type: %d", (int) nodeTag(node))`. -/
def unrecognizedNotice (node : Node) : Notice := ⟨"unrecognized node type: %d", nodeTag node⟩

/-- The walker's `default` case: its `NOTICE` goes to the log. -/
def unrecognizedNodeType (node : Node) (s : Backend σ) : Backend σ :=
  { s with log := s.log ++ [unrecognizedNotice node] }

/-- The `switch (nodeTag(node))` of the walker. -/
def rawExpressionTreeWalkerSwitch (walker : TreeWalkerCallback σ) (node : Node) : Walk σ :=
  match node with
  | .jsonFormat _ | .setToDefault _ | .currentOfExpr | .sqlValueFunction _ | .integer | .float
  | .boolean | .string | .bitString | .paramRef _ | .aConst _ | .aStar => done
  | .«alias» => done
  | .rangeVar «alias» _ => walker «alias»
  | .groupingFunc args _ => walker args
  | .subLink testexpr subselect _ =>
    walkOr walker testexpr <| walkOr walker subselect <| done
  | .caseExpr arg args defresult _ =>
    walkOr walker arg <| walkCaseWhens walker args <| walkOr walker defresult <| done
  | .rowExpr args _ => walker args
  | .coalesceExpr args _ => walker args
  | .minMaxExpr args _ => walker args
  | .xmlExpr namedArgs args _ =>
    walkOr walker namedArgs <| walkOr walker args <| done
  | .jsonReturning format => walker format
  | .jsonValueExpr rawExpr formattedExpr format =>
    walkOr walker rawExpr <| walkOr walker formattedExpr <| walkOr walker format <| done
  | .jsonConstructorExpr args func coercion returning _ =>
    walkOr walker args <| walkOr walker func <| walkOr walker coercion <|
    walkOr walker returning <| done
  | .jsonIsPredicate expr _ => walker expr
  | .nullTest arg _ => walker arg
  | .booleanTest arg _ => walker arg
  | .joinExpr larg rarg quals «alias» =>
    walkOr walker larg <| walkOr walker rarg <| walkOr walker quals <| walkOr walker «alias» <| done
  | .intoClause rel viewQuery =>
    walkOr walker rel <| walkOr walker viewQuery <| done
  | .list items => walkItems walker items done
  | .insertStmt relation cols selectStmt onConflictClause returningList withClause =>
    walkOr walker relation <| walkOr walker cols <| walkOr walker selectStmt <|
    walkOr walker onConflictClause <| walkOr walker returningList <| walkOr walker withClause <|
    done
  | .deleteStmt relation usingClause whereClause returningList withClause =>
    walkOr walker relation <| walkOr walker usingClause <| walkOr walker whereClause <|
    walkOr walker returningList <| walkOr walker withClause <| done
  | .updateStmt relation targetList whereClause fromClause returningList withClause =>
    walkOr walker relation <| walkOr walker targetList <| walkOr walker whereClause <|
    walkOr walker fromClause <| walkOr walker returningList <| walkOr walker withClause <| done
  | .mergeStmt relation sourceRelation joinCondition mergeWhenClauses withClause =>
    walkOr walker relation <| walkOr walker sourceRelation <| walkOr walker joinCondition <|
    walkOr walker mergeWhenClauses <| walkOr walker withClause <| done
  | .mergeWhenClause condition targetList values =>
    walkOr walker condition <| walkOr walker targetList <| walkOr walker values <| done
  | .selectStmt distinctClause intoClause targetList fromClause whereClause groupClause
      havingClause windowClause valuesLists sortClause limitOffset limitCount lockingClause
      withClause larg rarg =>
    walkOr walker distinctClause <| walkOr walker intoClause <| walkOr walker targetList <|
    walkOr walker fromClause <| walkOr walker whereClause <| walkOr walker groupClause <|
    walkOr walker havingClause <| walkOr walker windowClause <| walkOr walker valuesLists <|
    walkOr walker sortClause <| walkOr walker limitOffset <| walkOr walker limitCount <|
    walkOr walker lockingClause <| walkOr walker withClause <| walkOr walker larg <|
    walkOr walker rarg <| done
  | .plAssignStmt indirection val =>
    walkOr walker indirection <| walkOr walker val <| done
  | .aExpr lexpr rexpr _ =>
    walkOr walker lexpr <| walkOr walker rexpr <| done
  | .boolExpr args _ =>
    walkOr walker args <| done
  | .columnRef _ => done
  | .funcCall args aggOrder aggFilter over _ =>
    walkOr walker args <| walkOr walker aggOrder <| walkOr walker aggFilter <|
    walkOr walker over <| done
  | .namedArgExpr arg _ => walker arg
  | .aIndices lidx uidx =>
    walkOr walker lidx <| walkOr walker uidx <| done
  | .aIndirection arg indirection =>
    walkOr walker arg <| walkOr walker indirection <| done
  | .aArrayExpr elements _ => walker elements
  | .resTarget indirection val _ =>
    walkOr walker indirection <| walkOr walker val <| done
  | .multiAssignRef source => walker source
  | .typeCast arg typeName _ =>
    walkOr walker arg <| walkOr walker (some (.typeName typeName)) <| done
  | .collateClause arg => walker arg
  | .sortBy node => walker node
  | .windowDef partitionClause orderClause startOffset endOffset _ =>
    walkOr walker partitionClause <| walkOr walker orderClause <| walkOr walker startOffset <|
    walkOr walker endOffset <| done
  | .rangeSubselect subquery «alias» =>
    walkOr walker subquery <| walkOr walker «alias» <| done
  | .rangeFunction functions «alias» coldeflist =>
    walkOr walker functions <| walkOr walker «alias» <| walkOr walker coldeflist <| done
  | .rangeTableSample relation args repeatable _ =>
    walkOr walker relation <| walkOr walker args <| walkOr walker repeatable <| done
  | .rangeTableFunc docexpr rowexpr namespaces columns «alias» =>
    walkOr walker docexpr <| walkOr walker rowexpr <| walkOr walker namespaces <|
    walkOr walker columns <| walkOr walker «alias» <| done
  | .rangeTableFuncCol colexpr coldefexpr =>
    walkOr walker colexpr <| walkOr walker coldefexpr <| done
  | .typeName tn =>
    walkOr walker tn.typmods <| walkOr walker tn.arrayBounds <| done
  | .columnDef typeName rawDefault collClause _ =>
    walkOr walker typeName <| walkOr walker rawDefault <| walkOr walker collClause <| done
  | .indexElem expr =>
    walkOr walker expr <| done
  | .groupingSet content _ => walker content
  | .lockingClause lockedRels => walker lockedRels
  | .xmlSerialize expr typeName _ =>
    walkOr walker expr <| walkOr walker typeName <| done
  | .withClause ctes _ => walker ctes
  | .inferClause indexElems whereClause _ =>
    walkOr walker indexElems <| walkOr walker whereClause <| done
  | .onConflictClause infer targetList whereClause _ =>
    walkOr walker infer <| walkOr walker targetList <| walkOr walker whereClause <| done
  | .commonTableExpr ctequery _ => walker ctequery
  | .jsonOutput typeName returning =>
    walkOr walker typeName <| walkOr walker returning <| done
  | .jsonKeyValue key value =>
    walkOr walker key <| walkOr walker value <| done
  | .jsonObjectConstructor output exprs _ =>
    walkOr walker output <| walkOr walker exprs <| done
  | .jsonArrayConstructor output exprs _ =>
    walkOr walker output <| walkOr walker exprs <| done
  | .jsonAggConstructor output aggOrder aggFilter over _ =>
    walkOr walker output <| walkOr walker aggOrder <| walkOr walker aggFilter <|
    walkOr walker over <| done
  | .jsonObjectAgg constructor arg =>
    walkOr walker constructor <| walkOr walker arg <| done
  | .jsonArrayAgg constructor arg =>
    walkOr walker constructor <| walkOr walker arg <| done
  | .jsonArrayQueryConstructor output query _ =>
    walkOr walker output <| walkOr walker query <| done
  | .tableFunc _ | .var _ | .const _ | .param _ | .aggref _ | .windowFunc _ | .subscriptingRef _
  | .funcExpr _ _ | .opExpr _ _ | .distinctExpr _ _ | .nullIfExpr _ _ | .scalarArrayOpExpr _ _
  | .fieldSelect _ | .fieldStore _ | .relabelType _ _ | .coerceViaIo _ _ | .arrayCoerceExpr _ _
  | .convertRowtypeExpr _ _ | .collateExpr _ | .caseWhen _ | .arrayExpr _ | .rowCompareExpr _
  | .coerceToDomain _ _ | .coerceToDomainValue _ | .targetEntry _ | .constraint _
  | .functionParameter _ | .cteSearchClause _ | .cteCycleClause _ | .placeHolderVar _
  | .inferenceElem _ | .partitionElem _ | .partitionSpec _ | .partitionBoundSpec _
  | .partitionRangeDatum _ | .other _ _ =>
    fun s => .ok (false, unrecognizedNodeType node s)

/-- `raw_expression_tree_walker_impl(node, walker, context)`. -/
def rawExpressionTreeWalkerImpl (stack : Nat) (walker : TreeWalkerCallback σ) :
    TreeWalkerCallback σ
  | none => done
  | some node => fun s => do
    checkStackDepth stack
    rawExpressionTreeWalkerSwitch walker node s

end PgQuery
