import Mathlib.Data.List.Basic

/-!
# Raw parse-tree nodes

A `Node` is one of the node kinds that `exprLocation` or `raw_expression_tree_walker_impl`
names, with the fields those two functions read, or `other`: a kind neither switch names (a DDL
statement, a `RawStmt`), kept with its tag and its child slots. A `Node *` field is an
`Option Node` (`none` is `NULL`); a `List *` field is one too, holding a `list` node or `NIL`.

Two fields are read through their declared type rather than as a `Node *`: a `TypeCast`'s
`typeName` (`exprLocation` reads `tc->typeName->location`) and a `CaseExpr`'s `args` (the walker
casts each member with `lfirst_node(CaseWhen, ..)`). They hold a `TypeName` and a list of
`CaseWhen`s by value, and `Node.typeName`, `Node.caseWhen` are the same records as nodes.
-/

namespace PgQuery

/-- A `TypeName`: the fields the walker and `exprLocation` read. -/
structure TypeName (α : Type) where
  typmods : Option α
  arrayBounds : Option α
  location : Int

/-- A `CaseWhen`: `WHEN expr THEN result`. -/
structure CaseWhen (α : Type) where
  expr : Option α
  result : Option α
  location : Int

inductive Node where
  | rangeVar («alias» : Option Node) (location : Int)
  | tableFunc (location : Int)
  | var (location : Int)
  | const (location : Int)
  | param (location : Int)
  | aggref (location : Int)
  | groupingFunc (args : Option Node) (location : Int)
  | windowFunc (location : Int)
  | subscriptingRef (refexpr : Option Node)
  | funcExpr (args : Option Node) (location : Int)
  | namedArgExpr (arg : Option Node) (location : Int)
  | opExpr (args : Option Node) (location : Int)
  | distinctExpr (args : Option Node) (location : Int)
  | nullIfExpr (args : Option Node) (location : Int)
  | scalarArrayOpExpr (args : Option Node) (location : Int)
  | boolExpr (args : Option Node) (location : Int)
  | subLink (testexpr subselect : Option Node) (location : Int)
  | fieldSelect (arg : Option Node)
  | fieldStore (arg : Option Node)
  | relabelType (arg : Option Node) (location : Int)
  | coerceViaIo (arg : Option Node) (location : Int)
  | arrayCoerceExpr (arg : Option Node) (location : Int)
  | convertRowtypeExpr (arg : Option Node) (location : Int)
  | collateExpr (arg : Option Node)
  | caseExpr (arg : Option Node) (args : List (CaseWhen Node)) (defresult : Option Node)
      (location : Int)
  | caseWhen (self : CaseWhen Node)
  | arrayExpr (location : Int)
  | rowExpr (args : Option Node) (location : Int)
  | rowCompareExpr (largs : Option Node)
  | coalesceExpr (args : Option Node) (location : Int)
  | minMaxExpr (args : Option Node) (location : Int)
  | sqlValueFunction (location : Int)
  | xmlExpr (namedArgs args : Option Node) (location : Int)
  | jsonFormat (location : Int)
  | jsonValueExpr (rawExpr formattedExpr format : Option Node)
  | jsonConstructorExpr (args func coercion returning : Option Node) (location : Int)
  | jsonIsPredicate (expr : Option Node) (location : Int)
  | nullTest (arg : Option Node) (location : Int)
  | booleanTest (arg : Option Node) (location : Int)
  | coerceToDomain (arg : Option Node) (location : Int)
  | coerceToDomainValue (location : Int)
  | setToDefault (location : Int)
  | targetEntry (expr : Option Node)
  | intoClause (rel viewQuery : Option Node)
  | list (items : List (Option Node))
  | aExpr (lexpr rexpr : Option Node) (location : Int)
  | columnRef (location : Int)
  | paramRef (location : Int)
  | aConst (location : Int)
  | funcCall (args aggOrder aggFilter over : Option Node) (location : Int)
  | aArrayExpr (elements : Option Node) (location : Int)
  | resTarget (indirection val : Option Node) (location : Int)
  | multiAssignRef (source : Option Node)
  | typeCast (arg : Option Node) (typeName : TypeName Node) (location : Int)
  | collateClause (arg : Option Node)
  | sortBy (node : Option Node)
  | windowDef (partitionClause orderClause startOffset endOffset : Option Node) (location : Int)
  | rangeTableSample (relation args repeatable : Option Node) (location : Int)
  | typeName (self : TypeName Node)
  | columnDef (typeName rawDefault collClause : Option Node) (location : Int)
  | constraint (location : Int)
  | functionParameter (argType : Option Node)
  | xmlSerialize (expr typeName : Option Node) (location : Int)
  | groupingSet (content : Option Node) (location : Int)
  | withClause (ctes : Option Node) (location : Int)
  | inferClause (indexElems whereClause : Option Node) (location : Int)
  | onConflictClause (infer targetList whereClause : Option Node) (location : Int)
  | cteSearchClause (location : Int)
  | cteCycleClause (location : Int)
  | commonTableExpr (ctequery : Option Node) (location : Int)
  | jsonKeyValue (key value : Option Node)
  | jsonObjectConstructor (output exprs : Option Node) (location : Int)
  | jsonArrayConstructor (output exprs : Option Node) (location : Int)
  | jsonArrayQueryConstructor (output query : Option Node) (location : Int)
  | jsonAggConstructor (output aggOrder aggFilter over : Option Node) (location : Int)
  | jsonObjectAgg (constructor arg : Option Node)
  | jsonArrayAgg (constructor arg : Option Node)
  | placeHolderVar (phexpr : Option Node)
  | inferenceElem (expr : Option Node)
  | partitionElem (location : Int)
  | partitionSpec (location : Int)
  | partitionBoundSpec (location : Int)
  | partitionRangeDatum (location : Int)
  | currentOfExpr
  | integer
  | float
  | boolean
  | string
  | bitString
  | aStar
  | «alias»
  | jsonReturning (format : Option Node)
  | joinExpr (larg rarg quals «alias» : Option Node)
  | insertStmt (relation cols selectStmt onConflictClause returningList withClause : Option Node)
  | deleteStmt (relation usingClause whereClause returningList withClause : Option Node)
  | updateStmt (relation targetList whereClause fromClause returningList withClause : Option Node)
  | mergeStmt (relation sourceRelation joinCondition mergeWhenClauses withClause : Option Node)
  | mergeWhenClause (condition targetList values : Option Node)
  | selectStmt (distinctClause intoClause targetList fromClause whereClause groupClause
      havingClause windowClause valuesLists sortClause limitOffset limitCount lockingClause
      withClause larg rarg : Option Node)
  | plAssignStmt (indirection val : Option Node)
  | aIndices (lidx uidx : Option Node)
  | aIndirection (arg indirection : Option Node)
  | rangeSubselect (subquery «alias» : Option Node)
  | rangeFunction (functions «alias» coldeflist : Option Node)
  | rangeTableFunc (docexpr rowexpr namespaces columns «alias» : Option Node)
  | rangeTableFuncCol (colexpr coldefexpr : Option Node)
  | indexElem (expr : Option Node)
  | lockingClause (lockedRels : Option Node)
  | jsonOutput (typeName returning : Option Node)
  | other (tag : Nat) (children : List (Option Node))

/-- `NodeTag`: a node's kind, as `nodeTag` reads it. -/
inductive NodeTag where
  | rangeVar | tableFunc | var | const | param | aggref | groupingFunc | windowFunc
  | subscriptingRef | funcExpr | namedArgExpr | opExpr | distinctExpr | nullIfExpr
  | scalarArrayOpExpr | boolExpr | subLink | fieldSelect | fieldStore | relabelType | coerceViaIo
  | arrayCoerceExpr | convertRowtypeExpr | collateExpr | caseExpr | caseWhen | arrayExpr | rowExpr
  | rowCompareExpr | coalesceExpr | minMaxExpr | sqlValueFunction | xmlExpr | jsonFormat
  | jsonValueExpr | jsonConstructorExpr | jsonIsPredicate | nullTest | booleanTest | coerceToDomain
  | coerceToDomainValue | setToDefault | targetEntry | intoClause | list | aExpr | columnRef
  | paramRef | aConst | funcCall | aArrayExpr | resTarget | multiAssignRef | typeCast
  | collateClause | sortBy | windowDef | rangeTableSample | typeName | columnDef | constraint
  | functionParameter | xmlSerialize | groupingSet | withClause | inferClause | onConflictClause
  | cteSearchClause | cteCycleClause | commonTableExpr | jsonKeyValue | jsonObjectConstructor
  | jsonArrayConstructor | jsonArrayQueryConstructor | jsonAggConstructor | jsonObjectAgg
  | jsonArrayAgg | placeHolderVar | inferenceElem | partitionElem | partitionSpec
  | partitionBoundSpec | partitionRangeDatum | currentOfExpr | integer | float | boolean | string
  | bitString | aStar | «alias» | jsonReturning | joinExpr | insertStmt | deleteStmt | updateStmt
  | mergeStmt | mergeWhenClause | selectStmt | plAssignStmt | aIndices | aIndirection
  | rangeSubselect | rangeFunction | rangeTableFunc | rangeTableFuncCol | indexElem | lockingClause
  | jsonOutput
  | other (tag : Nat)

/-- `nodeTag(node)`. -/
def nodeTag : Node → NodeTag
  | .rangeVar .. => .rangeVar
  | .tableFunc .. => .tableFunc
  | .var .. => .var
  | .const .. => .const
  | .param .. => .param
  | .aggref .. => .aggref
  | .groupingFunc .. => .groupingFunc
  | .windowFunc .. => .windowFunc
  | .subscriptingRef .. => .subscriptingRef
  | .funcExpr .. => .funcExpr
  | .namedArgExpr .. => .namedArgExpr
  | .opExpr .. => .opExpr
  | .distinctExpr .. => .distinctExpr
  | .nullIfExpr .. => .nullIfExpr
  | .scalarArrayOpExpr .. => .scalarArrayOpExpr
  | .boolExpr .. => .boolExpr
  | .subLink .. => .subLink
  | .fieldSelect .. => .fieldSelect
  | .fieldStore .. => .fieldStore
  | .relabelType .. => .relabelType
  | .coerceViaIo .. => .coerceViaIo
  | .arrayCoerceExpr .. => .arrayCoerceExpr
  | .convertRowtypeExpr .. => .convertRowtypeExpr
  | .collateExpr .. => .collateExpr
  | .caseExpr .. => .caseExpr
  | .caseWhen .. => .caseWhen
  | .arrayExpr .. => .arrayExpr
  | .rowExpr .. => .rowExpr
  | .rowCompareExpr .. => .rowCompareExpr
  | .coalesceExpr .. => .coalesceExpr
  | .minMaxExpr .. => .minMaxExpr
  | .sqlValueFunction .. => .sqlValueFunction
  | .xmlExpr .. => .xmlExpr
  | .jsonFormat .. => .jsonFormat
  | .jsonValueExpr .. => .jsonValueExpr
  | .jsonConstructorExpr .. => .jsonConstructorExpr
  | .jsonIsPredicate .. => .jsonIsPredicate
  | .nullTest .. => .nullTest
  | .booleanTest .. => .booleanTest
  | .coerceToDomain .. => .coerceToDomain
  | .coerceToDomainValue .. => .coerceToDomainValue
  | .setToDefault .. => .setToDefault
  | .targetEntry .. => .targetEntry
  | .intoClause .. => .intoClause
  | .list .. => .list
  | .aExpr .. => .aExpr
  | .columnRef .. => .columnRef
  | .paramRef .. => .paramRef
  | .aConst .. => .aConst
  | .funcCall .. => .funcCall
  | .aArrayExpr .. => .aArrayExpr
  | .resTarget .. => .resTarget
  | .multiAssignRef .. => .multiAssignRef
  | .typeCast .. => .typeCast
  | .collateClause .. => .collateClause
  | .sortBy .. => .sortBy
  | .windowDef .. => .windowDef
  | .rangeTableSample .. => .rangeTableSample
  | .typeName .. => .typeName
  | .columnDef .. => .columnDef
  | .constraint .. => .constraint
  | .functionParameter .. => .functionParameter
  | .xmlSerialize .. => .xmlSerialize
  | .groupingSet .. => .groupingSet
  | .withClause .. => .withClause
  | .inferClause .. => .inferClause
  | .onConflictClause .. => .onConflictClause
  | .cteSearchClause .. => .cteSearchClause
  | .cteCycleClause .. => .cteCycleClause
  | .commonTableExpr .. => .commonTableExpr
  | .jsonKeyValue .. => .jsonKeyValue
  | .jsonObjectConstructor .. => .jsonObjectConstructor
  | .jsonArrayConstructor .. => .jsonArrayConstructor
  | .jsonArrayQueryConstructor .. => .jsonArrayQueryConstructor
  | .jsonAggConstructor .. => .jsonAggConstructor
  | .jsonObjectAgg .. => .jsonObjectAgg
  | .jsonArrayAgg .. => .jsonArrayAgg
  | .placeHolderVar .. => .placeHolderVar
  | .inferenceElem .. => .inferenceElem
  | .partitionElem .. => .partitionElem
  | .partitionSpec .. => .partitionSpec
  | .partitionBoundSpec .. => .partitionBoundSpec
  | .partitionRangeDatum .. => .partitionRangeDatum
  | .currentOfExpr => .currentOfExpr
  | .integer => .integer
  | .float => .float
  | .boolean => .boolean
  | .string => .string
  | .bitString => .bitString
  | .aStar => .aStar
  | .«alias» => .«alias»
  | .jsonReturning .. => .jsonReturning
  | .joinExpr .. => .joinExpr
  | .insertStmt .. => .insertStmt
  | .deleteStmt .. => .deleteStmt
  | .updateStmt .. => .updateStmt
  | .mergeStmt .. => .mergeStmt
  | .mergeWhenClause .. => .mergeWhenClause
  | .selectStmt .. => .selectStmt
  | .plAssignStmt .. => .plAssignStmt
  | .aIndices .. => .aIndices
  | .aIndirection .. => .aIndirection
  | .rangeSubselect .. => .rangeSubselect
  | .rangeFunction .. => .rangeFunction
  | .rangeTableFunc .. => .rangeTableFunc
  | .rangeTableFuncCol .. => .rangeTableFuncCol
  | .indexElem .. => .indexElem
  | .lockingClause .. => .lockingClause
  | .jsonOutput .. => .jsonOutput
  | .other tag _ => .other tag

end PgQuery
