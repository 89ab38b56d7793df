import PgQuery.Tree
import PgQuery.Proofs.Leftmost

/-!
# Where `exprLocation` takes a location from

One case of `exprLocation` answers `-1`, the node's own location field, or the resolved location
of one of its children (`exprLocationNode_rec`); a whole tree therefore resolves to `-1` or to a
location field stored in it (`exprLocation_stored`), and to no less than `-1` when every stored
location is an offset or `-1` (`exprLocation_ge`). Where a kind combines candidates with
`leftmostLoc`, it answers the least known one (`exprLocation_leftmost`).
-/

namespace PgQuery

/-- The `foreach` of the `T_List` case answers its starting `loc` or a member's location. -/
theorem exprLocationList_rec {P : Int → Prop} :
    ∀ (items : List (Option Node)) (loc : Int), P loc → (∀ x ∈ items, P (exprLocation x)) →
      P (exprLocationList items loc)
  | [], _, h0, _ => h0
  | x :: xs, _, _, h => by
    simp only [exprLocationList]
    split_ifs
    · exact h x (by simp)
    · exact exprLocationList_rec xs _ (h x (by simp)) fun y hy => h y (by simp [hy])

theorem exprLocationNode_rec {P : Int → Prop} (n : Node) (hunknown : P (-1))
    (hown : ∀ l, ownLocation n = some l → P l) (hchild : ∀ c ∈ children n, P (exprLocation c)) :
    P (exprLocationNode n) := by
  cases n
  case list items => exact exprLocationList_rec items (-1) hunknown hchild
  all_goals
    repeat
      first
        | exact hown _ rfl
        | apply leftmostLoc_rec
        | exact hchild _ (List.mem_cons_self _ _)
        | exact hchild _ (List.mem_cons_of_mem _ (List.mem_cons_self _ _))
        | exact hunknown

theorem exprLocation_ge (t : Node) (h : ValidLocations t) : -1 ≤ exprLocationNode t := by
  induction t using Node.induction with
  | ind n ih =>
    refine exprLocationNode_rec n (Int.le_refl _) (fun _ hl => h.own hl) ?_
    rintro (_ | c) hc
    · exact Int.le_refl _
    · exact ih c hc (h.child hc)

theorem exprLocation_child_ge {t : Node} {c : Option Node} (h : ValidLocations t)
    (hc : c ∈ children t) : -1 ≤ exprLocation c := by
  cases c with
  | none => exact Int.le_refl _
  | some c => exact exprLocation_ge c (h.child hc)

theorem exprLocation_stored (t : Node) :
    0 ≤ exprLocationNode t → ∃ m, NodeOf m t ∧ ownLocation m = some (exprLocationNode t) := by
  induction t using Node.induction with
  | ind n ih =>
    refine exprLocationNode_rec (P := fun v => 0 ≤ v → ∃ m, NodeOf m n ∧ ownLocation m = some v) n
      (by omega) (fun l hl _ => ⟨n, .refl n, hl⟩) ?_
    rintro (_ | c) hc hv
    · simp at hv
    · obtain ⟨m, hm, hl⟩ := ih c hc hv
      exact ⟨m, hm.trans (.of_child hc), hl⟩

/-- The candidates `exprLocation` combines with `leftmostLoc`, for the kinds that combine some:
a node's own location and the resolved locations of the children the spec names. -/
def leftmostCandidates : Node → Option (List Int)
  | .funcExpr args location | .opExpr args location | .distinctExpr args location
  | .nullIfExpr args location | .scalarArrayOpExpr args location | .boolExpr args location
  | .xmlExpr _ args location | .funcCall args _ _ _ location => some [location, exprLocation args]
  | .namedArgExpr arg location | .relabelType arg location | .coerceViaIo arg location
  | .arrayCoerceExpr arg location | .convertRowtypeExpr arg location | .nullTest arg location
  | .booleanTest arg location | .coerceToDomain arg location => some [location, exprLocation arg]
  | .subLink testexpr _ location => some [exprLocation testexpr, location]
  | .aExpr lexpr _ location => some [location, exprLocation lexpr]
  | .typeCast arg typeName location => some [exprLocation arg, typeName.location, location]
  | .rangeVar _ _ | .tableFunc _ | .var _ | .const _ | .param _ | .aggref _ | .groupingFunc _ _
  | .windowFunc _ | .subscriptingRef _ | .fieldSelect _ | .fieldStore _ | .collateExpr _
  | .caseExpr _ _ _ _ | .caseWhen _ | .arrayExpr _ | .rowExpr _ _ | .rowCompareExpr _
  | .coalesceExpr _ _ | .minMaxExpr _ _ | .sqlValueFunction _ | .jsonFormat _
  | .jsonValueExpr _ _ _ | .jsonConstructorExpr _ _ _ _ _ | .jsonIsPredicate _ _
  | .coerceToDomainValue _ | .setToDefault _ | .targetEntry _ | .intoClause _ _ | .list _
  | .columnRef _ | .paramRef _ | .aConst _ | .aArrayExpr _ _ | .resTarget _ _ _
  | .multiAssignRef _ | .collateClause _ | .sortBy _ | .windowDef _ _ _ _ _
  | .rangeTableSample _ _ _ _ | .typeName _ | .columnDef _ _ _ _ | .constraint _
  | .functionParameter _ | .xmlSerialize _ _ _ | .groupingSet _ _ | .withClause _ _
  | .inferClause _ _ _ | .onConflictClause _ _ _ _ | .cteSearchClause _ | .cteCycleClause _
  | .commonTableExpr _ _ | .jsonKeyValue _ _ | .jsonObjectConstructor _ _ _
  | .jsonArrayConstructor _ _ _ | .jsonArrayQueryConstructor _ _ _ | .jsonAggConstructor _ _ _ _ _
  | .jsonObjectAgg _ _ | .jsonArrayAgg _ _ | .placeHolderVar _ | .inferenceElem _
  | .partitionElem _ | .partitionSpec _ | .partitionBoundSpec _ | .partitionRangeDatum _
  | .currentOfExpr | .integer | .float | .boolean | .string | .bitString | .aStar | .«alias»
  | .jsonReturning _ | .joinExpr _ _ _ _ | .insertStmt _ _ _ _ _ _ | .deleteStmt _ _ _ _ _
  | .updateStmt _ _ _ _ _ _ | .mergeStmt _ _ _ _ _ | .mergeWhenClause _ _ _
  | .selectStmt _ _ _ _ _ _ _ _ _ _ _ _ _ _ _ _ | .plAssignStmt _ _ | .aIndices _ _
  | .aIndirection _ _ | .rangeSubselect _ _ | .rangeFunction _ _ _ | .rangeTableFunc _ _ _ _ _
  | .rangeTableFuncCol _ _ | .indexElem _ | .lockingClause _ | .jsonOutput _ _ | .other _ _ => none

theorem exprLocation_leftmost {t : Node} (h : ValidLocations t) {cs : List Int}
    (hc : leftmostCandidates t = some cs) :
    (∀ c ∈ cs, -1 ≤ c) ∧ IsLeastKnown cs (exprLocationNode t) := by
  have hown : ∀ l, ownLocation t = some l → -1 ≤ l := fun _ => h.own
  have hkid : ∀ c ∈ children t, -1 ≤ exprLocation c := fun _ => exprLocation_child_ge h
  cases t <;> cases hc
  case typeCast arg tn location =>
    have harg := hkid arg (List.mem_cons_self _ _)
    have htn : -1 ≤ tn.location :=
      (h.child (c := .typeName tn) (List.mem_cons_of_mem _ (List.mem_cons_self _ _))).own rfl
    have hl := hown location rfl
    exact ⟨by simp [harg, htn, hl], (IsLeastKnown.pair harg htn).leftmostLoc (.singleton hl)⟩
  all_goals
    refine ⟨fun c hc => ?_, .pair ?_ ?_⟩
    on_goal 1 =>
      simp only [List.mem_cons, List.mem_singleton, List.not_mem_nil, or_false] at hc
      rcases hc with rfl | rfl
    all_goals first
      | exact hown _ rfl
      | exact hkid _ (List.mem_cons_self _ _)
      | exact hkid _ (List.mem_cons_of_mem _ (List.mem_cons_self _ _))

theorem exprLocation_sound (t : Node) (h : ValidLocations t) :
    -1 ≤ exprLocation (some t) ∧
    (0 ≤ exprLocation (some t) →
      ∃ m, NodeOf m t ∧ ownLocation m = some (exprLocation (some t))) ∧
    ∀ cs, leftmostCandidates t = some cs →
      IsLeastKnown cs (exprLocation (some t)) ∧
        (exprLocation (some t) = -1 ↔ ∀ c ∈ cs, c = -1) := by
  refine ⟨exprLocation_ge t h, exprLocation_stored t, fun cs hc => ?_⟩
  obtain ⟨hcs, hleast⟩ := exprLocation_leftmost h hc
  exact ⟨hleast, hleast.neg_one_iff hcs⟩

theorem exprLocation_sound_typeCast :
    ValidLocations (.typeCast (some (.columnRef (-1))) ⟨none, none, 15⟩ 14) ∧
      IsLeastKnown [-1, 15, 14]
        (exprLocation (some (.typeCast (some (.columnRef (-1))) ⟨none, none, 15⟩ 14))) := by
  have h : ValidLocations (.typeCast (some (.columnRef (-1))) ⟨none, none, 15⟩ 14) := by
    refine .of_children (fun _ hl => by cases hl; decide) fun c hc => ?_
    simp only [children.eq_def, List.mem_cons, Option.some.injEq, List.mem_singleton,
      List.not_mem_nil, or_false] at hc
    rcases hc with rfl | rfl
    · exact .of_children (fun _ hl => by cases hl; decide) fun _ hc => by cases hc
    · exact .of_children (fun _ hl => by cases hl; decide) fun _ hc => by
        simp [children.eq_def] at hc
  exact ⟨h, ((exprLocation_sound _ h).2.2 _ rfl).1⟩

end PgQuery
