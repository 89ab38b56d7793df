import PgQuery.Proofs.Slots

/-!
# The canonical walk

A walk from `t` with the canonical recursive visitor `v(m) = m != NULL && (f(m) ||
walker(m, v))` is its specification along the preorder list of the nodes it reaches, for every
stack budget (`walkFrom_eq_walkSpec`). The proof follows the recursion of the walk: one visitor
call is `f` at the node, then the node's slots at one level deeper
(`andThen_canonicalVisitor`), and the slots, walked in order, are the preorder list of the
subtrees below them (`walkItems_canonicalVisitor`).

Within the budget, the walk applies `f` along the nodes below `t` until it answers `true`
(`walkFrom_of_walkDepth_lt`), and it returns the same with any larger budget
(`walkFrom_of_le_budget`); past it, a walk whose visitor never stops ends in the stack-depth
error (`walkFrom_error_iff`).
-/

namespace PgQuery

variable {σ : Type} (f : Node → σ → Bool × σ) (B : Nat)

/-! ## The walk refines its specification -/

@[simp] theorem canonicalVisitor_none (k : Nat) : canonicalVisitor f k none = done := by
  cases k <;> rfl

theorem visitAll_append (W₁ W₂ : List (Node × Nat)) (K : Walk σ) :
    visitAll f B (W₁ ++ W₂) K = visitAll f B W₁ (visitAll f B W₂ K) := by
  induction W₁ with
  | nil => rfl
  | cons p W₁ ih =>
    obtain ⟨m, d⟩ := p
    rw [List.cons_append, visitAll, visitAll, ih]

theorem walkItems_canonicalVisitor {k d : Nat} (xs : List (Option Node))
    (ih : ∀ c, some c ∈ xs → ∀ K, andThen (canonicalVisitor f k (some c)) K =
      visitAll f B ((c, d) :: walkedFrom c (d + 1)) K) (K : Walk σ) :
    walkItems (canonicalVisitor f k) xs K = visitAll f B (xs.flatMap (walkedSlot d)) K := by
  induction xs with
  | nil => rfl
  | cons x xs ihx =>
    rw [List.flatMap_cons, visitAll_append, ← ihx fun c hc => ih c (List.mem_cons_of_mem _ hc)]
    cases x with
    | none => simp only [walkItems, walkOr, canonicalVisitor_none, done_andThen]; rfl
    | some c => exact ih c (List.mem_cons_self _ _) _

/-- The `switch` on a node, followed by `K`, walks the nodes below it one level deeper, after
the node is entered. -/
theorem andThen_switch {k d : Nat} (m : Node)
    (ih : ∀ c, some c ∈ rawSlots m → ∀ K, andThen (canonicalVisitor f k (some c)) K =
      visitAll f B ((c, d + 1) :: walkedFrom c (d + 2)) K) (K : Walk σ) (s : Backend σ) :
    andThen (rawExpressionTreeWalkerSwitch (canonicalVisitor f k) m) K s =
      visitAll f B (walkedFrom m (d + 1)) K (enter m s) := by
  rw [rawExpressionTreeWalkerSwitch_eq, walkedFrom_eq]
  cases hr : recognized m with
  | false => simp only [hr, rawSlots_of_not_recognized hr, enter]; rfl
  | true =>
    simp only [hr, if_true, enter, walkItems_andThen, done_andThen]
    rw [walkItems_canonicalVisitor f B _ ih]

/-- A call of the canonical visitor on a node at depth `d`, with `k = B - d` frames left. -/
theorem andThen_canonicalVisitor (m : Node) {k d : Nat} (hkd : k + d = B) (K : Walk σ) :
    andThen (canonicalVisitor f k (some m)) K =
      visitAll f B ((m, d) :: walkedFrom m (d + 1)) K := by
  cases k with
  | zero =>
    simp only [canonicalVisitor, visitAll, andThen_assoc, rawExpressionTreeWalkerImpl_zero,
      andThen_error]
    refine congrArg (andThen (call f m)) (funext fun s => ?_)
    rw [if_pos (by omega)]
  | succ k =>
    simp only [canonicalVisitor, visitAll, andThen_assoc, rawExpressionTreeWalkerImpl_succ]
    refine congrArg (andThen (call f m)) (funext fun s => ?_)
    rw [if_neg (by omega)]
    exact andThen_switch f B m (fun c _ K => andThen_canonicalVisitor c (by omega) K) K s
termination_by sizeOf m
decreasing_by exact sizeOf_lt_of_some_mem_rawSlots ‹_›

theorem walkFrom_eq_walkSpec (t : Node) : walkFrom f B (some t) = walkSpec f B t := by
  funext s
  cases B with
  | zero => rfl
  | succ k =>
    rw [walkSpec, if_neg (Nat.succ_ne_zero k), ← andThen_switch f (k + 1) t
      (fun c _ K => andThen_canonicalVisitor f (k + 1) c rfl K) done s, andThen_done]
    rfl

/-! ## Within the stack budget -/

theorem visitAll_of_lt {W : List (Node × Nat)} (h : ∀ p ∈ W, p.2 < B) (s : Backend σ) :
    visitAll f B W done s = .ok (runUntil f (W.map Prod.fst) s) := by
  induction W generalizing s with
  | nil => rfl
  | cons p W ih =>
    obtain ⟨m, d⟩ := p
    cases hb : (f m s.context).1
    · rw [visitAll_cons_false f B hb, if_neg (Nat.not_le.2 (h _ (List.mem_cons_self _ _))),
        ih (fun p hp => h p (List.mem_cons_of_mem _ hp))]
      simp [runUntil, hb]
    · rw [visitAll_cons_true f B hb]
      simp [runUntil, hb]

theorem walkFrom_of_walkDepth_lt {t : Node} (h : walkDepth t < B) (s : Backend σ) :
    walkFrom f B (some t) s = .ok (runUntil f (walked t) (enter t s)) := by
  rw [walkFrom_eq_walkSpec, walkSpec, if_neg (by omega)]
  exact visitAll_of_lt f B (fun p hp => Nat.lt_of_le_of_lt (le_walkDepth hp) h) _

theorem runUntil_recordUntil (p : Node → Bool) (ms : List Node) (s : Backend (List Node)) :
    (runUntil (recordUntil p) ms s).1 = ms.any p ∧
      (runUntil (recordUntil p) ms s).2.context = s.context ++ takeThrough p ms := by
  induction ms generalizing s with
  | nil => simp [runUntil, takeThrough]
  | cons m ms ih =>
    cases hp : p m
    · simp [runUntil, recordUntil, takeThrough, hp, ih]
    · simp [runUntil, recordUntil, takeThrough, hp]

/-- A call of the walker calls its visitor on the node's slots in order until one answers
`true`, and answers `false` exactly when every call does; the canonical walk within the stack
budget applies `f` along the nodes below `t`, in preorder, until `f` first answers `true`, never
at `t` itself, and answers whether it did. -/
theorem rawExpressionTreeWalkerImpl_visits (p : Node → Bool) (t : Node) (hB : walkDepth t < B) :
    (∀ (stack : Nat) (walker : TreeWalkerCallback σ) (n : Node),
      rawExpressionTreeWalkerImpl stack walker (some n) =
        if stack = 0 then fun _ => .error .stackDepthExceeded
        else if recognized n then walkItems walker (rawSlots n) done
        else fun s => .ok (false, unrecognizedNodeType n s)) ∧
    (∀ (walker : TreeWalkerCallback σ) (xs : List (Option Node)) (s s' : Backend σ),
      (walkItems walker xs done s = .ok (false, s') ↔ CallsFalse walker xs s s') ∧
      (walkItems walker xs done s = .ok (true, s') ↔ ∃ ys x zs s₁, xs = ys ++ x :: zs ∧
        CallsFalse walker ys s s₁ ∧ walker x s₁ = .ok (true, s'))) ∧
    (∀ s, walkFrom f B (some t) s = .ok (runUntil f (walked t) (enter t s))) ∧
    t ∉ walked t ∧
    ∀ s : Backend (List Node), ∃ log, walkFrom (recordUntil p) B (some t) s =
      .ok ((walked t).any p, ⟨s.context ++ takeThrough p (walked t), log⟩) := by
  refine ⟨fun stack walker n => rawExpressionTreeWalkerImpl_eq walker stack n,
    fun walker xs s s' => ⟨walkItems_false_iff walker xs s s', walkItems_true_iff walker xs s s'⟩,
    walkFrom_of_walkDepth_lt f B hB, not_mem_walked t, fun s => ?_⟩
  obtain ⟨hany, hcalls⟩ := runUntil_recordUntil p (walked t) (enter t s)
  refine ⟨(runUntil (recordUntil p) (walked t) (enter t s)).2.log, ?_⟩
  rw [walkFrom_of_walkDepth_lt _ B hB, ← hany, ← enter_context t s, ← hcalls]

theorem rawExpressionTreeWalkerImpl_visits_typeCast :
    walkDepth (.typeCast (some (.columnRef 3)) ⟨none, none, 5⟩ 2) < 2 ∧
    ∃ log, walkFrom (recordUntil recognized) 2
      (some (.typeCast (some (.columnRef 3)) ⟨none, none, 5⟩ 2)) ⟨[], []⟩ =
        .ok (true, ⟨[.columnRef 3], log⟩) := by
  have h : walkDepth (.typeCast (some (.columnRef 3)) ⟨none, none, 5⟩ 2) < 2 := by
    simp [walkDepth, walkedFrom_eq, walkedSlot, rawSlots.eq_def]
  refine ⟨h, ?_⟩
  have := (rawExpressionTreeWalkerImpl_visits (recordUntil recognized) 2 recognized _ h).2.2.2.2
    ⟨[], []⟩
  simpa [walked, walkedFrom_eq, walkedSlot, rawSlots.eq_def, takeThrough, recognized.eq_def]
    using this

/-- With one frame of budget, the walk of a `List` holding an `A_Const` aborts on the way into
the `A_Const`, although its visitor never answers `true`: the stack check comes before the
`switch`, so a childless node costs a frame too. -/
theorem walkFrom_list_aborts :
    walkFrom (fun _ c => (false, c)) 1 (some (.list [some (.aConst 1)])) (⟨(), []⟩ : Backend Unit) =
      .error .stackDepthExceeded := rfl

/-! ## Past the stack budget -/

theorem exists_le_walkDepth {t : Node} (h : 0 < walkDepth t) :
    ∃ p ∈ walkedFrom t 1, walkDepth t ≤ p.2 := by
  unfold walkDepth at h ⊢
  generalize walkedFrom t 1 = W at h ⊢
  induction W with
  | nil => cases h
  | cons q W ih =>
    by_cases hq : W.foldr (fun p h => max p.2 h) 0 ≤ q.2
    · exact ⟨q, List.mem_cons_self _ _, by simp only [List.foldr_cons]; omega⟩
    · obtain ⟨p, hp, hle⟩ := ih (by omega)
      exact ⟨p, List.mem_cons_of_mem _ hp, by simp only [List.foldr_cons]; omega⟩

theorem visitAll_error_of_le (hf : ∀ m c, (f m c).1 = false) {W : List (Node × Nat)}
    {p : Node × Nat} (hp : p ∈ W) (hle : B ≤ p.2) (K : Walk σ) (s : Backend σ) :
    visitAll f B W K s = .error .stackDepthExceeded := by
  induction W generalizing s with
  | nil => cases hp
  | cons q W ih =>
    obtain ⟨m, d⟩ := q
    rw [visitAll_cons_false f B (hf m s.context)]
    by_cases hd : B ≤ d
    · rw [if_pos hd]
    · rw [if_neg hd]
      rcases List.mem_cons.1 hp with rfl | hp
      · exact absurd hle hd
      · exact ih hp _

/-- A walk whose visitor never answers `true` aborts with the stack-depth error exactly when a
node it reaches lies as deep as the stack budget. -/
theorem walkFrom_error_iff (hf : ∀ m c, (f m c).1 = false) (t : Node) (s : Backend σ) :
    walkFrom f B (some t) s = .error .stackDepthExceeded ↔ B ≤ walkDepth t := by
  refine ⟨fun h => Nat.le_of_not_lt fun hlt => ?_, fun hle => ?_⟩
  · rw [walkFrom_of_walkDepth_lt f B hlt] at h
    cases h
  · rw [walkFrom_eq_walkSpec, walkSpec]
    split_ifs with h0
    · rfl
    · obtain ⟨p, hp, hdp⟩ := exists_le_walkDepth (by omega : 0 < walkDepth t)
      exact visitAll_error_of_le f B hf hp (by omega) _ _

theorem walkFrom_error_iff_list :
    (∀ (m : Node) (c : Unit), ((fun (_ : Node) (c : Unit) => (false, c)) m c).1 = false) ∧
    (walkFrom (fun _ c => (false, c)) 1 (some (.list [some (.aConst 1)]))
        (⟨(), []⟩ : Backend Unit) = .error .stackDepthExceeded ↔
      1 ≤ walkDepth (.list [some (.aConst 1)])) :=
  ⟨fun _ _ => rfl, walkFrom_error_iff (fun _ c => (false, c)) 1 (fun _ _ => rfl) _ _⟩

theorem visitAll_of_le_budget {B' : Nat} (hle : B ≤ B') {W : List (Node × Nat)} {s : Backend σ}
    {r : Bool × Backend σ} (h : visitAll f B W done s = .ok r) :
    visitAll f B' W done s = .ok r := by
  induction W generalizing s with
  | nil => exact h
  | cons p W ih =>
    obtain ⟨m, d⟩ := p
    rcases visitAll_cons_ok f B h with ⟨hb, rfl⟩ | ⟨hb, hd, h⟩
    · exact visitAll_cons_true f B' hb
    · rw [visitAll_cons_false f B' hb, if_neg (by omega)]
      exact ih h

/-- A walk that returns within a stack budget returns the same with any larger one. -/
theorem walkFrom_of_le_budget {B' : Nat} (hle : B ≤ B') {t : Node} {s : Backend σ}
    {r : Bool × Backend σ} (h : walkFrom f B (some t) s = .ok r) :
    walkFrom f B' (some t) s = .ok r := by
  rw [walkFrom_eq_walkSpec] at h ⊢
  obtain ⟨hB, h⟩ := walkSpec_ok f B h
  rw [walkSpec, if_neg (by omega)]
  exact visitAll_of_le_budget f B hle h

theorem walkFrom_of_le_budget_typeCast :
    walkFrom (fun _ c => (false, c)) 2 (some (.typeCast (some (.aConst 1)) ⟨none, none, 5⟩ 2))
      (⟨(), []⟩ : Backend Unit) = .ok (false, ⟨(), []⟩) ∧
    walkFrom (fun _ c => (false, c)) 5 (some (.typeCast (some (.aConst 1)) ⟨none, none, 5⟩ 2))
      (⟨(), []⟩ : Backend Unit) = .ok (false, ⟨(), []⟩) :=
  have h :
      walkFrom (fun _ c => (false, c)) 2 (some (.typeCast (some (.aConst 1)) ⟨none, none, 5⟩ 2))
        (⟨(), []⟩ : Backend Unit) = .ok (false, ⟨(), []⟩) := rfl
  ⟨h, walkFrom_of_le_budget _ 2 (by decide) h⟩

end PgQuery
