import PgQuery.Walked

/-!
# One call of the walker

Every case of the walker's `switch` is the early-exit walk over the node's slots
(`rawExpressionTreeWalkerSwitch_eq`): `return WALK(x)` is `if (WALK(x)) return true;` followed by
`return false` (`andThen_done`), a `CaseExpr`'s loop over its `CaseWhen`s walks their `expr` and
`result` in turn (`walkCaseWhens_eq`), and a kind outside the `switch` logs its `NOTICE` and
calls nothing. Past the stack check, a call of the walker is that walk
(`rawExpressionTreeWalkerImpl_eq`), which answers `false` exactly when every call of the visitor
does (`walkItems_false_iff`) and `true` at the first call that does (`walkItems_true_iff`).
The walker itself only reads: what a call changes, its visitor or its `NOTICE` did
(`rawExpressionTreeWalkerImpl_readsOnly`).
-/

namespace PgQuery

variable {σ : Type}

/-! ## Sequencing -/

@[simp] theorem done_andThen (k : Walk σ) : andThen done k = k := rfl

@[simp] theorem andThen_done (w : Walk σ) : andThen w done = w := by
  funext s
  unfold andThen
  rcases w s with e | ⟨_ | _, s'⟩ <;> rfl

theorem andThen_assoc (u v w : Walk σ) : andThen (andThen u v) w = andThen u (andThen v w) := by
  funext s
  unfold andThen
  rcases u s with e | ⟨_ | _, s'⟩ <;> rfl

@[simp] theorem andThen_error (e : ErrorData) (k : Walk σ) :
    andThen (fun _ => .error e) k = fun _ => .error e := rfl

variable (walker : TreeWalkerCallback σ)

theorem walkItems_append (xs ys : List (Option Node)) (k : Walk σ) :
    walkItems walker (xs ++ ys) k = walkItems walker xs (walkItems walker ys k) := by
  induction xs with
  | nil => rfl
  | cons x xs ih => rw [List.cons_append, walkItems, walkItems, ih]

theorem walkItems_andThen (xs : List (Option Node)) (k K : Walk σ) :
    andThen (walkItems walker xs k) K = walkItems walker xs (andThen k K) := by
  induction xs with
  | nil => rfl
  | cons x xs ih => simp only [walkItems, walkOr, andThen_assoc, ih]

/-- The loop over a node's slots answers `false` exactly when every call of the visitor does. -/
theorem walkItems_false_iff (xs : List (Option Node)) (s s' : Backend σ) :
    walkItems walker xs done s = .ok (false, s') ↔ CallsFalse walker xs s s' := by
  induction xs generalizing s with
  | nil => exact ⟨fun h => by cases h; exact .nil _, fun | .nil _ => rfl⟩
  | cons x xs ih =>
    rw [callsFalse_cons_iff]
    simp only [walkItems, walkOr, andThen]
    rcases walker x s with e | ⟨_ | _, s₁⟩
    · simp
    · simp [ih]
    · simp

/-- Slots whose calls all answer `false` pass the walk on to what follows them. -/
theorem walkItems_of_callsFalse {xs : List (Option Node)} {s s₁ : Backend σ}
    (h : CallsFalse walker xs s s₁) (k : Walk σ) : walkItems walker xs k s = k s₁ := by
  induction h with
  | nil => rfl
  | cons hx _ ih => simp only [walkItems, walkOr, andThen, hx, ih]

/-- The loop over a node's slots answers `true` exactly when some call does: the calls before it
all answer `false`, and no slot after it is visited. -/
theorem walkItems_true_iff (xs : List (Option Node)) (s s' : Backend σ) :
    walkItems walker xs done s = .ok (true, s') ↔ ∃ ys x zs s₁, xs = ys ++ x :: zs ∧
      CallsFalse walker ys s s₁ ∧ walker x s₁ = .ok (true, s') := by
  refine ⟨fun h => ?_, fun ⟨ys, x, zs, s₁, hxs, hys, hx⟩ => ?_⟩
  · induction xs generalizing s with
    | nil => cases h
    | cons x xs ih =>
      simp only [walkItems, walkOr, andThen] at h
      rcases hx : walker x s with e | ⟨_ | _, s₁⟩ <;> rw [hx] at h
      · cases h
      · obtain ⟨ys, y, zs, s₂, rfl, hys, hy⟩ := ih s₁ h
        exact ⟨x :: ys, y, zs, s₂, rfl, .cons hx hys, hy⟩
      · cases h
        exact ⟨[], x, xs, s, rfl, .nil s, hx⟩
  · rw [hxs, walkItems_append, walkItems_of_callsFalse walker hys]
    simp only [walkItems, walkOr, andThen, hx]

/-! ## The `switch` -/

theorem walkCaseWhens_eq (ws : List (CaseWhen Node)) (k : Walk σ) :
    walkCaseWhens walker ws k = walkItems walker (ws.flatMap fun w => [w.expr, w.result]) k := by
  induction ws with
  | nil => rfl
  | cons w ws ih => simp only [walkCaseWhens, List.flatMap_cons, walkItems_append, ih]; rfl

theorem rawExpressionTreeWalkerSwitch_eq (n : Node) :
    rawExpressionTreeWalkerSwitch walker n =
      if recognized n then walkItems walker (rawSlots n) done
      else fun s => .ok (false, unrecognizedNodeType n s) := by
  cases n
  case caseExpr arg args defresult _ =>
    show walkOr walker arg (walkCaseWhens walker args (walkOr walker defresult done)) =
      walkOr walker arg
        (walkItems walker (args.flatMap (fun w => [w.expr, w.result]) ++ [defresult]) done)
    rw [walkItems_append, walkCaseWhens_eq]
    rfl
  all_goals first | rfl | exact (andThen_done _).symm

theorem rawSlots_of_not_recognized {n : Node} (h : recognized n = false) : rawSlots n = [] := by
  cases n <;> first | rfl | cases h

@[simp] theorem rawExpressionTreeWalkerImpl_none (stack : Nat) :
    rawExpressionTreeWalkerImpl stack walker none = done := rfl

@[simp] theorem rawExpressionTreeWalkerImpl_zero (n : Node) :
    rawExpressionTreeWalkerImpl 0 walker (some n) = fun _ => .error .stackDepthExceeded := rfl

theorem rawExpressionTreeWalkerImpl_succ (stack : Nat) (n : Node) :
    rawExpressionTreeWalkerImpl (stack + 1) walker (some n) =
      rawExpressionTreeWalkerSwitch walker n := rfl

/-- A call of the walker on a node: the stack check, then the visitor on the node's slots in
order until one answers `true`, or a `NOTICE` for a kind outside the `switch`. -/
theorem rawExpressionTreeWalkerImpl_eq (stack : Nat) (n : Node) :
    rawExpressionTreeWalkerImpl stack walker (some n) =
      if stack = 0 then fun _ => .error .stackDepthExceeded
      else if recognized n then walkItems walker (rawSlots n) done
      else fun s => .ok (false, unrecognizedNodeType n s) := by
  cases stack with
  | zero => rfl
  | succ stack => rw [rawExpressionTreeWalkerImpl_succ, rawExpressionTreeWalkerSwitch_eq]; rfl

/- `CASE WHEN 1 THEN 2 END`, a searched `CASE` without `ELSE`: its slots are its absent `arg`,
each `CaseWhen`'s `expr` and `result`, then its absent `defresult`. -/
example :
    rawExpressionTreeWalkerImpl 1 (fun x s => .ok (false, { s with context := s.context ++ [x] }))
        (some (.caseExpr none [⟨some (.aConst 10), some (.aConst 17), 5⟩] none 0)) ⟨[], []⟩ =
        .ok (false, ⟨[none, some (.aConst 10), some (.aConst 17), none], []⟩) := rfl

/-! ## The walker only reads -/

/-- A visitor call, or a walk, that changes nothing but appends lines to the log. -/
def ReadsOnly (s s' : Backend σ) : Prop := s'.context = s.context ∧ s.log <+: s'.log

theorem ReadsOnly.refl (s : Backend σ) : ReadsOnly s s := ⟨rfl, List.prefix_refl _⟩

theorem ReadsOnly.trans {s₁ s₂ s₃ : Backend σ} (h₁ : ReadsOnly s₁ s₂) (h₂ : ReadsOnly s₂ s₃) :
    ReadsOnly s₁ s₃ :=
  ⟨h₂.1.trans h₁.1, h₁.2.trans h₂.2⟩

theorem walkItems_readsOnly (hw : ∀ x s b s', walker x s = .ok (b, s') → ReadsOnly s s')
    (xs : List (Option Node)) {s s' : Backend σ} {b : Bool}
    (h : walkItems walker xs done s = .ok (b, s')) : ReadsOnly s s' := by
  induction xs generalizing s with
  | nil =>
    cases h
    exact .refl _
  | cons x xs ih =>
    simp only [walkItems, walkOr, andThen] at h
    rcases hx : walker x s with e | ⟨_ | _, s₁⟩ <;> rw [hx] at h
    · cases h
    · exact (hw x s false s₁ hx).trans (ih h)
    · cases h
      exact hw x s true s' hx

/-- The walker changes nothing its visitor does not: with a visitor that leaves the context as it
is and only appends to the log, a call of the walker returns with the context as it was, its log
only appended to. -/
theorem rawExpressionTreeWalkerImpl_readsOnly
    (hw : ∀ x s b s', walker x s = .ok (b, s') → ReadsOnly s s') (stack : Nat) (n : Option Node)
    {s s' : Backend σ} {b : Bool} (h : rawExpressionTreeWalkerImpl stack walker n s = .ok (b, s')) :
    ReadsOnly s s' := by
  cases n with
  | none =>
    cases h
    exact .refl _
  | some n =>
    rw [rawExpressionTreeWalkerImpl_eq] at h
    by_cases h0 : stack = 0
    · simp only [h0, if_true] at h
      cases h
    · cases hr : recognized n <;> simp only [h0, hr, if_false, if_true, Bool.false_eq_true] at h
      · cases h
        exact ⟨rfl, List.prefix_append _ _⟩
      · exact walkItems_readsOnly walker hw _ h

theorem rawExpressionTreeWalkerImpl_readsOnly_other :
    (∀ x s b s', (fun _ => done : TreeWalkerCallback Unit) x s = .ok (b, s') → ReadsOnly s s') ∧
    ReadsOnly (⟨(), []⟩ : Backend Unit) ⟨(), [unrecognizedNotice (.other 7 [])]⟩ :=
  have hw : ∀ x s b s', (fun _ => done : TreeWalkerCallback Unit) x s = .ok (b, s') →
      ReadsOnly s s' := fun _ _ _ _ h => by cases h; exact .refl _
  ⟨hw, rawExpressionTreeWalkerImpl_readsOnly _ hw 1 (some (.other 7 [])) rfl⟩

end PgQuery
