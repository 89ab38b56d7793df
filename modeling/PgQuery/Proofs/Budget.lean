import PgQuery.Proofs.Canonical

/-!
# The walk for every stack budget

For every budget, visitor and state, the canonical walk from `t` has a closed form: it aborts with
the stack-depth error exactly when the budget is `0` or one of the nodes `f` answers `false` at,
before its first `true`, lies as deep as the budget, and otherwise it returns what `f` along the
nodes below `t` returns (`walkFrom_eq_ite`). Whatever the budget, the walk reads the visitor only
at those nodes (`walkFrom_congr`). The walker's loop over a `List` composes: a call on the
concatenation of two lists is the call on the first and, unless that stops or aborts, the call on
the second (`rawExpressionTreeWalkerImpl_list_append`).
-/

namespace PgQuery

variable {σ : Type} (f : Node → σ → Bool × σ) (B : Nat)

theorem visitAll_eq_ite (W : List (Node × Nat)) (s : Backend σ) :
    visitAll f B W done s =
      if ∃ p ∈ W.take (passedOver f (W.map Prod.fst) s.context).length, B ≤ p.2 then
        .error .stackDepthExceeded
      else .ok (runUntil f (W.map Prod.fst) s) := by
  induction W generalizing s with
  | nil => simp [visitAll, runUntil, done]
  | cons p W ih =>
    obtain ⟨m, d⟩ := p
    cases hb : (f m s.context).1
    · have htake : ((m, d) :: W).take (passedOver f (m :: W.map Prod.fst) s.context).length =
          (m, d) :: W.take (passedOver f (W.map Prod.fst) (f m s.context).2).length := by
        simp only [passedOver, hb]
        simp
      rw [visitAll_cons_false f B hb, ih, List.map_cons, htake, enter_context]
      by_cases hd : B ≤ d
      · rw [if_pos hd, if_pos ⟨(m, d), List.mem_cons_self _ _, hd⟩]
      · rw [if_neg hd]
        exact if_congr (by simp [hd]) rfl (by simp [runUntil, hb])
    · rw [visitAll_cons_true f B hb]
      simp [passedOver, runUntil, hb]

/-- The walk from `t`, for every stack budget, visitor and state: it aborts with the stack-depth
error exactly when the budget is `0` or a node `f` answers `false` at, before its first `true`,
lies as deep as the budget; otherwise it applies `f` along the nodes below `t` until the first
`true`, logging each node of a kind outside the `switch` it enters. -/
theorem walkFrom_eq_ite (t : Node) (s : Backend σ) :
    walkFrom f B (some t) s =
      if B = 0 ∨ ∃ p ∈ (walkedFrom t 1).take (passedOver f (walked t) s.context).length, B ≤ p.2
      then .error .stackDepthExceeded
      else .ok (runUntil f (walked t) (enter t s)) := by
  rw [walkFrom_eq_walkSpec, walkSpec]
  by_cases hB : B = 0
  · simp [hB]
  · rw [if_neg hB, visitAll_eq_ite, enter_context]
    simp only [hB, false_or]
    rfl

/-- The walker's loop over a `List` composes, for every visitor and budget: a call on the
concatenation of two lists is the call on the first and, unless that stops or aborts, the call
on the second from where the first left off. -/
theorem rawExpressionTreeWalkerImpl_list_append (stack : Nat) (walker : TreeWalkerCallback σ)
    (xs ys : List (Option Node)) :
    rawExpressionTreeWalkerImpl stack walker (some (.list (xs ++ ys))) =
      andThen (rawExpressionTreeWalkerImpl stack walker (some (.list xs)))
        (rawExpressionTreeWalkerImpl stack walker (some (.list ys))) := by
  cases stack with
  | zero => rfl
  | succ stack =>
    show walkItems walker (xs ++ ys) done =
      andThen (walkItems walker xs done) (walkItems walker ys done)
    rw [walkItems_andThen, done_andThen, walkItems_append]

end PgQuery
