import PgQuery.Location

/-!
# `leftmostLoc` keeps the least known location

`leftmostLoc` answers one of its arguments (`leftmostLoc_eq_or`). Read as locations, where `-1` is
unknown, it is the least known one: combining the least known candidates of two lists gives the
least known candidate of both (`IsLeastKnown.leftmostLoc`), whatever the nesting, so an unknown
location never masks a known one; on locations it is commutative and associative with `-1` as
its unit (`leftmostLoc_comm_assoc`).
-/

namespace PgQuery

theorem leftmostLoc_eq_or (a b : Int) : leftmostLoc a b = a ∨ leftmostLoc a b = b := by
  unfold leftmostLoc
  split_ifs <;> simp

/-- A property of both arguments holds of `leftmostLoc`. -/
theorem leftmostLoc_rec {P : Int → Prop} {a b : Int} (ha : P a) (hb : P b) :
    P (leftmostLoc a b) := by
  rcases leftmostLoc_eq_or a b with h | h <;> rw [h] <;> assumption

@[simp] theorem leftmostLoc_neg_one_left (b : Int) : leftmostLoc (-1) b = b := by
  simp [leftmostLoc]

theorem leftmostLoc_neg_one_right {a : Int} (ha : -1 ≤ a) : leftmostLoc a (-1) = a := by
  unfold leftmostLoc
  split_ifs <;> omega

/-- On locations, where `-1` is unknown, `leftmostLoc` is commutative and associative with `-1` as
its unit, so the order in which a case combines its candidates does not change its answer. -/
theorem leftmostLoc_comm_assoc {a b : Int} (c : Int) (ha : -1 ≤ a) (hb : -1 ≤ b) :
    leftmostLoc a b = leftmostLoc b a ∧
      leftmostLoc (leftmostLoc a b) c = leftmostLoc a (leftmostLoc b c) ∧
      leftmostLoc (-1) a = a ∧ leftmostLoc a (-1) = a := by
  refine ⟨?_, ?_, leftmostLoc_neg_one_left a, leftmostLoc_neg_one_right ha⟩ <;>
    · unfold leftmostLoc
      split_ifs <;> omega

theorem leftmostLoc_comm_assoc_unknown :
    (-1 : Int) ≤ 7 ∧ (-1 : Int) ≤ -1 ∧ leftmostLoc 7 (-1) = leftmostLoc (-1) 7 :=
  ⟨by decide, by decide, (leftmostLoc_comm_assoc 0 (by decide : (-1 : Int) ≤ 7)
    (by decide : (-1 : Int) ≤ -1)).1⟩

/-- `v` is the least known location among `cs`: the least non-negative one, or `-1` when there is
none. -/
def IsLeastKnown (cs : List Int) (v : Int) : Prop :=
  (0 ≤ v ∧ v ∈ cs ∧ ∀ c ∈ cs, 0 ≤ c → v ≤ c) ∨ (v = -1 ∧ ∀ c ∈ cs, c < 0)

instance (cs : List Int) (v : Int) : Decidable (IsLeastKnown cs v) :=
  inferInstanceAs (Decidable (_ ∨ _))

theorem IsLeastKnown.singleton {a : Int} (ha : -1 ≤ a) : IsLeastKnown [a] a := by
  by_cases h : 0 ≤ a
  · exact .inl ⟨h, by simp, by simp⟩
  · exact .inr ⟨by omega, by simp; omega⟩

private theorem isLeastKnown_append_known {xs ys : List Int} {v : Int} (hv : 0 ≤ v)
    (hmem : v ∈ xs ∨ v ∈ ys) (hx : ∀ c ∈ xs, 0 ≤ c → v ≤ c) (hy : ∀ c ∈ ys, 0 ≤ c → v ≤ c) :
    IsLeastKnown (xs ++ ys) v := by
  refine .inl ⟨hv, List.mem_append.2 hmem, ?_⟩
  simp only [List.mem_append]
  rintro c (hc | hc)
  exacts [hx c hc, hy c hc]

theorem IsLeastKnown.leftmostLoc {xs ys : List Int} {a b : Int} (ha : IsLeastKnown xs a)
    (hb : IsLeastKnown ys b) : IsLeastKnown (xs ++ ys) (leftmostLoc a b) := by
  unfold PgQuery.leftmostLoc
  rcases ha with ⟨ha0, hax, hamin⟩ | ⟨rfl, hxs⟩ <;> rcases hb with ⟨hb0, hby, hbmin⟩ | ⟨rfl, hys⟩
  · split_ifs with h1 h2 h3
    · omega
    · omega
    · exact isLeastKnown_append_known ha0 (.inl hax) hamin
        fun c hc hc0 => by have := hbmin c hc hc0; omega
    · exact isLeastKnown_append_known hb0 (.inr hby)
        (fun c hc hc0 => by have := hamin c hc hc0; omega) hbmin
  · rw [if_neg (by omega), if_pos (by omega)]
    exact isLeastKnown_append_known ha0 (.inl hax) hamin
      fun c hc hc0 => by have := hys c hc; omega
  · rw [if_pos (by omega)]
    exact isLeastKnown_append_known hb0 (.inr hby)
      (fun c hc hc0 => by have := hxs c hc; omega) hbmin
  · rw [if_pos (by omega)]
    exact .inr ⟨rfl, by simpa [or_imp, forall_and] using ⟨hxs, hys⟩⟩

theorem IsLeastKnown.pair {a b : Int} (ha : -1 ≤ a) (hb : -1 ≤ b) :
    IsLeastKnown [a, b] (PgQuery.leftmostLoc a b) :=
  (singleton ha).leftmostLoc (singleton hb)

theorem IsLeastKnown.neg_one_iff {cs : List Int} {v : Int} (h : IsLeastKnown cs v)
    (hcs : ∀ c ∈ cs, -1 ≤ c) : v = -1 ↔ ∀ c ∈ cs, c = -1 := by
  rcases h with ⟨hv, hmem, -⟩ | ⟨rfl, hneg⟩
  · exact ⟨fun h => by omega, fun h => by have := h v hmem; omega⟩
  · exact ⟨fun _ c hc => by have := hcs c hc; have := hneg c hc; omega, fun _ => rfl⟩

end PgQuery
