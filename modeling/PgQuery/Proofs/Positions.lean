import PgQuery.Proofs.Canonical

/-!
# The positions a walk passes

Nodes are values, and a tree may hold one node at several places, so the places a walk passes are
told apart by their positions: paths of slot indices, read through the slots the walker walks
(`nodeAt`). `walkedPaths` lists the positions below a tree in the order of the walk's
enumeration; they are the non-empty paths that lead to a node, each once and in increasing
lexicographic order, which is left to right and depth first, and the longest of them is as long
as the walk is deep. A walk within the stack budget whose visitor records every node and never
stops records the nodes at those positions, in that order (`walkFrom_records_positions`).
-/

namespace PgQuery

/-- The node at a path of slot indices below `t`, through the slots the walker walks; `none` when
the path runs past a node's slots or into an absent slot. -/
def nodeAt : Node → List Nat → Option Node
  | t, [] => some t
  | t, i :: p =>
    match (rawSlots t)[i]? with
    | some (some c) => nodeAt c p
    | _ => none

/-- The positions below `t` that a walk from `t` passes, in the order it passes them. -/
def walkedPaths (t : Node) : List (List Nat) :=
  (rawSlots t).enum.attach.flatMap fun ⟨(i, c), h⟩ =>
    match c, h with
    | none, _ => []
    | some m, _hm => [i] :: (walkedPaths m).map (i :: ·)
termination_by sizeOf t
decreasing_by exact sizeOf_lt_of_some_mem_rawSlots (List.snd_mem_of_mem_enum _hm)

/-- One slot's part of `walkedPaths`: nothing for an absent slot, else the slot's position and the
positions below its node. -/
def walkedPathSlot (i : Nat) : Option Node → List (List Nat)
  | none => []
  | some m => [i] :: (walkedPaths m).map (i :: ·)

theorem walkedPaths_eq (t : Node) :
    walkedPaths t = (rawSlots t).enum.flatMap fun p => walkedPathSlot p.1 p.2 := by
  rw [walkedPaths]
  refine (@List.flatMap_subtype _ _ _ _ _ _ ?_).trans (by rw [List.unattach_attach])
  rintro ⟨i, _ | m⟩ h <;> rfl

theorem nodeAt_cons {t m : Node} {i : Nat} (h : (i, some m) ∈ (rawSlots t).enum) (p : List Nat) :
    nodeAt t (i :: p) = nodeAt m p := by
  rw [nodeAt, List.mem_enum_iff_getElem?.1 h]

theorem exists_cons_of_mem_walkedPathSlot {i : Nat} {c : Option Node} {p : List Nat}
    (h : p ∈ walkedPathSlot i c) : ∃ q, p = i :: q := by
  cases c with
  | none => cases h
  | some m =>
    rcases List.mem_cons.1 h with rfl | h
    · exact ⟨[], rfl⟩
    · obtain ⟨q, -, rfl⟩ := List.mem_map.1 h
      exact ⟨q, rfl⟩

theorem nil_not_mem_walkedPaths (t : Node) : [] ∉ walkedPaths t := fun h => by
  rw [walkedPaths_eq, List.mem_flatMap] at h
  obtain ⟨_, -, h⟩ := h
  obtain ⟨q, hq⟩ := exists_cons_of_mem_walkedPathSlot h
  cases hq

/-- The walk's nodes, slot by slot. -/
theorem walked_eq (t : Node) :
    walked t = (rawSlots t).flatMap fun c => (walkedSlot 1 c).map Prod.fst := by
  rw [walked, walkedFrom_eq, List.map_flatMap]

theorem walkedSlot_map_fst (m : Node) : (walkedSlot 1 (some m)).map Prod.fst = m :: walked m := by
  rw [walkedSlot, List.map_cons, walkedFrom_map_fst m 2 1]
  rfl

theorem flatMap_eq_enum_flatMap {α β : Type} (l : List α) (g : α → List β) :
    l.flatMap g = l.enum.flatMap fun p => g p.2 := by
  conv_lhs => rw [← List.enum_map_snd l]
  rw [List.flatMap_map]

theorem walkedPaths_map_nodeAt (t : Node) :
    (walkedPaths t).map (nodeAt t) = (walked t).map some := by
  rw [walkedPaths_eq, walked_eq, List.map_flatMap, List.map_flatMap,
    flatMap_eq_enum_flatMap (rawSlots t)]
  refine List.flatMap_congr fun ⟨i, c⟩ hc => ?_
  cases c with
  | none => rfl
  | some m =>
    have := sizeOf_lt_of_some_mem_rawSlots (List.snd_mem_of_mem_enum hc)
    simp only [walkedPathSlot, List.map_cons, List.map_map, Function.comp_def, nodeAt_cons hc,
      walkedSlot_map_fst, ← walkedPaths_map_nodeAt m]
    rfl
termination_by sizeOf t

theorem walkedFrom_map_snd (t : Node) (d : Nat) :
    (walkedFrom t (d + 1)).map Prod.snd = (walkedPaths t).map fun p => p.length + d := by
  rw [walkedPaths_eq, walkedFrom_eq, List.map_flatMap, List.map_flatMap,
    flatMap_eq_enum_flatMap (rawSlots t)]
  refine List.flatMap_congr fun ⟨i, c⟩ hc => ?_
  cases c with
  | none => rfl
  | some m =>
    have := sizeOf_lt_of_some_mem_rawSlots (List.snd_mem_of_mem_enum hc)
    simp only [walkedSlot, walkedPathSlot, List.map_cons, List.map_map, Function.comp_def,
      List.length_cons, List.length_nil, walkedFrom_map_snd m (d + 1)]
    congr 1
    · omega
    · exact List.map_congr_left fun q _ => by omega
termination_by sizeOf t

theorem walkedPaths_pairwise (t : Node) : (walkedPaths t).Pairwise List.lt := by
  have henum : (rawSlots t).enum.Pairwise fun a b => a.1 < b.1 :=
    List.pairwise_map.1 (by rw [List.enum_map_fst]; exact List.pairwise_lt_range _)
  rw [walkedPaths_eq, List.pairwise_flatMap]
  refine ⟨fun ⟨i, c⟩ hc => ?_, henum.imp fun hlt x hx y hy => ?_⟩
  · cases c with
    | none => exact .nil
    | some m =>
      have := sizeOf_lt_of_some_mem_rawSlots (List.snd_mem_of_mem_enum hc)
      refine List.pairwise_cons.2 ⟨fun x hx => ?_, List.pairwise_map.2
        ((walkedPaths_pairwise m).imp fun h => .tail (Nat.lt_irrefl i) (Nat.lt_irrefl i) h)⟩
      obtain ⟨q, hq, rfl⟩ := List.mem_map.1 hx
      obtain _ | ⟨b, bs⟩ := q
      · exact absurd hq (nil_not_mem_walkedPaths m)
      · exact .tail (Nat.lt_irrefl i) (Nat.lt_irrefl i) (.nil b bs)
  · obtain ⟨q, rfl⟩ := exists_cons_of_mem_walkedPathSlot hx
    obtain ⟨q', rfl⟩ := exists_cons_of_mem_walkedPathSlot hy
    exact .head q q' hlt
termination_by sizeOf t

theorem mem_walkedPaths {t : Node} {p : List Nat} :
    p ∈ walkedPaths t ↔ p ≠ [] ∧ (nodeAt t p).isSome := by
  rw [walkedPaths_eq, List.mem_flatMap]
  constructor
  · rintro ⟨⟨i, _ | m⟩, hc, hp⟩
    · cases hp
    have := sizeOf_lt_of_some_mem_rawSlots (List.snd_mem_of_mem_enum hc)
    rcases List.mem_cons.1 hp with rfl | hp
    · exact ⟨List.cons_ne_nil _ _, by rw [nodeAt_cons hc]; rfl⟩
    · obtain ⟨q, hq, rfl⟩ := List.mem_map.1 hp
      exact ⟨List.cons_ne_nil _ _, by rw [nodeAt_cons hc]; exact (mem_walkedPaths.1 hq).2⟩
  · rintro ⟨hne, hsome⟩
    obtain _ | ⟨i, q⟩ := p
    · exact absurd rfl hne
    rw [nodeAt] at hsome
    split at hsome
    next m hm =>
      have hc : (i, some m) ∈ (rawSlots t).enum := List.mem_enum_iff_getElem?.2 hm
      have := sizeOf_lt_of_some_mem_rawSlots (List.getElem?_mem hm)
      refine ⟨(i, some m), hc, List.mem_cons.2 ?_⟩
      obtain _ | ⟨j, q⟩ := q
      · exact .inl rfl
      · exact .inr (List.mem_map_of_mem _ (mem_walkedPaths.2 ⟨List.cons_ne_nil _ _, hsome⟩))
    next => cases hsome
termination_by sizeOf t

theorem walkedPaths_filterMap_nodeAt (t : Node) :
    (walkedPaths t).filterMap (nodeAt t) = walked t := by
  calc (walkedPaths t).filterMap (nodeAt t) = ((walkedPaths t).map (nodeAt t)).filterMap id := by
        rw [List.filterMap_map]
        rfl
    _ = walked t := by
        rw [walkedPaths_map_nodeAt, List.filterMap_map]
        exact List.filterMap_some _

/-- The walk's depth is the length of its longest position. -/
theorem walkDepth_eq_foldr_length (t : Node) :
    walkDepth t = ((walkedPaths t).map List.length).foldr max 0 := by
  rw [walkDepth, show (walkedPaths t).map List.length = (walkedFrom t 1).map Prod.snd from
    (walkedFrom_map_snd t 0).symm, List.foldr_map]

/-- A walk within the stack budget, whose visitor records each node it is passed and never
stops, passes every position below `t` that the walked slots lead to exactly once, in
lexicographic order of the paths (left to right, depth first): it records the nodes at the paths
of `walkedPaths t`, which increase lexicographically and are all the non-empty paths that lead to
a node. The budget it needs exceeds the length of the longest such path. -/
theorem walkFrom_records_positions (B : Nat) (t : Node) (hB : walkDepth t < B)
    (s : Backend (List Node)) :
    (∃ log, walkFrom (recordUntil fun _ => false) B (some t) s =
      .ok (false, ⟨s.context ++ (walkedPaths t).filterMap (nodeAt t), log⟩)) ∧
    (walkedPaths t).Pairwise List.lt ∧
    (∀ p, p ∈ walkedPaths t ↔ p ≠ [] ∧ (nodeAt t p).isSome) ∧
    walkDepth t = ((walkedPaths t).map List.length).foldr max 0 := by
  refine ⟨?_, walkedPaths_pairwise t, fun _ => mem_walkedPaths, walkDepth_eq_foldr_length t⟩
  obtain ⟨hany, hcalls⟩ := runUntil_recordUntil (fun _ => false) (walked t) (enter t s)
  rw [List.any_eq_false.2 fun _ _ => Bool.false_ne_true] at hany
  rw [takeThrough_false, enter_context] at hcalls
  refine ⟨(runUntil (recordUntil fun _ => false) (walked t) (enter t s)).2.log,
    (walkFrom_of_walkDepth_lt _ B hB s).trans (congrArg Except.ok (Prod.ext hany ?_))⟩
  rw [walkedPaths_filterMap_nodeAt, ← hcalls]

theorem walkFrom_records_positions_typeCast :
    walkDepth (.typeCast (some (.columnRef 3)) ⟨none, none, 5⟩ 2) < 2 ∧
    ∃ log, walkFrom (recordUntil fun _ => false) 2
        (some (.typeCast (some (.columnRef 3)) ⟨none, none, 5⟩ 2)) ⟨[], []⟩ =
      .ok (false, ⟨[] ++ (walkedPaths (.typeCast (some (.columnRef 3)) ⟨none, none, 5⟩ 2)).filterMap
        (nodeAt (.typeCast (some (.columnRef 3)) ⟨none, none, 5⟩ 2)), log⟩) := by
  have h : walkDepth (.typeCast (some (.columnRef 3)) ⟨none, none, 5⟩ 2) < 2 := by
    simp [walkDepth, walkedFrom_eq, walkedSlot, rawSlots.eq_def]
  exact ⟨h, (walkFrom_records_positions 2 _ h _).1⟩

end PgQuery
