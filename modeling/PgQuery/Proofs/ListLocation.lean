import PgQuery.Proofs.Resolve

/-!
# The location of a list

The `foreach` of `exprLocation`'s `T_List` case leaves at the first member with a known location;
when none has one its loop variable holds the last member's location, which under valid
locations is `-1` (`exprLocationList_find`). A list therefore resolves like the concatenation of
its parts (`exprLocation_list_append`), and a list of lists like its flattening.
-/

namespace PgQuery

theorem exprLocationList_find :
    ∀ {xs : List (Option Node)}, (∀ x ∈ xs, -1 ≤ exprLocation x) →
      exprLocationList xs (-1) = ((xs.map exprLocation).find? fun l => 0 ≤ l).getD (-1)
  | [], _ => rfl
  | x :: xs, h => by
    have hx := h x (by simp)
    simp only [exprLocationList, List.map_cons, List.find?_cons]
    by_cases hk : 0 ≤ exprLocation x
    · simp [hk]
    · have hx' : exprLocation x = -1 := by omega
      simp only [hk, if_false, decide_False]
      rw [hx', exprLocationList_find fun y hy => h y (by simp [hy])]

theorem members_ge {xs : List (Option Node)} (h : ValidLocations (.list xs)) :
    ∀ x ∈ xs, -1 ≤ exprLocation x :=
  fun _ hx => exprLocation_child_ge h hx

theorem exprLocation_list_find {xs : List (Option Node)} (h : ValidLocations (.list xs)) :
    exprLocation (some (.list xs)) = ((xs.map exprLocation).find? fun l => 0 ≤ l).getD (-1) :=
  exprLocationList_find (members_ge h)

theorem ValidLocations.list_append {xs ys : List (Option Node)}
    (h : ValidLocations (.list (xs ++ ys))) :
    ValidLocations (.list xs) ∧ ValidLocations (.list ys) := by
  simp only [validLocations_list, List.mem_append] at h ⊢
  exact ⟨fun n hn => h n (.inl hn), fun n hn => h n (.inr hn)⟩

theorem exprLocation_list_append {xs ys : List (Option Node)}
    (h : ValidLocations (.list (xs ++ ys))) :
    exprLocation (some (.list (xs ++ ys))) =
      if 0 ≤ exprLocation (some (.list xs)) then exprLocation (some (.list xs))
      else exprLocation (some (.list ys)) := by
  obtain ⟨hx, hy⟩ := h.list_append
  rw [exprLocation_list_find h, exprLocation_list_find hx, exprLocation_list_find hy,
    List.map_append, List.find?_append]
  cases hf : (xs.map exprLocation).find? fun l => 0 ≤ l with
  | none => simp
  | some v =>
    have hv : 0 ≤ v := by simpa using List.find?_some hf
    simp [hv]

theorem exprLocation_list_singleton (x : Option Node) :
    exprLocation (some (.list [x])) = exprLocation x := by
  show exprLocationList [x] (-1) = exprLocation x
  simp [exprLocationList]

theorem exprLocation_list_flatten :
    ∀ ls : List (List (Option Node)), ValidLocations (.list (ls.map fun l => some (.list l))) →
      exprLocation (some (.list (ls.map fun l => some (.list l)))) =
        exprLocation (some (.list ls.flatten))
  | [], _ => rfl
  | l :: ls, h => by
    have hsplit : ValidLocations (.list ([some (.list l)] ++ ls.map fun l => some (.list l))) := h
    obtain ⟨hl, hls⟩ := hsplit.list_append
    have hl' : ValidLocations (.list l) := hl.child (by simp [children.eq_def])
    have hflat : ValidLocations (.list (l ++ ls.flatten)) := by
      refine validLocations_list.2 fun n hn => ?_
      rcases List.mem_append.1 hn with hn | hn
      · exact validLocations_list.1 hl' n hn
      · obtain ⟨l', hl'ls, hnl'⟩ := List.mem_flatten.1 hn
        exact validLocations_list.1 (validLocations_list.1 hls (.list l') (by simp [hl'ls])) n hnl'
    rw [List.flatten_cons, exprLocation_list_append hflat, ← exprLocation_list_flatten ls hls,
      List.map_cons, ← List.singleton_append, exprLocation_list_append hsplit,
      exprLocation_list_singleton]

theorem exprLocation_list_first_known (xs ys : List (Option Node))
    (h : ValidLocations (.list (xs ++ ys))) :
    exprLocation (some (.list xs)) = ((xs.map exprLocation).find? fun l => 0 ≤ l).getD (-1) ∧
    exprLocation (some (.list (xs ++ ys))) =
      (if 0 ≤ exprLocation (some (.list xs)) then exprLocation (some (.list xs))
        else exprLocation (some (.list ys))) ∧
    ∀ ls : List (List (Option Node)), ValidLocations (.list (ls.map fun l => some (.list l))) →
      exprLocation (some (.list (ls.map fun l => some (.list l)))) =
        exprLocation (some (.list ls.flatten)) :=
  ⟨exprLocation_list_find h.list_append.1, exprLocation_list_append h, exprLocation_list_flatten⟩

theorem exprLocation_list_first_known_unknowns :
    ValidLocations (.list ([none, some (.aConst (-1))] ++ [some (.columnRef 2)])) ∧
      exprLocation (some (.list ([none, some (.aConst (-1))] ++ [some (.columnRef 2)]))) = 2 := by
  have h : ValidLocations (.list ([none, some (.aConst (-1))] ++ [some (.columnRef 2)])) :=
    validLocations_list.2 fun n hn => by
      simp only [List.cons_append, List.nil_append, List.mem_cons, Option.some.injEq,
        reduceCtorEq, false_or, List.mem_singleton, List.not_mem_nil, or_false] at hn
      rcases hn with rfl | rfl <;>
        exact .of_children (by simp [ownLocation.eq_def]) (by simp [children.eq_def])
  exact ⟨h, by rw [(exprLocation_list_first_known _ _ h).2.1]; rfl⟩

end PgQuery
