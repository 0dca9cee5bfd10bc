import Mathlib.Data.List.Basic
import Mathlib.Logic.Relation
import TypeBundle.Bundle.Graph
/-!
# Exploring a graph of ids

An exploration finds what can be reached from a list, and no more. It is given enough steps: each step takes an id off
the list, and what an id points at is put on the list only once, when the id is found. So ids that reach each other can
be told apart from others, and the groups of a graph are the classes of these ids (`mem_groups`), in order.
-/

namespace TypeBundle.Bundle.Edges

open Relation (TransGen)

variable {g : Edges} {a c : BundleId}

/-- The first id points at the second. -/
def PointsAt (g : Edges) (a c : BundleId) : Prop := c ∈ g.targets a

/-! ## Explorations -/

theorem mem_insert {found : Std.TreeSet UInt32} : a.val ∈ found.insert c.val ↔ a = c ∨ a.val ∈ found := by
  rw [Std.TreeSet.mem_insert, Std.LawfulEqCmp.compare_eq_iff_eq]
  refine or_congr_left ⟨fun h => ?_, fun h => h ▸ rfl⟩
  cases a
  cases c
  exact congrArg BundleId.mk h.symm

/-- What is found has every property that the list and what was found before have and that pointers pass on. -/
theorem explore_sound {P : BundleId → Prop} (hstep : ∀ a c, P a → g.PointsAt a c → P c) {steps : Nat}
    {list : List BundleId} {found : Std.TreeSet UInt32} (hlist : ∀ a ∈ list, P a)
    (hfound : ∀ a : BundleId, a.val ∈ found → P a) : ∀ a : BundleId, a.val ∈ g.explore steps list found → P a := by
  induction steps generalizing list found with
  | zero => exact hfound
  | succ steps ih =>
    cases list with
    | nil => exact hfound
    | cons id rest =>
      rw [List.forall_mem_cons] at hlist
      unfold explore
      split
      · exact ih hlist.2 hfound
      · refine ih ?_ ?_
        · intro a ha
          rcases List.mem_append.1 ha with ha | ha
          · exact hstep id a hlist.1 ha
          · exact hlist.2 a ha
        · intro a ha
          rcases mem_insert.1 ha with rfl | ha
          · exact hlist.1
          · exact hfound a ha

/-- One step for each id, and one for each of its pointers. -/
def stepsFor : List (UInt32 × List BundleId) → Nat
  | [] => 0
  | e :: es => e.2.length + 1 + stepsFor es

/-- The steps that ids which are not found may still take. -/
def weight (g : Edges) (found : Std.TreeSet UInt32) : Nat := stepsFor (g.toList.filter fun e => e.1 ∉ found)

/-- Fewer ids take fewer steps, by those of an id that is left out. -/
theorem stepsFor_filter {p q : UInt32 × List BundleId → Bool} (hqp : ∀ e, q e = true → p e = true)
    (es : List (UInt32 × List BundleId)) : stepsFor (es.filter q) ≤ stepsFor (es.filter p) ∧
      ∀ e ∈ es, p e = true → q e = false → stepsFor (es.filter q) + e.2.length < stepsFor (es.filter p) := by
  induction es with
  | nil => simp
  | cons e es ih =>
    obtain ⟨hle, hlt⟩ := ih
    by_cases hq : q e = true
    · rw [List.filter_cons_of_pos hq, List.filter_cons_of_pos (hqp e hq), stepsFor, stepsFor]
      refine ⟨by omega, List.forall_mem_cons.2 ⟨fun _ hq' => ?_, fun d hd hp hq' => ?_⟩⟩
      · rw [hq] at hq'
        cases hq'
      · have hd' := hlt d hd hp hq'
        omega
    · rw [List.filter_cons_of_neg hq]
      by_cases hp : p e = true
      · rw [List.filter_cons_of_pos hp, stepsFor]
        refine ⟨by omega, List.forall_mem_cons.2 ⟨fun _ _ => by omega, fun d hd hp' hq' => ?_⟩⟩
        have hd' := hlt d hd hp' hq'
        omega
      · rw [List.filter_cons_of_neg hp]
        exact ⟨hle, List.forall_mem_cons.2 ⟨fun hp' => absurd hp' hp, hlt⟩⟩

/-- An id that is found gives up the steps for its pointers. -/
theorem weight_insert {found : Std.TreeSet UInt32} (ha : a.val ∉ found) :
    (g.targets a).length + g.weight (found.insert a.val) ≤ g.weight found := by
  have hsub : ∀ e : UInt32 × List BundleId, decide (e.1 ∉ found.insert a.val) = true → decide (e.1 ∉ found) = true := by
    intro e he
    simp only [decide_eq_true_eq, Std.TreeSet.mem_insert, not_or] at he ⊢
    exact he.2
  obtain ⟨hle, hlt⟩ := stepsFor_filter hsub g.toList
  cases hget : g[a.val]? with
  | none =>
    simp only [targets, hget, Option.getD_none, List.length_nil, weight]
    omega
  | some ts =>
    have hmem := Std.TreeMap.mem_toList_iff_getElem?_eq_some.2 hget
    have hsum := hlt _ hmem (by simpa using ha) (by simp [Std.TreeSet.mem_insert])
    simp only [targets, hget, Option.getD_some, weight]
    dsimp only at hsum
    omega

theorem size_eq_weight (g : Edges) : g.size = g.weight ∅ := by
  have hvalues : g.values = g.toList.map (·.2) := by
    have hfoldr : g.values = g.foldr (fun _ ts rest => ts :: rest) [] := rfl
    rw [hfoldr, Std.TreeMap.foldr_eq_foldr_toList, List.foldr_cons_eq_append, List.append_nil]
  have hfoldl : ∀ (es : List (UInt32 × List BundleId)) (n : Nat),
      (es.map (·.2)).foldl (fun n targets => n + targets.length + 1) n = n + stepsFor es := by
    intro es
    induction es with
    | nil => exact fun _ => rfl
    | cons e es ih =>
      intro n
      rw [List.map_cons, List.foldl_cons, ih, stepsFor]
      omega
  have hfilter : (g.toList.filter fun e => e.1 ∉ (∅ : Std.TreeSet UInt32)) = g.toList := by
    simp
  rw [size, hvalues, hfoldl, weight, hfilter, Nat.zero_add]

/-- Nothing that should be found is missing: the list is found, and what ids that are found only now point at. -/
structure Explored (g : Edges) (list : List BundleId) (before after : Std.TreeSet UInt32) : Prop where
  found : ∀ a : BundleId, a.val ∈ before → a.val ∈ after
  list : ∀ a ∈ list, a.val ∈ after
  closed : ∀ a c : BundleId, a.val ∈ after → g.PointsAt a c → a.val ∈ before ∨ c.val ∈ after

theorem explore_complete {steps : Nat} {list : List BundleId} {found : Std.TreeSet UInt32}
    (h : list.length + g.weight found ≤ steps) : g.Explored list found (g.explore steps list found) := by
  have hnil : ∀ found : Std.TreeSet UInt32, g.Explored [] found found := fun _ =>
    ⟨fun _ ha => ha, fun _ ha => absurd ha List.not_mem_nil, fun _ _ ha _ => .inl ha⟩
  induction steps generalizing list found with
  | zero =>
    obtain rfl : list = [] := List.eq_nil_of_length_eq_zero (by omega)
    exact hnil found
  | succ steps ih =>
    cases list with
    | nil => exact hnil found
    | cons id rest =>
      rw [List.length_cons] at h
      unfold explore
      split
      · rename_i hid
        have hrest : g.Explored rest found _ := ih (by omega)
        refine ⟨hrest.found, ?_, hrest.closed⟩
        rw [List.forall_mem_cons]
        exact ⟨hrest.found id hid, hrest.list⟩
      · rename_i hid
        have hweight := weight_insert (g := g) hid
        have hrest : g.Explored (g.targets id ++ rest) (found.insert id.val) _ :=
          ih (by rw [List.length_append]; omega)
        have hself := hrest.found id (mem_insert.2 (.inl rfl))
        constructor
        · intro a ha
          exact hrest.found a (mem_insert.2 (.inr ha))
        · rw [List.forall_mem_cons]
          exact ⟨hself, fun a ha => hrest.list a (List.mem_append_right _ ha)⟩
        · intro a c ha hc
          rcases hrest.closed a c ha hc with ha | hc'
          · rcases mem_insert.1 ha with rfl | ha
            · -- what the id points at has been put on the list
              exact .inr (hrest.list c (List.mem_append_left _ hc))
            · exact .inl ha
          · exact .inr hc'

/-- What is reachable from an id is what pointers lead to, in one step or more. -/
theorem mem_reachable : c.val ∈ g.reachable a ↔ TransGen g.PointsAt a c := by
  constructor
  · intro hc
    refine explore_sound (P := TransGen g.PointsAt a) (fun _ _ => .tail) (fun _ h => .single h) ?_ c hc
    intro _ h
    exact absurd h Std.TreeSet.not_mem_emptyc
  · intro h
    have hexplored : g.Explored (g.targets a) ∅ (g.reachable a) := explore_complete (by rw [← size_eq_weight]; omega)
    induction h with
    | single hc => exact hexplored.list _ hc
    | tail _ hc ih => exact (hexplored.closed _ _ ih hc).resolve_left Std.TreeSet.not_mem_emptyc

/-! ## Groups -/

/-- Whether an id reaches another. -/
def reaches (g : Edges) (a c : UInt32) : Bool := ((g.map fun id _ => g.reachable ⟨id⟩)[a]?).any (·.contains c)

/-- The ids that an id reaches and that reach it, in order. -/
def group (g : Edges) (a : UInt32) : List UInt32 := g.keys.filter fun c => g.reaches a c && g.reaches c a

theorem groups_eq (g : Edges) : g.groups = g.keys.filterMap fun a =>
    if (g.group a).head? = some a then some ((g.group a).map BundleId.mk) else none := rfl

/-- The ids reach each other. -/
def Mutual (g : Edges) (a c : BundleId) : Prop := TransGen g.PointsAt a c ∧ TransGen g.PointsAt c a

theorem Mutual.symm (h : g.Mutual a c) : g.Mutual c a := ⟨h.2, h.1⟩

theorem Mutual.trans {d : BundleId} (h : g.Mutual a c) (h' : g.Mutual c d) : g.Mutual a d :=
  ⟨h.1.trans h'.1, h'.2.trans h.2⟩

/-- What reaches something points at something. -/
theorem getElem?_of_transGen (h : TransGen g.PointsAt a c) : ∃ ts, g[a.val]? = some ts := by
  obtain ⟨d, hd, -⟩ := Relation.TransGen.head'_iff.1 h
  cases hget : g[a.val]? with
  | none => simp [PointsAt, targets, hget] at hd
  | some ts => exact ⟨ts, rfl⟩

theorem reaches_iff : g.reaches a.val c.val = true ↔ TransGen g.PointsAt a c := by
  rw [reaches, Std.TreeMap.getElem?_map]
  cases hget : g[a.val]? with
  | none =>
    refine iff_of_false (by simp) fun h => ?_
    obtain ⟨ts, hts⟩ := getElem?_of_transGen h
    rw [hget] at hts
    cases hts
  | some ts =>
    rw [Option.map_some, Option.any_some, Std.TreeSet.contains_iff_mem]
    exact mem_reachable

theorem mem_group : c.val ∈ g.group a.val ↔ g.Mutual a c := by
  rw [group, List.mem_filter, Bool.and_eq_true, reaches_iff, reaches_iff]
  refine and_iff_right_of_imp fun h => ?_
  obtain ⟨ts, hts⟩ := getElem?_of_transGen h.2
  rw [Std.TreeMap.mem_keys, Std.TreeMap.mem_iff_isSome_getElem?, hts]
  rfl

/-- Ids that reach each other have one group. -/
theorem group_congr (h : g.Mutual a c) : g.group a.val = g.group c.val := by
  refine List.filter_congr fun x _ => ?_
  have hmutual : ∀ d : BundleId, (g.reaches d.val x && g.reaches x d.val) = true ↔ g.Mutual d ⟨x⟩ := by
    intro d
    rw [Bool.and_eq_true]
    exact and_congr (reaches_iff (c := ⟨x⟩)) (reaches_iff (a := ⟨x⟩))
  rw [Bool.eq_iff_iff, hmutual, hmutual]
  exact ⟨h.symm.trans, h.trans⟩

theorem keys_ascending (g : Edges) : g.keys.Pairwise (· < ·) := by
  refine Std.TreeMap.ordered_keys.imp fun h => ?_
  rwa [Std.compare_eq_lt] at h

/-- The groups are those of the ids that reach themselves. -/
theorem mem_groups {ids : List BundleId} :
    ids ∈ g.groups ↔ ∃ a, g.Mutual a a ∧ ids = (g.group a.val).map BundleId.mk := by
  simp only [groups_eq, List.mem_filterMap, Option.ite_none_right_eq_some, Option.some.injEq]
  constructor
  · rintro ⟨a, -, hhead, rfl⟩
    have hself : (BundleId.mk a).val ∈ g.group (BundleId.mk a).val := List.mem_of_head? hhead
    exact ⟨⟨a⟩, mem_group.1 hself, rfl⟩
  · rintro ⟨a, hself, rfl⟩
    -- the first id of the group stands for it
    cases hhead : (g.group a.val).head? with
    | none =>
      have hmem := mem_group.2 hself
      rw [List.head?_eq_none_iff.1 hhead] at hmem
      cases hmem
    | some first =>
      have hmem : (BundleId.mk first).val ∈ g.group a.val := List.mem_of_head? hhead
      have hgroup := group_congr (mem_group.1 hmem)
      exact ⟨first, (List.mem_filter.1 hmem).1, by rw [← hgroup, hhead], by rw [hgroup]⟩

/-- The ids of a group reach each other, and are all that do. -/
theorem mem_mem_groups : (∃ ids ∈ g.groups, a ∈ ids ∧ c ∈ ids) ↔ g.Mutual a c := by
  have hmap : ∀ x y : BundleId, y ∈ (g.group x.val).map BundleId.mk ↔ g.Mutual x y := by
    intro x y
    rw [← mem_group, List.mem_map]
    constructor
    · rintro ⟨_, hy, rfl⟩
      exact hy
    · intro hy
      exact ⟨y.val, hy, rfl⟩
  constructor
  · rintro ⟨_, hids, ha, hc⟩
    obtain ⟨x, -, rfl⟩ := mem_groups.1 hids
    rw [hmap] at ha hc
    exact ha.symm.trans hc
  · intro h
    have hself := h.trans h.symm
    exact ⟨_, mem_groups.2 ⟨a, hself, rfl⟩, (hmap a a).2 hself, (hmap a c).2 h⟩

theorem group_ascending {ids : List BundleId} (h : ids ∈ g.groups) : ids.Pairwise (· < ·) := by
  obtain ⟨a, -, rfl⟩ := mem_groups.1 h
  exact List.pairwise_map.2 (g.keys_ascending.sublist List.filter_sublist)

/-- Groups stand in the order of their first ids and have nothing in common. -/
theorem groups_pairwise (g : Edges) : g.groups.Pairwise fun ids ids' => ids < ids' ∧ ids.Disjoint ids' := by
  rw [groups_eq, List.pairwise_filterMap]
  refine g.keys_ascending.imp fun {a a'} hlt ids hids ids' hids' => ?_
  simp only [Option.ite_none_right_eq_some, Option.some.injEq] at hids hids'
  obtain ⟨hhead, rfl⟩ := hids
  obtain ⟨hhead', rfl⟩ := hids'
  constructor
  · obtain ⟨rest, hrest⟩ := List.head?_eq_some_iff.1 hhead
    obtain ⟨rest', hrest'⟩ := List.head?_eq_some_iff.1 hhead'
    rw [hrest, hrest', List.map_cons, List.map_cons, List.cons_lt_cons_iff]
    exact .inl hlt
  · intro x hx hx'
    obtain ⟨c, hc, rfl⟩ := List.mem_map.1 hx
    obtain ⟨c', hc', heq⟩ := List.mem_map.1 hx'
    obtain rfl := BundleId.mk.inj heq
    -- an id in both would make them one
    have hboth : g.Mutual ⟨a⟩ ⟨a'⟩ := Mutual.trans (mem_group.1 hc) (mem_group.1 hc').symm
    have hheads : (g.group a).head? = (g.group a').head? := congrArg _ (group_congr hboth)
    rw [hhead, hhead'] at hheads
    obtain rfl := Option.some.inj hheads
    exact absurd hlt (UInt32.lt_irrefl a)

end TypeBundle.Bundle.Edges
