import TypeBundle.Proofs.Bundle.Check
import TypeBundle.Proofs.Bundle.Explore
/-!
# The recursive groups of a bundle

A record refers to another if its body names it at any depth and it is there. The groups of a bundle are exactly the
cycles of these references, also where records share an id or name what is not there (`groups_exact`).
-/

namespace TypeBundle.Bundle

open Relation (TransGen)

/-- A record with the first id names the second, and there is a record with the second. -/
def RefersTo (b : Bundle) (x y : BundleId) : Prop := (∃ r ∈ b.records, r.id = x ∧ r.body.Names y) ∧ y ∈ b.ids

/-! ## Ids in order -/

theorem mem_insertId {x id : BundleId} {ids : List BundleId} : x ∈ insertId id ids ↔ x = id ∨ x ∈ ids := by
  induction ids with
  | nil => simp [insertId]
  | cons a as ih =>
    unfold insertId
    split
    · simp
    · split
      · rename_i heq
        simp [heq]
      · rw [List.mem_cons, ih, List.mem_cons]
        exact or_left_comm

theorem insertId_ascending {id : BundleId} {ids : List BundleId} (h : ids.Pairwise (· < ·)) :
    (insertId id ids).Pairwise (· < ·) := by
  induction ids with
  | nil => simp [insertId]
  | cons a as ih =>
    obtain ⟨ha, has⟩ := List.pairwise_cons.1 h
    unfold insertId
    split
    · rename_i hlt
      refine List.pairwise_cons.2 ⟨fun x hx => ?_, h⟩
      rcases List.mem_cons.1 hx with rfl | hx
      · exact hlt
      · exact UInt32.lt_trans hlt (ha x hx)
    · split
      · exact h
      · rename_i hlt hne
        refine List.pairwise_cons.2 ⟨fun x hx => ?_, ih has⟩
        rcases mem_insertId.1 hx with rfl | hx
        · -- the id is neither smaller nor the same
          have hval : x.val ≠ a.val := fun heq => hne (congrArg BundleId.mk heq)
          exact UInt32.lt_of_le_of_ne (UInt32.not_lt.1 hlt) hval.symm
        · exact ha x hx

theorem ascending_spec (ids : List BundleId) : (ascending ids).Pairwise (· < ·) ∧ ∀ x, x ∈ ascending ids ↔ x ∈ ids := by
  have hfold : ∀ (ids done : List BundleId), done.Pairwise (· < ·) →
      (ids.foldl (fun done id => insertId id done) done).Pairwise (· < ·) ∧
        ∀ x, x ∈ ids.foldl (fun done id => insertId id done) done ↔ x ∈ ids ∨ x ∈ done := by
    intro ids
    induction ids with
    | nil => exact fun done hdone => ⟨hdone, by simp⟩
    | cons id ids ih =>
      intro done hdone
      obtain ⟨hascending, hmem⟩ := ih (insertId id done) (insertId_ascending hdone)
      refine ⟨hascending, fun x => ?_⟩
      rw [List.foldl_cons, hmem, mem_insertId, List.mem_cons, or_assoc, or_left_comm]
  obtain ⟨hascending, hmem⟩ := hfold ids [] .nil
  exact ⟨hascending, fun x => (hmem x).trans (or_iff_left List.not_mem_nil)⟩

/-! ## The graph of a bundle -/

variable {b : Bundle} {x y : BundleId}

theorem mem_referencesFrom : y ∈ b.referencesFrom x ↔ b.RefersTo x y := by
  simp only [referencesFrom, (ascending_spec _).2, List.mem_filter, List.mem_flatMap, TypeExpr.mem_references,
    decide_eq_true_eq, RefersTo, and_assoc]

/-- Records that share an id point at what any of them names; an id without a record points at nothing. -/
theorem targets_edges (b : Bundle) (x : BundleId) : b.edges.targets x = b.referencesFrom x := by
  have hfold : ∀ (ids : List BundleId) (g : Edges),
      (ids.foldl (fun g id => g.insert id.val (b.referencesFrom id)) g)[x.val]? =
        if x ∈ ids then some (b.referencesFrom x) else g[x.val]? := by
    intro ids
    induction ids with
    | nil => simp
    | cons id ids ih =>
      intro g
      have hval : compare id.val x.val = .eq ↔ x = id := by
        rw [Std.LawfulEqCmp.compare_eq_iff_eq]
        exact ⟨fun h => congrArg BundleId.mk h.symm, fun h => h ▸ rfl⟩
      rw [List.foldl_cons, ih, Std.TreeMap.getElem?_insert]
      by_cases hx : x ∈ ids
      · rw [if_pos hx, if_pos (List.mem_cons_of_mem id hx)]
      · by_cases hid : x = id
        · subst hid
          rw [if_neg hx, if_pos (hval.2 rfl), if_pos List.mem_cons_self]
        · rw [if_neg hx, if_neg (mt hval.1 hid), if_neg (by simp [hx, hid])]
  rw [Edges.targets, edges, hfold]
  by_cases hx : x ∈ b.ids
  · rw [if_pos hx]
    rfl
  · rw [if_neg hx]
    have hnone : b.records.filter (fun r => decide (r.id = x)) = [] := by
      rw [List.filter_eq_nil_iff]
      intro r hr hid
      exact hx (List.mem_map.2 ⟨r, hr, of_decide_eq_true hid⟩)
    simp only [referencesFrom, hnone]
    rfl

theorem pointsAt_edges (b : Bundle) : b.edges.PointsAt = b.RefersTo := by
  funext x y
  rw [Edges.PointsAt, targets_edges, mem_referencesFrom]

/-! ## The theorem -/

/-- The groups of a bundle, and what its records refer to. -/
structure ExactGroups (b : Bundle) : Prop where
  /-- An id is in a group if some way along the references leads back to it. -/
  recursive : ∀ x, (∃ ids ∈ b.groups, x ∈ ids) ↔ TransGen b.RefersTo x x
  /-- Two ids are in one group if each leads to the other. -/
  together : ∀ x y, (∃ ids ∈ b.groups, x ∈ ids ∧ y ∈ ids) ↔ TransGen b.RefersTo x y ∧ TransGen b.RefersTo y x
  nonempty : ∀ ids ∈ b.groups, ids ≠ []
  apart : b.groups.Pairwise List.Disjoint
  groupAscending : ∀ ids ∈ b.groups, ids.Pairwise (· < ·)
  ascending : b.groups.Pairwise (· < ·)
  referencesAscending : ∀ x, (b.referencesFrom x).Pairwise (· < ·)
  references : ∀ x y, y ∈ b.referencesFrom x ↔ b.RefersTo x y

/-- The recursive groups of a bundle are exactly the cycles of the references between its records. -/
theorem groups_exact (b : Bundle) : ExactGroups b := by
  have htogether : ∀ x y, (∃ ids ∈ b.groups, x ∈ ids ∧ y ∈ ids) ↔
      TransGen b.RefersTo x y ∧ TransGen b.RefersTo y x := by
    intro x y
    rw [← pointsAt_edges]
    exact Edges.mem_mem_groups
  constructor
  · intro x
    have hself := htogether x x
    simp only [and_self] at hself
    exact hself
  · exact htogether
  · rintro ids hids rfl
    obtain ⟨a, hself, hnil⟩ := Edges.mem_groups.1 hids
    have hmem := Edges.mem_group.2 hself
    rw [List.map_eq_nil_iff.1 hnil.symm] at hmem
    cases hmem
  · exact b.edges.groups_pairwise.imp fun h => h.2
  · exact fun ids hids => Edges.group_ascending hids
  · exact b.edges.groups_pairwise.imp fun h => h.1
  · exact fun x => (ascending_spec _).1
  · exact fun x y => mem_referencesFrom

end TypeBundle.Bundle
