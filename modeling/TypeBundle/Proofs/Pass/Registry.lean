import TypeBundle.Pass.Registry
/-!
# Ids stay

An identity that has an id keeps it, whatever ids are handed out or shared later. One that gets an id is counted once.
-/

namespace TypeBundle.Registry

variable {r : Registry} {key other : Identity} {id k : BundleId}

theorem get?_bind_of_some (h : r.get? other = some k) : (r.bind key id).get? other = some k := by
  rw [get?_bind]
  split
  · rename_i e
    rw [← e, h]
    rfl
  · exact h

theorem get?_reserve_of_some (h : r.get? other = some k) : (r.reserve key).2.get? other = some k := by
  cases hk : r.get? key with
  | some id => rwa [reserve_of_some hk]
  | none =>
    rw [get?_reserve_of_none hk, if_neg]
    · exact h
    · rintro rfl
      rw [hk] at h
      cases h

theorem get?_of_bind_none (h : (r.bind key id).get? other = none) : r.get? other = none := by
  cases hr : r.get? other with
  | none => rfl
  | some k => rw [get?_bind_of_some hr] at h; cases h

theorem get?_of_reserve_none (h : (r.reserve key).2.get? other = none) : r.get? other = none := by
  cases hr : r.get? other with
  | none => rfl
  | some k => rw [get?_reserve_of_some hr] at h; cases h

theorem get?_reserve_self (r : Registry) (key : Identity) : (r.reserve key).2.get? key = some (r.reserve key).1.1 := by
  cases hk : r.get? key with
  | some id => rw [reserve_of_some hk]; exact hk
  | none => rw [get?_reserve_of_none hk, if_pos rfl]; simp [reserve, hk]

/-! ## How many identities have an id -/

theorem size_bind_of_none (h : r.get? key = none) : (r.bind key id).size = r.size + 1 := by
  cases key with
  | type t =>
    have hnew : t.val ∉ r.types := by simpa [get?] using h
    simp only [bind, size, Std.TreeMap.size_insertIfNew, if_neg hnew]
    omega
  | alias_ s =>
    have hnew : s.val ∉ r.aliases := by simpa [get?] using h
    simp only [bind, size, Std.TreeMap.size_insertIfNew, if_neg hnew]
    omega

theorem size_reserve_of_none (h : r.get? key = none) : (r.reserve key).2.size = r.size + 1 := by
  simp only [reserve, h]
  exact size_bind_of_none h

/-! ## How many ids there are -/

theorem issued_bind : (r.bind key id).issued = r.issued := by cases key <;> rfl

theorem issued_reserve_of_none (h : r.get? key = none) : (r.reserve key).2.issued = r.issued + 1 := by
  simp [reserve, h]

end TypeBundle.Registry
