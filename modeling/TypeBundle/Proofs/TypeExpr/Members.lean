import Mathlib.Data.List.Induction
import Mathlib.Data.String.Basic
import TypeBundle.TypeExpr.Basic
/-!
# Members in their places

Members are put in place one after the other (`Member.insert`). What is there in the end: the last member
of each name, in ascending order of the names (`lastOf_insertAll`).
-/

namespace TypeBundle.Member

variable {α : Type}

/-- The names of the members ascend. -/
def Ascending (ms : List (Member α)) : Prop := (ms.map (·.name)).Pairwise (· < ·)

/-- The members are the last of each name, in ascending order. -/
structure LastOf (ms done : List (Member α)) : Prop where
  ascending : Ascending done
  mem : ∀ m, m ∈ done ↔ ms.reverse.find? (·.name = m.name) = some m

theorem mem_insert {ns : List (Member α)} (hns : Ascending ns) (m x : Member α) :
    x ∈ m.insert ns ↔ x = m ∨ x ∈ ns ∧ x.name ≠ m.name := by
  induction ns with
  | nil => simp [insert]
  | cons n ns ih =>
    simp only [Ascending, List.map_cons, List.pairwise_cons, List.mem_map, forall_exists_index, and_imp,
      forall_apply_eq_imp_iff₂] at hns
    obtain ⟨hn, hns⟩ := hns
    unfold insert
    rcases lt_trichotomy m.name n.name with hlt | heq | hgt
    · have hx : x ∈ n :: ns → x.name ≠ m.name := by
        rintro hx
        rcases List.mem_cons.1 hx with rfl | hx
        · exact hlt.ne'
        · exact (hlt.trans (hn x hx)).ne'
      rw [if_pos hlt, List.mem_cons]
      exact or_congr_right ⟨fun h => ⟨h, hx h⟩, And.left⟩
    · have hx : x ∈ ns → x.name ≠ m.name := fun hx => (heq ▸ hn x hx : m.name < x.name).ne'
      rw [if_neg heq.not_lt, if_pos heq, List.mem_cons, List.mem_cons]
      refine or_congr_right ⟨fun h => ⟨.inr h, hx h⟩, ?_⟩
      rintro ⟨rfl | h, hne⟩
      · exact absurd heq.symm hne
      · exact h
    · rw [if_neg hgt.not_gt, if_neg hgt.ne', List.mem_cons, List.mem_cons, ih hns]
      constructor
      · rintro (rfl | rfl | ⟨h, hne⟩)
        · exact .inr ⟨.inl rfl, hgt.ne⟩
        · exact .inl rfl
        · exact .inr ⟨.inr h, hne⟩
      · rintro (rfl | ⟨rfl | h, hne⟩)
        · exact .inr (.inl rfl)
        · exact .inl rfl
        · exact .inr (.inr ⟨h, hne⟩)

theorem ascending_insert {ns : List (Member α)} (hns : Ascending ns) (m : Member α) : Ascending (m.insert ns) := by
  induction ns with
  | nil => simp [insert, Ascending]
  | cons n ns ih =>
    have h := hns
    simp only [Ascending, List.map_cons, List.pairwise_cons, List.mem_map, forall_exists_index, and_imp,
      forall_apply_eq_imp_iff₂] at h
    unfold insert
    split
    · rename_i hlt
      refine List.pairwise_cons.2 ⟨?_, hns⟩
      simp only [List.map_cons, List.mem_cons, List.mem_map]
      rintro name (rfl | ⟨x, hx, rfl⟩)
      · exact hlt
      · exact hlt.trans (h.1 x hx)
    · split
      · rename_i heq
        refine List.pairwise_cons.2 ⟨?_, h.2⟩
        simp only [List.mem_map]
        rintro name ⟨x, hx, rfl⟩
        exact heq ▸ h.1 x hx
      · rename_i hlt hne
        refine List.pairwise_cons.2 ⟨?_, ih h.2⟩
        simp only [List.mem_map]
        rintro name ⟨x, hx, rfl⟩
        rcases (mem_insert h.2 m x).1 hx with rfl | ⟨hx, -⟩
        · exact lt_of_le_of_ne (not_lt.1 hlt) (Ne.symm hne)
        · exact h.1 x hx

theorem LastOf.insert {ms done : List (Member α)} (h : LastOf ms done) (m : Member α) :
    LastOf (ms ++ [m]) (m.insert done) := by
  refine ⟨ascending_insert h.ascending m, fun x => ?_⟩
  rw [mem_insert h.ascending, h.mem, List.reverse_append, List.reverse_singleton, List.singleton_append, List.find?_cons]
  by_cases hx : m.name = x.name
  · simp only [hx, decide_true, Option.some.injEq, ne_eq, not_true_eq_false, and_false, or_false, eq_comm]
  · simp only [hx, decide_false, Ne.symm hx, ne_eq, not_false_eq_true, and_true]
    refine ⟨fun h => h.resolve_left ?_, .inr⟩
    rintro rfl
    exact hx rfl

/-- No name is lost, and none is new. -/
theorem LastOf.mem_names {ms done : List (Member α)} (h : LastOf ms done) (name : String) :
    name ∈ done.map (·.name) ↔ name ∈ ms.map (·.name) := by
  constructor
  · intro hname
    obtain ⟨m, hm, rfl⟩ := List.mem_map.1 hname
    exact List.mem_map_of_mem (List.mem_reverse.1 (List.mem_of_find?_eq_some ((h.mem m).1 hm)))
  · intro hname
    obtain ⟨m, hm, rfl⟩ := List.mem_map.1 hname
    obtain ⟨last, hlast⟩ : ∃ last, ms.reverse.find? (·.name = m.name) = some last :=
      Option.isSome_iff_exists.1 (List.find?_isSome.2 ⟨m, List.mem_reverse.2 hm, by simp⟩)
    have hsame : last.name = m.name := by simpa using List.find?_some hlast
    exact List.mem_map.2 ⟨last, (h.mem last).2 (hsame ▸ hlast), hsame⟩

/-- Members that are put in place one after the other. -/
theorem lastOf_insertAll (ms : List (Member α)) : LastOf ms (ms.foldl (fun done m => m.insert done) []) := by
  induction ms using List.reverseRecOn with
  | nil => exact ⟨.nil, by simp⟩
  | append_singleton ms m ih =>
    rw [List.foldl_append]
    exact ih.insert m

/-- A member that comes after all others is put last. -/
theorem insert_of_forall_lt {m : Member α} {ns : List (Member α)} (h : ∀ n ∈ ns, n.name < m.name) :
    m.insert ns = ns ++ [m] := by
  induction ns with
  | nil => rfl
  | cons n ns ih =>
    simp only [List.forall_mem_cons] at h
    rw [insert, if_neg h.1.not_gt, if_neg h.1.ne', ih h.2, List.cons_append]

theorem insertAll_append {done ms : List (Member α)} (h : Ascending (done ++ ms)) :
    ms.foldl (fun done m => m.insert done) done = done ++ ms := by
  induction ms generalizing done with
  | nil => simp
  | cons m ms ih =>
    have hlt : ∀ n ∈ done, n.name < m.name := by
      simp only [Ascending, List.map_append, List.pairwise_append] at h
      exact fun n hn => h.2.2 _ (List.mem_map_of_mem hn) _ (by simp)
    rw [List.foldl_cons, insert_of_forall_lt hlt, ih (by simpa using h), List.append_assoc, List.singleton_append]

/-- Members in ascending order are put in place as they stand. -/
theorem insertAll_of_ascending {ms : List (Member α)} (h : Ascending ms) :
    ms.foldl (fun done m => m.insert done) [] = ms := insertAll_append h

end TypeBundle.Member
