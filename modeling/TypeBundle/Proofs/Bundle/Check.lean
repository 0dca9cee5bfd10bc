import Mathlib.Data.List.Nodup
import TypeBundle.Proofs.TypeExpr.Children
/-!
# What a check of a bundle finds out

A check compares the ids of the records with one another, and then what the roots of the bundle name with
the ids. It finds nothing just if no two records have one id and every record that a root names at any depth
is there (`check_exact`). The constraints of a record's own type parameters are not among the roots, so a
bundle is sound just if it passes the check and these constraints name no missing record.
-/

namespace TypeBundle

/-! ## What is named -/

/-- The expression names the record, itself or in an expression inside it. -/
inductive TypeExpr.Names : TypeExpr → BundleId → Prop
  | self {e id} : e.target? = some id → Names e id
  | child {e c id} : c ∈ e.children → Names c id → Names e id

/-- The references of an expression are the records that it names. -/
theorem TypeExpr.mem_references {e : TypeExpr} {id : BundleId} : id ∈ e.references ↔ e.Names id := by
  induction e using childInduction with
  | h e ih =>
    have hchildren : id ∈ e.children.flatMap references ↔ ∃ c ∈ e.children, c.Names id := by
      rw [List.mem_flatMap]
      exact exists_congr fun c => and_congr_right (ih c)
    rw [references_eq, List.mem_append, hchildren, Option.mem_toList]
    constructor
    · rintro (hself | ⟨c, hc, hname⟩)
      · exact .self hself
      · exact .child hc hname
    · intro hname
      cases hname with
      | self hself => exact .inl hself
      | child hc hname => exact .inr ⟨_, hc, hname⟩

namespace Bundle

/-- The bundle names the record somewhere. -/
inductive Names (b : Bundle) (id : BundleId) : Prop
  | globalType : b.globalType.Names id → Names b id
  | ambientModule {m} : m ∈ b.ambientModules → m.type.Names id → Names b id
  | body {r} : r ∈ b.records → r.body.Names id → Names b id
  /-- In the constraint of a type parameter that a record declares. -/
  | constraint {r g e} : r ∈ b.records → g ∈ r.generics → g.constraint? = some e → e.Names id → Names b id

theorem mem_references {b : Bundle} {id : BundleId} : id ∈ b.references ↔ b.Names id := by
  simp only [references, expressions, roots, List.mem_flatMap, List.mem_append, List.mem_cons, List.mem_map,
    List.mem_filterMap, TypeExpr.mem_references]
  constructor
  · rintro ⟨e, (rfl | ⟨m, hm, rfl⟩ | ⟨r, hr, rfl⟩) | ⟨r, hr, g, hg, he⟩, hname⟩
    · exact .globalType hname
    · exact .ambientModule hm hname
    · exact .body hr hname
    · exact .constraint hr hg he hname
  · intro hname
    cases hname with
    | globalType hname => exact ⟨_, .inl (.inl rfl), hname⟩
    | ambientModule hm hname => exact ⟨_, .inl (.inr (.inl ⟨_, hm, rfl⟩)), hname⟩
    | body hr hname => exact ⟨_, .inl (.inr (.inr ⟨_, hr, rfl⟩)), hname⟩
    | constraint hr hg he hname => exact ⟨_, .inr ⟨_, hr, _, hg, he⟩, hname⟩

/-- No two records have one id, and every record that is named is there. -/
structure Sound (b : Bundle) : Prop where
  distinct : b.ids.Nodup
  closed : ∀ id, b.Names id → id ∈ b.ids

/-- What a root of the bundle names is there. -/
def RootsClosed (b : Bundle) : Prop := ∀ e ∈ b.roots, ∀ id, e.Names id → id ∈ b.ids

/-- What the constraints of the records' type parameters name is there. -/
def ConstraintsClosed (b : Bundle) : Prop :=
  ∀ r ∈ b.records, ∀ g ∈ r.generics, ∀ e, g.constraint? = some e → ∀ id, e.Names id → id ∈ b.ids

theorem rootsClosed_iff {b : Bundle} : b.RootsClosed ↔ ∀ id ∈ b.roots.flatMap (·.references), id ∈ b.ids := by
  simp only [RootsClosed, List.mem_flatMap, TypeExpr.mem_references]
  exact ⟨fun h id ⟨e, he, hname⟩ => h e he id hname, fun h e he id hname => h id ⟨e, he, hname⟩⟩

theorem sound_iff {b : Bundle} : b.Sound ↔ b.ids.Nodup ∧ b.RootsClosed ∧ b.ConstraintsClosed := by
  have hclosed : (∀ id, b.Names id → id ∈ b.ids) ↔ b.RootsClosed ∧ b.ConstraintsClosed := by
    simp only [← mem_references, references, expressions, List.flatMap_append, List.mem_append, or_imp, forall_and,
      rootsClosed_iff]
    refine and_congr_right fun _ => ?_
    simp only [ConstraintsClosed, List.mem_flatMap, List.mem_filterMap, TypeExpr.mem_references]
    constructor
    · intro h r hr g hg e he id hname
      exact h id ⟨e, ⟨r, hr, g, hg, he⟩, hname⟩
    · rintro h id ⟨e, ⟨r, hr, g, hg, he⟩, hname⟩
      exact h r hr g hg e he id hname
  rw [← hclosed]
  exact ⟨fun h => ⟨h.distinct, h.closed⟩, fun h => ⟨h.1, h.2⟩⟩

/-! ## Repetitions -/

section Repeated

variable {α : Type} {as : List α} {a b : α}

/-- The element is the first of the list that has occurred before. -/
def FirstRepeated (as : List α) (a : α) : Prop :=
  ∃ before after, as = before ++ a :: after ∧ a ∈ before ∧ before.Nodup

theorem FirstRepeated.not_nodup (h : FirstRepeated as a) : ¬as.Nodup := by
  obtain ⟨before, after, rfl, hmem, -⟩ := h
  intro hnodup
  exact List.disjoint_of_nodup_append hnodup hmem List.mem_cons_self

/-- An element that has occurred before stands behind the first one, or is it. -/
theorem FirstRepeated.le {before after before' after' : List α} (h : before ++ a :: after = before' ++ b :: after')
    (hmem : a ∈ before) (hnodup : before'.Nodup) : before'.length ≤ before.length := by
  rcases List.append_eq_append_iff.1 h with ⟨rest, rfl, hrest⟩ | ⟨rest, rfl, -⟩
  · cases rest with
    | nil => simp
    | cons c rest =>
      -- otherwise the element would be twice in the list without repetitions
      obtain rfl : a = c := (List.cons.inj hrest).1
      exact absurd List.mem_cons_self (List.disjoint_of_nodup_append hnodup hmem)
  · simp

theorem FirstRepeated.unique (ha : FirstRepeated as a) (hb : FirstRepeated as b) : a = b := by
  obtain ⟨before, after, rfl, hmem, hnodup⟩ := ha
  obtain ⟨before', after', h, hmem', hnodup'⟩ := hb
  have hlength := Nat.le_antisymm (FirstRepeated.le h.symm hmem' hnodup) (FirstRepeated.le h hmem hnodup')
  exact (List.cons.inj (List.append_inj_right h hlength)).1

variable [DecidableEq α]

theorem go_eq_none (seen : List α) (hseen : seen.reverse.Nodup) (h : firstRepeated?.go seen as = none) :
    (seen.reverse ++ as).Nodup := by
  induction as generalizing seen with
  | nil => rwa [List.append_nil]
  | cons b bs ih =>
    unfold firstRepeated?.go at h
    split at h
    · cases h
    · rename_i hb
      have hnodup := ih (b :: seen) (List.nodup_reverse.2 (List.nodup_cons.2 ⟨hb, List.nodup_reverse.1 hseen⟩)) h
      rwa [List.reverse_cons, List.append_assoc, List.singleton_append] at hnodup

theorem go_eq_some (seen : List α) (hseen : seen.reverse.Nodup) (h : firstRepeated?.go seen as = some a) :
    FirstRepeated (seen.reverse ++ as) a := by
  induction as generalizing seen with
  | nil => cases h
  | cons b bs ih =>
    unfold firstRepeated?.go at h
    split at h
    · rename_i hb
      cases h
      exact ⟨seen.reverse, bs, rfl, List.mem_reverse.2 hb, hseen⟩
    · rename_i hb
      have hfirst := ih (b :: seen) (List.nodup_reverse.2 (List.nodup_cons.2 ⟨hb, List.nodup_reverse.1 hseen⟩)) h
      rwa [List.reverse_cons, List.append_assoc, List.singleton_append] at hfirst

theorem nodup_of_firstRepeated? (h : firstRepeated? as = none) : as.Nodup := by
  cases as with
  | nil => exact .nil
  | cons b bs => exact go_eq_none [b] (List.nodup_singleton b) h

theorem firstRepeated?_eq_some : firstRepeated? as = some a ↔ FirstRepeated as a := by
  have hsome : ∀ {b}, firstRepeated? as = some b → FirstRepeated as b := by
    intro b hb
    cases as with
    | nil => cases hb
    | cons c cs => exact go_eq_some [c] (List.nodup_singleton c) hb
  refine ⟨hsome, fun ha => ?_⟩
  cases h : firstRepeated? as with
  | none => exact absurd (nodup_of_firstRepeated? h) ha.not_nodup
  | some b => rw [(hsome h).unique ha]

theorem firstRepeated?_eq_none : firstRepeated? as = none ↔ as.Nodup := by
  refine ⟨nodup_of_firstRepeated?, fun hnodup => ?_⟩
  cases h : firstRepeated? as with
  | none => rfl
  | some b => exact absurd hnodup (firstRepeated?_eq_some.1 h).not_nodup

end Repeated

/-! ## The check -/

/-- The record is the first, in the order of the roots and of what they name, that is not there. -/
def FirstMissing (b : Bundle) (id : BundleId) : Prop :=
  ∃ before after, b.roots.flatMap (·.references) = before ++ id :: after ∧ id ∉ b.ids ∧ ∀ x ∈ before, x ∈ b.ids

/-- What a check answers: nothing, the first repeated id, or else the first missing record. -/
theorem check_cases (b : Bundle) :
    (b.check = .ok () ∧ b.ids.Nodup ∧ b.RootsClosed) ∨
      (∃ id, b.check = .error (.duplicateRecord id) ∧ FirstRepeated b.ids id) ∨
        ∃ id, b.check = .error (.danglingReference id) ∧ b.ids.Nodup ∧ b.FirstMissing id := by
  unfold check
  cases hrepeated : firstRepeated? b.ids with
  | some id => exact .inr (.inl ⟨id, rfl, firstRepeated?_eq_some.1 hrepeated⟩)
  | none =>
    have hnodup := firstRepeated?_eq_none.1 hrepeated
    cases hmissing : (b.roots.flatMap (·.references)).find? (· ∉ b.ids) with
    | some id =>
      obtain ⟨hid, before, after, heq, hbefore⟩ := List.find?_eq_some_iff_append.1 hmissing
      refine .inr (.inr ⟨id, rfl, hnodup, before, after, heq, by simpa using hid, ?_⟩)
      intro x hx
      simpa using hbefore x hx
    | none =>
      refine .inl ⟨rfl, hnodup, rootsClosed_iff.2 fun id hid => ?_⟩
      simpa using List.find?_eq_none.1 hmissing id hid

theorem FirstMissing.not_rootsClosed {b : Bundle} {id : BundleId} (h : b.FirstMissing id) : ¬b.RootsClosed := by
  obtain ⟨before, after, heq, hid, -⟩ := h
  intro hclosed
  exact hid (rootsClosed_iff.1 hclosed id (heq ▸ List.mem_append_right _ List.mem_cons_self))

theorem FirstMissing.names {b : Bundle} {id : BundleId} (h : b.FirstMissing id) : b.Names id := by
  obtain ⟨before, after, heq, -⟩ := h
  have hmem : id ∈ b.roots.flatMap (·.references) := heq ▸ List.mem_append_right _ List.mem_cons_self
  rw [← mem_references, references, expressions, List.flatMap_append]
  exact List.mem_append_left _ hmem

/-- A check finds nothing just if the ids are distinct and what the roots name is there. -/
theorem check_eq_ok {b : Bundle} : b.check = .ok () ↔ b.ids.Nodup ∧ b.RootsClosed := by
  refine ⟨fun h => ?_, fun ⟨hnodup, hclosed⟩ => ?_⟩
  · rcases b.check_cases with ⟨-, hsound⟩ | ⟨id, herror, -⟩ | ⟨id, herror, -⟩
    · exact hsound
    · rw [herror] at h
      cases h
    · rw [herror] at h
      cases h
  · rcases b.check_cases with ⟨hok, -⟩ | ⟨id, -, hrepeated⟩ | ⟨id, -, -, hmissing⟩
    · exact hok
    · exact absurd hnodup hrepeated.not_nodup
    · exact absurd hclosed hmissing.not_rootsClosed

theorem check_eq_duplicateRecord {b : Bundle} {id : BundleId} :
    b.check = .error (.duplicateRecord id) ↔ FirstRepeated b.ids id := by
  refine ⟨fun h => ?_, fun hrepeated => ?_⟩
  · rcases b.check_cases with ⟨hok, -⟩ | ⟨other, herror, hrepeated⟩ | ⟨other, herror, -⟩
    · rw [h] at hok
      cases hok
    · rw [h] at herror
      cases herror
      exact hrepeated
    · rw [h] at herror
      cases herror
  · simp only [check, firstRepeated?_eq_some.2 hrepeated]

theorem check_eq_danglingReference {b : Bundle} {id : BundleId} :
    b.check = .error (.danglingReference id) ↔ b.ids.Nodup ∧ b.FirstMissing id := by
  refine ⟨fun h => ?_, ?_⟩
  · rcases b.check_cases with ⟨hok, -⟩ | ⟨other, herror, -⟩ | ⟨other, herror, hmissing⟩
    · rw [h] at hok
      cases hok
    · rw [h] at herror
      cases herror
    · rw [h] at herror
      cases herror
      exact hmissing
  · rintro ⟨hnodup, before, after, heq, hid, hbefore⟩
    have hfind : (b.roots.flatMap (·.references)).find? (· ∉ b.ids) = some id :=
      List.find?_eq_some_iff_append.2 ⟨by simpa using hid, before, after, heq, fun x hx => by simpa using hbefore x hx⟩
    simp only [check, firstRepeated?_eq_none.2 hnodup, hfind]

/-- A check finds nothing just if the ids are distinct and what the roots name is there, else the first repeated
id if there is one, else the first missing record. What it does not look at are the constraints of the records'
type parameters: where these name no missing record, it decides whether the bundle is sound. -/
theorem check_exact (b : Bundle) :
    (b.check = .ok () ↔ b.ids.Nodup ∧ b.RootsClosed) ∧
      (∀ id, b.check = .error (.duplicateRecord id) ↔ FirstRepeated b.ids id) ∧
      (∀ id, b.check = .error (.danglingReference id) ↔ b.ids.Nodup ∧ b.FirstMissing id) ∧
      (∀ id, b.FirstMissing id → b.Names id ∧ id ∉ b.ids) ∧
      (b.Sound ↔ b.check = .ok () ∧ b.ConstraintsClosed) := by
  refine ⟨check_eq_ok, fun id => check_eq_duplicateRecord, fun id => check_eq_danglingReference, ?_, ?_⟩
  · intro id hmissing
    have hnames := hmissing.names
    obtain ⟨-, -, -, hid, -⟩ := hmissing
    exact ⟨hnames, hid⟩
  · rw [sound_iff, check_eq_ok, and_assoc]

/-- An alias without a name, whose type parameter `#1` is constrained by the record `#7`, which is not there. -/
def looseConstraint : Bundle :=
  let parameter : Generic TypeExpr := ⟨⟨1⟩, some (.record ⟨7⟩)⟩
  ⟨.any, [], [{ Record.anonymous ⟨0⟩ .any with isAlias := true, aliasTypeParameters? := some [parameter] }]⟩

/-- A bundle can pass the check and name a record that is not there. -/
theorem check_overlooks_constraint : looseConstraint.check = .ok () ∧ ¬looseConstraint.Sound := by
  refine ⟨rfl, fun hsound => ?_⟩
  have hnamed : looseConstraint.Names ⟨7⟩ := .constraint List.mem_cons_self List.mem_cons_self rfl (.self rfl)
  exact absurd (hsound.closed ⟨7⟩ hnamed) (by decide)

end Bundle

end TypeBundle
