import Mathlib.Data.Nat.Bitwise
import TypeBundle.Pass.Walk
/-!
# Flags and kinds

What the kind of a type says about its flags, for the kinds of objects and for type parameters.
-/

namespace TypeBundle

namespace Flags

variable {v : Vocabulary}

theorem toNat_single {bit : UInt32} (h : bit < 32) : (single bit : Flags v).bits.toNat = 2 ^ bit.toNat := by
  have hb : bit.toNat < 32 := by simpa using UInt32.lt_iff_toNat_lt.1 h
  simp only [single, UInt32.toNat_shiftLeft, Nat.shiftLeft_eq, UInt32.toNat_one, one_mul, Nat.mod_eq_of_lt hb]
  exact Nat.mod_eq_of_lt (Nat.pow_lt_pow_right (by omega) hb)

/-- A set has a flag if it has some flag of the set with that one. -/
theorem intersects_single (a : Flags v) {bit : UInt32} (hb : bit < 32) :
    a.intersects (single bit) = a.contains (single bit) := by
  rw [Bool.eq_iff_iff]
  simp only [intersects, contains, bne_iff_ne, ne_eq, beq_iff_eq, ← UInt32.toNat_inj, UInt32.toNat_and,
    toNat_single hb, Nat.and_two_pow, UInt32.toNat_zero]
  have := Nat.two_pow_pos bit.toNat
  cases ht : a.bits.toNat.testBit bit.toNat with
  | false =>
    simp only [Bool.toNat_false, Nat.zero_mul, not_true_eq_false, false_iff]
    exact this.ne
  | true => simp

theorem intersects_or (a b c : Flags v) : a.intersects (b ||| c) = (a.intersects b || a.intersects c) := by
  have hdistrib : a.bits &&& (b.bits ||| c.bits) = a.bits &&& b.bits ||| a.bits &&& c.bits := by
    rw [← UInt32.toNat_inj]
    simp only [UInt32.toNat_and, UInt32.toNat_or, Nat.and_or_distrib_left]
  rw [Bool.eq_iff_iff, Bool.or_eq_true]
  change (a.bits &&& (b.bits ||| c.bits) != 0) = true ↔ _
  simp only [hdistrib, intersects, bne_iff_ne, ne_eq, UInt32.or_eq_zero_iff, not_and_or]

end Flags

namespace Kind

/-- The table of flags decides no kind of object. -/
theorem object_of_ofFlags {flags : TypeFlags} {objectFlags : ObjectFlags} {kind : Kind}
    (h : ofFlags flags objectFlags = .ok kind) (hk : kind = .reference ∨ kind = .nominal ∨ kind = .anonymous) :
    flags.contains TypeFlags.object = true ∧ ofObject? objectFlags = some kind := by
  unfold ofFlags at h
  split at h
  · rename_i flag k hf
    cases h
    have := List.mem_of_find?_eq_some hf
    rcases hk with rfl | rfl | rfl <;> simp [ofFlag] at this
  · split at h
    · rename_i ho
      split at h
      · rename_i k hk'
        cases h
        exact ⟨ho, hk'⟩
      · cases h
    · cases h

theorem ofObject?_cases {flags : ObjectFlags} {kind : Kind} (h : ofObject? flags = some kind) :
    kind = .reference ∨ kind = .nominal ∨ kind = .anonymous := by
  unfold ofObject? at h
  split at h
  · cases h; simp
  · split at h
    · cases h; simp
    · split at h
      · cases h; simp
      · cases h

theorem ofObject?_eq_anonymous {flags : ObjectFlags} (h : ofObject? flags = some .anonymous) :
    flags.contains ObjectFlags.reference = false ∧
      flags.intersects (ObjectFlags.class_ ||| ObjectFlags.interface) = false ∧
      flags.contains ObjectFlags.anonymous = true := by
  unfold ofObject? at h
  split at h
  · cases h
  · split at h
    · cases h
    · split at h
      · simp_all
      · cases h

/-- An object type without other flags is of the kind that its object flags say. -/
theorem ofFlags_object {objectFlags : ObjectFlags} {kind : Kind} (h : ofObject? objectFlags = some kind) :
    ofFlags .object objectFlags = .ok kind := by
  have : ofFlag.find? (fun x => TypeFlags.object.intersects x.1) = none := by decide
  simp only [ofFlags, this, h]
  rfl

theorem ofFlags_typeParameter (objectFlags : ObjectFlags) :
    ofFlags .typeParameter objectFlags = .ok .typeParameter := by
  have : ofFlag.find? (fun x => TypeFlags.typeParameter.intersects x.1) = some (.typeParameter, .typeParameter) := by
    decide
  simp only [ofFlags, this]

/-- A type of the kind of type parameters carries their flag. -/
theorem typeParameter_of_ofFlags {flags : TypeFlags} {objectFlags : ObjectFlags}
    (h : ofFlags flags objectFlags = .ok .typeParameter) : flags.contains TypeFlags.typeParameter = true := by
  unfold ofFlags at h
  split at h
  · rename_i flag kind hf
    cases h
    have hflag : flag = .typeParameter := by
      have := List.mem_of_find?_eq_some hf
      simpa [ofFlag] using this
    have hi := List.find?_some hf
    rw [hflag] at hi
    exact (Flags.intersects_single flags (by decide)).symm.trans hi
  · split at h
    · split at h
      · rename_i kind hk
        cases h
        have := ofObject?_cases hk
        simp at this
      · cases h
    · cases h

end Kind

namespace Walk

theorem isObjectLiteral_of_anonymous {t : HostType} (h : t.kind = .ok .anonymous) : isObjectLiteral t = true := by
  obtain ⟨ho, hk⟩ := Kind.object_of_ofFlags h (by simp)
  obtain ⟨hr, -, ha⟩ := Kind.ofObject?_eq_anonymous hk
  simp [isObjectLiteral, ho, hr, ha]

end Walk

end TypeBundle
