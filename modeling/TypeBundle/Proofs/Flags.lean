import TypeBundle.Flags.Text
import TypeBundle.Proofs.Host.Kind
import TypeBundle.Proofs.Text
/-!
# Flags are read as they were written

Every set of 32 bits is read from its own text, whether its bits have names or not (`parse_text`): the parts of the text
are found again, each is read as the flags it was written for, and the set is the union of these.
-/

namespace TypeBundle.Flags

variable {v : Vocabulary}

/-! ## Bits -/

theorem ext_has {a b : Flags v} (h : ∀ i, a.has i = b.has i) : a = b := by
  obtain ⟨a⟩ := a
  obtain ⟨b⟩ := b
  exact congrArg mk (UInt32.toNat_inj.1 (Nat.eq_of_testBit_eq h))

theorem eq_empty {a : Flags v} (h : a.isEmpty = true) : a = empty := congrArg mk (eq_of_beq h)

theorem has_or (a b : Flags v) (i : Nat) : (a ||| b).has i = (a.has i || b.has i) := by
  change (a.bits ||| b.bits).toNat.testBit i = _
  rw [UInt32.toNat_or, Nat.testBit_or]
  rfl

theorem has_empty (i : Nat) : (empty : Flags v).has i = false := Nat.zero_testBit i

theorem has_single {bit : Nat} (h : bit < 32) (i : Nat) : (single bit.toUInt32 : Flags v).has i = decide (bit = i) := by
  have hword : bit.toUInt32.toNat = bit := Nat.mod_eq_of_lt (by omega)
  have hlt : bit.toUInt32 < 32 := UInt32.lt_iff_toNat_lt.2 (by simpa [hword] using h)
  rw [has, toNat_single hlt, hword, Nat.testBit_two_pow]

theorem has_of_le (a : Flags v) {i : Nat} (h : 32 ≤ i) : a.has i = false :=
  Nat.testBit_lt_two_pow (Nat.lt_of_lt_of_le a.bits.toNat_lt (Nat.pow_le_pow_right (by decide) h))

theorem has_foldl (a : Flags v) (fs : List (Flags v)) (i : Nat) :
    (fs.foldl (· ||| ·) a).has i = (a.has i || fs.any (·.has i)) := by
  induction fs generalizing a with
  | nil => simp
  | cons f fs ih => rw [List.foldl_cons, ih, has_or, List.any_cons, Bool.or_assoc]

theorem testBit_unnamed (a : Flags v) (i : Nat) : a.unnamed.testBit i = (decide (v.names.length ≤ i) && a.has i) := by
  rw [unnamed, Nat.testBit_shiftLeft]
  by_cases h : v.names.length ≤ i
  · rw [Nat.testBit_shiftRight, Nat.add_sub_cancel' h]
    rfl
  · simp [h]

/-! ## Parts -/

/-- A part of a text that stands for flags: it is found again between bars and blanks, and is read as the flags. -/
structure Names (part : List Char) (f : Flags v) : Prop where
  noBar : '|' ∉ part
  noBlank : ∀ c ∈ part, Text.isBlank c = false
  nonempty : part ≠ []
  read : ofPart part = .ok f

/-- The names of a vocabulary are those of its lowest bits. -/
theorem names_zipIdx {p : String × Nat} (hp : p ∈ v.names.zipIdx) :
    p.2 < 32 ∧ Names p.1.toList (single p.2.toUInt32 : Flags v) := by
  have hall : ∀ v : Vocabulary, ∀ p ∈ v.names.zipIdx, p.2 < 32 ∧ '|' ∉ p.1.toList ∧
      p.1.toList.all (fun c => !Text.isBlank c) = true ∧ p.1.toList ≠ [] ∧
        (ofPart p.1.toList : Except FlagFault (Flags v)) = .ok (single p.2.toUInt32) := by
    intro v
    cases v <;> decide +kernel
  obtain ⟨hbit, hbar, hblank, hne, hread⟩ := hall v p hp
  exact ⟨hbit, hbar, by simpa using hblank, hne, hread⟩

theorem hexDigit_spec : ∀ d < 16, Nat.digitChar d ≠ '|' ∧ Text.isBlank d.digitChar = false ∧ Nat.digitChar d ≠ '+' := by
  decide

/-- Bits without a name stand as one number. -/
theorem names_hex {n : Nat} (h : n < 2 ^ 32) :
    Names ('0' :: 'x' :: Text.digits 16 n) (⟨n.toUInt32⟩ : Flags v) := by
  have hdigits : ∀ c ∈ Text.digits 16 n, c ≠ '|' ∧ Text.isBlank c = false ∧ c ≠ '+' := fun c hc => by
    obtain ⟨d, hd, rfl⟩ := Text.mem_digits (by decide) hc
    exact hexDigit_spec d hd
  have hsigned : Text.readSigned? 16 (Text.digits 16 n) = some n := by
    have hread : Text.readNat? 16 (Text.digits 16 n) = some n := Text.readNat?_digits (by decide) (by decide) n
    unfold Text.readSigned?
    split
    · rename_i hplus
      exact absurd rfl (hdigits '+' (by simp [hplus])).2.2
    · exact hread
  constructor
  · simpa using fun hmem => (hdigits _ hmem).1 rfl
  · intro c hc
    simp only [List.mem_cons] at hc
    rcases hc with rfl | rfl | hc
    · rfl
    · rfl
    · exact (hdigits c hc).2.1
  · exact List.cons_ne_nil _ _
  · have hlt : n < 0x100000000 := h
    simp only [ofPart, hsigned, hlt, if_true]

/-- The names that a set has, with their bits. -/
def named (a : Flags v) : List (String × Nat) := v.names.zipIdx.filter fun p => a.has p.2

/-- The parts of the text of a set, with the flags that they stand for. -/
def spelled (a : Flags v) : List (List Char × Flags v) :=
  a.named.map (fun p => (p.1.toList, single p.2.toUInt32)) ++
    if a.unnamed = 0 then [] else [('0' :: 'x' :: Text.digits 16 a.unnamed, ⟨a.unnamed.toUInt32⟩)]

theorem unnamed_lt (a : Flags v) : a.unnamed < 2 ^ 32 := by
  refine Nat.lt_pow_two_of_testBit _ fun i hi => ?_
  rw [testBit_unnamed, has_of_le a hi, Bool.and_false]

theorem parts_eq (a : Flags v) : a.parts.map String.toList = a.spelled.map (·.1) := by
  have hnames : (v.names.zipIdx.filterMap fun p => if a.has p.2 then some p.1 else none) = a.named.map (·.1) := by
    rw [named, ← List.filterMap_eq_map, ← List.filterMap_eq_filter, List.filterMap_filterMap]
    refine congrArg (List.filterMap · _) (funext fun p => ?_)
    by_cases hp : a.has p.2 = true <;> simp [hp, Option.guard]
  have hparts : a.parts = a.named.map (·.1) ++
      if a.unnamed = 0 then [] else ["0x" ++ String.ofList (Text.digits 16 a.unnamed)] := by
    rw [← hnames]
    rfl
  rw [hparts, spelled]
  split <;> simp

theorem names_spelled (a : Flags v) : ∀ p ∈ a.spelled, Names p.1 p.2 := by
  intro p hp
  rcases List.mem_append.1 hp with hp | hp
  · obtain ⟨q, hq, rfl⟩ := List.mem_map.1 hp
    exact (names_zipIdx (List.mem_filter.1 hq).1).2
  · split at hp
    · cases hp
    · obtain rfl := List.mem_singleton.1 hp
      exact names_hex a.unnamed_lt

theorem any_named (a : Flags v) (i : Nat) : (a.named.any fun p => (single p.2.toUInt32 : Flags v).has i) =
    (decide (i < v.names.length) && a.has i) := by
  rw [Bool.eq_iff_iff, List.any_eq_true, Bool.and_eq_true, decide_eq_true_eq]
  constructor
  · rintro ⟨p, hp, hi⟩
    obtain ⟨hmem, hhas⟩ := List.mem_filter.1 hp
    rw [has_single (names_zipIdx (v := v) hmem).1, decide_eq_true_eq] at hi
    have hlt := List.snd_lt_of_mem_zipIdx hmem
    exact ⟨by omega, hi ▸ hhas⟩
  · rintro ⟨hi, hhas⟩
    have hmem : (v.names[i], i) ∈ v.names.zipIdx := by
      simp [List.mem_zipIdx_iff_getElem?, hi]
    refine ⟨_, List.mem_filter.2 ⟨hmem, hhas⟩, ?_⟩
    simp [has_single (names_zipIdx (v := v) hmem).1]

theorem has_ofNat {n : Nat} (h : n < 2 ^ 32) (i : Nat) : (⟨n.toUInt32⟩ : Flags v).has i = n.testBit i := by
  have hword : n.toUInt32.toNat = n := Nat.mod_eq_of_lt h
  rw [has, hword]

/-- A set is the union of what its parts stand for. -/
theorem union_spelled (a : Flags v) : (a.spelled.map (·.2)).foldl (· ||| ·) empty = a := by
  refine ext_has fun i => ?_
  have hunnamed : ((if a.unnamed = 0 then [] else
      [('0' :: 'x' :: Text.digits 16 a.unnamed, (⟨a.unnamed.toUInt32⟩ : Flags v))]).any fun p => p.2.has i) =
        (decide (v.names.length ≤ i) && a.has i) := by
    rw [← testBit_unnamed]
    split
    · rename_i hzero
      simp [hzero]
    · simp [has_ofNat a.unnamed_lt]
  rw [has_foldl, has_empty, Bool.false_or, List.any_map, spelled, List.any_append, List.any_map]
  simp only [Function.comp_def, any_named, hunnamed]
  by_cases hi : i < v.names.length
  · simp [hi, Nat.not_le.2 hi]
  · simp [hi, Nat.not_lt.1 hi]

/-! ## Texts -/

theorem foldlM_ofPart {ps : List (List Char × Flags v)} (h : ∀ p ∈ ps, Names p.1 p.2) (a : Flags v) :
    (ps.map (·.1)).foldlM (fun a part => return a ||| (← ofPart part)) a =
      (.ok ((ps.map (·.2)).foldl (· ||| ·) a) : Except FlagFault (Flags v)) := by
  induction ps generalizing a with
  | nil => rfl
  | cons p ps ih =>
    obtain ⟨hp, hps⟩ := List.forall_mem_cons.1 h
    simp only [List.map_cons, List.foldlM_cons, List.foldl_cons, hp.read]
    exact ih hps _

theorem toList_text (a : Flags v) : a.text.toList = [' ', '|', ' '].intercalate (a.spelled.map (·.1)) := by
  rw [text, String.toList_intercalate, parts_eq]
  rfl

/-- Every set is read from its own text. -/
theorem parse_text (a : Flags v) : parse a.text = .ok a := by
  have hnames : ∀ part ∈ a.spelled.map (·.1), ∃ f : Flags v, Names part f := fun part hpart => by
    obtain ⟨p, hp, rfl⟩ := List.mem_map.1 hpart
    exact ⟨p.2, a.names_spelled p hp⟩
  have htrim : Text.trim ([' ', '|', ' '].intercalate (a.spelled.map (·.1))) =
      [' ', '|', ' '].intercalate (a.spelled.map (·.1)) := by
    refine Text.trim_intercalate (fun part hpart => ?_) _
    obtain ⟨f, hf⟩ := hnames part hpart
    exact ⟨hf.nonempty, hf.noBlank⟩
  have hunion := a.union_spelled
  simp only [parse, toList_text, htrim]
  split
  · rename_i hempty
    cases hspelled : a.spelled with
    | nil =>
      rw [hspelled] at hunion
      exact congrArg Except.ok hunion
    | cons p ps =>
      rw [hspelled] at hempty
      exact absurd hempty (Text.intercalate_ne_nil (a.names_spelled p (by simp [hspelled])).nonempty _ _)
  · rename_i hne
    have hparts : a.spelled.map (·.1) ≠ [] := fun h => hne (by rw [h]; rfl)
    have hpieces : (Text.pieces '|' ([' ', '|', ' '].intercalate (a.spelled.map (·.1)))).map Text.trim =
        a.spelled.map (·.1) := by
      refine Text.trim_pieces_intercalate hparts (fun part hpart => ?_) (by decide) (List.forall_mem_nil _)
      obtain ⟨f, hf⟩ := hnames part hpart
      exact ⟨hf.noBar, hf.noBlank⟩
    have hfold := foldlM_ofPart a.names_spelled empty
    rw [← hpieces, List.foldlM_map, hunion] at hfold
    exact hfold

end TypeBundle.Flags
