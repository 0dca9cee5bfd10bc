import TypeBundle.Pass.Run
import TypeBundle.Proofs.Host.Parts
import TypeBundle.Samples
/-!
# A loaded snapshot answers what it mentions

A loaded snapshot says about a type, symbol or signature what its entry says, and nothing about others. It
has an entry for everything that an entry mentions, so a walk of it goes from spots that it has entries for
only to such spots (`known_of_leads`).
-/

namespace TypeBundle

theorem TypeId.val_injective : Function.Injective TypeId.val := fun ⟨_⟩ ⟨_⟩ h => congrArg TypeId.mk h

theorem SymbolId.val_injective : Function.Injective SymbolId.val := fun ⟨_⟩ ⟨_⟩ h => congrArg SymbolId.mk h

theorem SignatureId.val_injective : Function.Injective SignatureId.val := fun ⟨_⟩ ⟨_⟩ h => congrArg SignatureId.mk h

namespace Snapshot

/-! ## Indexes -/

section Index

variable {ι α : Type} {word : ι → UInt64}

theorem getElem?_of_go {es : List (Entry ι α)} {index index' : Index α} (h : indexOf.go word index es = .ok index')
    (w : UInt64) : (∃ a, index'[w]? = some a) ↔ (∃ a, index[w]? = some a) ∨ ∃ e ∈ es, word e.id = w := by
  induction es generalizing index with
  | nil =>
    cases h
    simp
  | cons e es ih =>
    simp only [indexOf.go] at h
    split at h
    · cases h
    · rw [ih h]
      simp only [Std.TreeMap.getElem?_insert, List.mem_cons, exists_eq_or_imp, Std.LawfulEqCmp.compare_eq_iff_eq]
      by_cases hw : word e.id = w <;> simp [hw]

/-- What is indexed are the entries. -/
theorem contains_indexOf {es : List (Entry ι α)} {index : Index α} (h : indexOf word es = .ok index) (w : UInt64) :
    index.contains w = true ↔ ∃ e ∈ es, word e.id = w := by
  have := getElem?_of_go h w
  simpa [← Option.isSome_iff_exists, Std.TreeMap.isSome_getElem?_eq_contains] using this

theorem facts_of_go {es : List (Entry ι α)} {index index' : Index α} (h : indexOf.go word index es = .ok index')
    {w : UInt64} {a : α} (ha : index'[w]? = some a) :
    index[w]? = some a ∨ ∃ e ∈ es, word e.id = w ∧ e.facts = a := by
  induction es generalizing index with
  | nil =>
    cases h
    exact .inl ha
  | cons e es ih =>
    simp only [indexOf.go] at h
    split at h
    · cases h
    · rcases ih h with h' | ⟨e', he', h'⟩
      · rw [Std.TreeMap.getElem?_insert] at h'
        split at h'
        · rename_i hw
          exact .inr ⟨e, List.mem_cons_self, by simpa using hw, by simpa using h'⟩
        · exact .inl h'
      · exact .inr ⟨e', List.mem_cons_of_mem _ he', h'⟩

/-- What is indexed are the ids of the entries. -/
theorem contains_indexOf_iff (hword : Function.Injective word) {es : List (Entry ι α)} {index : Index α}
    (h : indexOf word es = .ok index) (id : ι) : index.contains (word id) = true ↔ id ∈ es.map (·.id) := by
  rw [contains_indexOf h, List.mem_map]
  exact exists_congr fun e => and_congr_right fun _ => ⟨fun heq => hword heq, fun heq => congrArg word heq⟩

/-- What holds of every entry, and of the default where there is none, holds of all that is found. -/
theorem forall_of_indexOf [Inhabited α] (hword : Function.Injective word) {es : List (Entry ι α)} {index : Index α}
    (h : indexOf word es = .ok index) {P : ι → α → Prop} (hs : ∀ e ∈ es, P e.id e.facts) (id : ι)
    (hdefault : index.contains (word id) = false → P id default) : P id ((index[word id]?).getD default) := by
  cases hf : index[word id]? with
  | none =>
    refine hdefault ?_
    rw [← Std.TreeMap.isSome_getElem?_eq_contains, hf, Option.isSome_none]
  | some a =>
    rcases facts_of_go h hf with h' | ⟨e, he, hw, rfl⟩
    · simp at h'
    · obtain rfl := hword hw
      exact hs e he

end Index

/-! ## Mentions -/

/-- The parts of a type are mentioned by it. -/
theorem mem_typeMentions_of_parts {t : HostType} {c : TypeId} (hc : c ∈ t.parts) : .type c ∈ typeMentions t := by
  unfold HostType.parts at hc
  split at hc
  · simp [typeMentions, hc]
  · simp [typeMentions, hc]
  · simp_all [typeMentions]
  · split at hc
    · rename_i hparts
      simp only [HostType.accessParts?, Option.bind_eq_some_iff, Option.map_eq_some_iff, Prod.mk.injEq] at hparts
      obtain ⟨a, ha, b, hb, rfl, rfl⟩ := hparts
      simp only [List.mem_cons, Option.mem_toList] at hc
      rcases hc with rfl | rfl | hc
      · simp [typeMentions, ha]
      · simp [typeMentions, hb]
      · simp_all [typeMentions]
    · cases hc
  · simp [typeMentions, hc]
  · cases hc

/-- The members of a type that a pass reads are mentioned by it. -/
theorem mem_typeMentions_of_selected {settings : Settings} {t : HostType} {x : SymbolId}
    (hx : x ∈ Walk.selectedMembers settings t) : .symbol x ∈ typeMentions t := by
  unfold Walk.selectedMembers at hx
  split at hx
  · cases hd : t.declaredMembers? with
    | none =>
      rw [hd, Option.getD_none] at hx
      simp [typeMentions, hx]
    | some xs =>
      rw [hd, Option.getD_some] at hx
      simp [typeMentions, hd, hx]
  · simp [typeMentions, hx]

section Load

variable {s : Snapshot} {l : Loaded}

namespace Loaded

/-- The loaded snapshot has an entry for what is mentioned. -/
def Knows (l : Loaded) (m : Mention) : Prop := known l.types l.symbols l.signatures m = true

end Loaded

theorem mapError_bind_eq_ok {ε ε' α β : Type} {x : Except ε α} {f : ε → ε'} {g : α → Except ε' β} {b : β}
    (h : (x.mapError f >>= g) = .ok b) : ∃ a, x = .ok a ∧ g a = .ok b := by
  cases x with
  | error e => cases h
  | ok a => exact ⟨a, rfl, h⟩

/-- A check of the value, if there is one, holds of a value. -/
theorem exists_ok_of_any {ε α : Type} {x : Except ε α} {p : α → Bool} (h : x.toOption.any p = true) :
    ∃ a, x = .ok a ∧ p a = true := by
  cases x with
  | error e => cases h
  | ok a => exact ⟨a, rfl, h⟩

/-- What loading a snapshot has found: its tables under their ids, everything that it mentions, and its global symbol. -/
theorem load_eq_ok (h : s.load = .ok l) :
    (l.snapshot = s ∧ indexOf TypeId.val s.types = .ok l.types ∧ indexOf SymbolId.val s.symbols = .ok l.symbols ∧
      indexOf SignatureId.val s.signatures = .ok l.signatures ∧ ∀ m ∈ s.mentions, l.Knows m.2) ∧
    s.global? = some l.global ∧ l.Knows (.symbol l.global) := by
  unfold load at h
  obtain ⟨types, ht, h⟩ := mapError_bind_eq_ok h
  obtain ⟨symbols, hs, h⟩ := mapError_bind_eq_ok h
  obtain ⟨signatures, hg, h⟩ := mapError_bind_eq_ok h
  split at h
  · cases h
  · rename_i hf
    split at h
    · cases h
    · rename_i hglobal
      split at h
      · rename_i hknown
        cases h
        refine ⟨⟨rfl, ht, hs, hg, ?_⟩, hglobal, hknown⟩
        intro m hm
        simpa [Loaded.Knows] using List.find?_eq_none.1 hf m hm
      · cases h

/-- What loading a snapshot has made sure of. -/
theorem load_spec (h : s.load = .ok l) :
    l.snapshot = s ∧ indexOf TypeId.val s.types = .ok l.types ∧ indexOf SymbolId.val s.symbols = .ok l.symbols ∧
      indexOf SignatureId.val s.signatures = .ok l.signatures ∧ ∀ m ∈ s.mentions, l.Knows m.2 := (load_eq_ok h).1

theorem global_of_load (h : s.load = .ok l) : s.global? = some l.global := (load_eq_ok h).2.1

theorem knows_type (h : s.load = .ok l) (t : TypeId) : l.Knows (.type t) ↔ t ∈ s.types.map (·.id) :=
  contains_indexOf_iff TypeId.val_injective (load_spec h).2.1 t

theorem knows_symbol (h : s.load = .ok l) (x : SymbolId) : l.Knows (.symbol x) ↔ x ∈ s.symbols.map (·.id) :=
  contains_indexOf_iff SymbolId.val_injective (load_spec h).2.2.1 x

/-- What holds of every entry of a type, and of an unknown type, holds of every type of the host. -/
theorem forall_type (h : s.load = .ok l) {P : TypeId → HostType → Prop} (hdefault : ∀ t, P t default)
    (hs : ∀ e ∈ s.types, P e.id e.facts) (t : TypeId) : P t (l.host.type t) :=
  forall_of_indexOf TypeId.val_injective (load_spec h).2.1 hs t fun _ => hdefault t

/-- What holds of every entry of a symbol, and of an unknown symbol, holds of every symbol of the host. -/
theorem forall_symbol (h : s.load = .ok l) {P : SymbolId → HostSymbol → Prop} (hdefault : ∀ x, P x default)
    (hs : ∀ e ∈ s.symbols, P e.id e.facts) (x : SymbolId) : P x (l.host.symbol x) :=
  forall_of_indexOf SymbolId.val_injective (load_spec h).2.2.1 hs x fun _ => hdefault x

/-- What holds of every entry of a signature, and of an unknown signature, holds of every signature of the
host. -/
theorem forall_signature (h : s.load = .ok l) {P : SignatureId → HostSignature → Prop}
    (hdefault : ∀ g, ¬l.Knows (.signature g) → P g default) (hs : ∀ e ∈ s.signatures, P e.id e.facts)
    (g : SignatureId) : P g (l.host.signature g) := by
  refine forall_of_indexOf SignatureId.val_injective (load_spec h).2.2.2.1 hs g fun hunknown => hdefault g ?_
  rw [Loaded.Knows, known, hunknown]
  exact Bool.false_ne_true

/-- Everything that the host says about a type is something it has an entry for. -/
theorem knows_typeMentions (h : s.load = .ok l) (t : TypeId) : ∀ m ∈ typeMentions (l.host.type t), l.Knows m := by
  refine forall_type (P := fun _ a => ∀ m ∈ typeMentions a, l.Knows m) h (fun _ m hm => ?_) (fun e he m hm => ?_) t
  · simp [typeMentions, default] at hm
  · refine (load_spec h).2.2.2.2 (.type e.id, m) ?_
    simp only [mentions, List.mem_append, List.mem_flatMap]
    exact .inl (.inl (.inl ⟨e, he, List.mem_map.2 ⟨m, hm, rfl⟩⟩))

theorem knows_symbolMentions (h : s.load = .ok l) (x : SymbolId) :
    ∀ m ∈ symbolMentions (l.host.symbol x), l.Knows m := by
  refine forall_symbol (P := fun _ a => ∀ m ∈ symbolMentions a, l.Knows m) h (fun _ m hm => ?_) (fun e he m hm => ?_) x
  · simp [symbolMentions, default] at hm
  · refine (load_spec h).2.2.2.2 (.symbol e.facts.name, m) ?_
    simp only [mentions, List.mem_append, List.mem_flatMap]
    exact .inl (.inl (.inr ⟨e, he, List.mem_map.2 ⟨m, hm, rfl⟩⟩))

theorem knows_signatureMentions (h : s.load = .ok l) {g : SignatureId} (hg : l.Knows (.signature g)) :
    ∀ m ∈ signatureMentions (l.host.signature g), l.Knows m := by
  refine forall_signature (P := fun g a => l.Knows (.signature g) → ∀ m ∈ signatureMentions a, l.Knows m) h
    (fun _ hn hg => absurd hg hn) (fun e he _ m hm => ?_) g hg
  refine (load_spec h).2.2.2.2 (.signature e.id, m) ?_
  simp only [mentions, List.mem_append, List.mem_flatMap]
  exact .inl (.inr ⟨e, he, List.mem_map.2 ⟨m, hm, rfl⟩⟩)

/-! ## Spots with an entry -/

/-- The spot is at something that has an entry. -/
def Loaded.KnowsSpot (l : Loaded) : Spot → Prop
  | .written t | .bare t | .declared t | .shape t _ => l.Knows (.type t)
  | .alias_ x => l.Knows (.symbol x)

theorem knows_of_type (h : s.load = .ok l) {t c : TypeId}
    (hc : Mention.type c ∈ typeMentions (l.host.type t)) : l.Knows (.type c) := knows_typeMentions h t _ hc

theorem knows_constraints (h : s.load = .ok l) {ps : List TypeId} {c : TypeId} (hc : c ∈ l.host.constraints ps) :
    l.Knows (.type c) := by
  obtain ⟨p, -, hp⟩ := List.mem_filterMap.1 hc
  exact knows_of_type h (t := p) (by simp [typeMentions, hp])

theorem knows_type? (h : s.load = .ok l) {x : SymbolId} {c : TypeId} (hc : (l.host.symbol x).type? = some c) :
    l.Knows (.type c) := knows_symbolMentions h x _ (by simp [symbolMentions, hc])

theorem knows_parts (h : s.load = .ok l) {t c : TypeId} (hc : c ∈ (l.host.type t).parts) : l.Knows (.type c) :=
  knows_of_type h (mem_typeMentions_of_parts hc)

theorem knows_shapeParts (h : s.load = .ok l) {settings : Settings} {t c : TypeId} {owner? : Option SymbolId}
    (hc : c ∈ l.host.shapeParts settings t owner?) : l.Knows (.type c) := by
  simp only [Host.shapeParts, List.mem_append, List.mem_flatMap] at hc
  rcases hc with (hc | ⟨x, -, hc⟩) | ⟨g, hg, hc⟩
  · exact knows_of_type h (t := t) (by simp [typeMentions, hc])
  · unfold Host.memberParts at hc
    split at hc
    · cases hc
    · exact knows_type? h (Option.mem_toList.1 hc)
  · have hk : l.Knows (.signature g) :=
      knows_typeMentions h t _ (by simpa [typeMentions, Host.signatures] using hg)
    simp only [Host.signatureParts, List.mem_append, List.mem_filterMap, List.mem_singleton] at hc
    rcases hc with (hc | ⟨x, -, hc⟩) | rfl
    · exact knows_constraints h hc
    · exact knows_type? h hc
    · exact knows_signatureMentions h hk _ (by simp [signatureMentions])

/-- A walk of a loaded snapshot does not leave its entries. -/
theorem known_of_leads (h : s.load = .ok l) {settings : Settings} {a b : Spot} (hl : l.host.Leads settings a b)
    (ha : l.KnowsSpot a) : l.KnowsSpot b := by
  cases hl with
  | @alias_ t x hx => exact knows_typeMentions h t _ (by simp [typeMentions, hx])
  | @aliasArgument t x c _ hc => exact knows_of_type h (t := t) (by simp [typeMentions, hc])
  | bare _ => exact ha
  | aliasConstraint hc => exact knows_constraints h hc
  | @otherAlias x d hd _ => exact knows_symbolMentions h x _ (by simp [symbolMentions, hd])
  | @aliasLiteral x d hd _ _ => exact knows_symbolMentions h x _ (by simp [symbolMentions, hd])
  | @aliasBody x d hd _ _ => exact knows_symbolMentions h x _ (by simp [symbolMentions, hd])
  | part hc => exact knows_parts h hc
  | @target t u _ hu _ => exact knows_of_type h (t := t) (by simp [typeMentions, hu])
  | nominal _ => exact ha
  | literal _ => exact ha
  | constraint hc => exact knows_constraints h hc
  | declaredShape => exact ha
  | shapePart hc => exact knows_shapeParts h hc

end Load

end TypeBundle.Snapshot

namespace TypeBundle.Sample

/-- The loaded snapshot of a sample. -/
def loaded? (x : Sample) : Option Snapshot.Loaded := x.snapshot?.bind fun s => s.load.toOption

theorem load_of_loaded {x : Sample} {l : Snapshot.Loaded} (h : x.loaded? = some l) :
    ∃ s, x.snapshot? = some s ∧ s.load = .ok l := by
  obtain ⟨s, hs, hl⟩ := Option.bind_eq_some_iff.1 h
  refine ⟨s, hs, ?_⟩
  cases hload : s.load with
  | error e => rw [hload] at hl; cases hl
  | ok l' => rw [hload] at hl; cases hl; rfl

end TypeBundle.Sample
