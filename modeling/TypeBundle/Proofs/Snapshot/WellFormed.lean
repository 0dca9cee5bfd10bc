import Mathlib.Data.List.Nodup
import TypeBundle.Proofs.Snapshot.Loading
import TypeBundle.Proofs.Snapshot.Mentions
/-!
# Which snapshots load

A snapshot is well-formed if no id is used twice, whatever an entry mentions has an entry in the table of its
kind, and there is a global symbol. These are the snapshots that load (`load_iff_wellFormed`).
-/

namespace TypeBundle

namespace Snapshot

/-- The snapshot has an entry for what is mentioned. -/
def Has (s : Snapshot) : Mention → Prop
  | .type id => id ∈ s.types.map (·.id)
  | .symbol id => id ∈ s.symbols.map (·.id)
  | .signature id => id ∈ s.signatures.map (·.id)

/-- No id is used twice, what is mentioned has an entry, and there is a global symbol. -/
structure WellFormed (s : Snapshot) : Prop where
  distinctTypes : (s.types.map (·.id)).Nodup
  distinctSymbols : (s.symbols.map (·.id)).Nodup
  distinctSignatures : (s.signatures.map (·.id)).Nodup
  types : ∀ e ∈ s.types, TypeWithin s.Has e.facts
  symbols : ∀ e ∈ s.symbols, SymbolWithin s.Has e.facts
  signatures : ∀ e ∈ s.signatures, SignatureWithin s.Has e.facts
  ambientModules : ∀ id ∈ s.ambientModules, s.Has (.symbol id)
  global : ∃ id, s.global? = some id ∧ s.Has (.symbol id)

/-! ## Mentions -/

section Mentions

variable {s : Snapshot}

/-- What is checked of the mentions, table by table. -/
theorem forall_mentions : (∀ m ∈ s.mentions, s.Has m.2) ↔
    (∀ e ∈ s.types, TypeWithin s.Has e.facts) ∧ (∀ e ∈ s.symbols, SymbolWithin s.Has e.facts) ∧
      (∀ e ∈ s.signatures, SignatureWithin s.Has e.facts) ∧ ∀ id ∈ s.ambientModules, s.Has (.symbol id) := by
  simp only [← forall_typeMentions_iff, ← forall_symbolMentions_iff, ← forall_signatureMentions_iff, mentions,
    List.mem_append, List.mem_flatMap, List.mem_map, or_imp, forall_and, forall_exists_index, and_imp, Prod.forall,
    Prod.mk.injEq]
  constructor
  · rintro ⟨⟨⟨htypes, hsymbols⟩, hsignatures⟩, hmodules⟩
    exact ⟨fun e he m hm => htypes _ _ e he m hm rfl rfl, fun e he m hm => hsymbols _ _ e he m hm rfl rfl,
      fun e he m hm => hsignatures _ _ e he m hm rfl rfl, fun id hid => hmodules _ _ id hid rfl rfl⟩
  · rintro ⟨htypes, hsymbols, hsignatures, hmodules⟩
    refine ⟨⟨⟨?_, ?_⟩, ?_⟩, ?_⟩
    · rintro _ _ e he m hm rfl rfl
      exact htypes e he m hm
    · rintro _ _ e he m hm rfl rfl
      exact hsymbols e he m hm
    · rintro _ _ e he m hm rfl rfl
      exact hsignatures e he m hm
    · rintro _ _ id hid rfl rfl
      exact hmodules id hid

end Mentions

/-! ## Indexes -/

section Index

variable {ι α : Type} {word : ι → UInt64}

theorem exists_go {es : List (Entry ι α)} {index : Index α} : (∃ index', indexOf.go word index es = .ok index') ↔
    (es.map fun e => word e.id).Nodup ∧ ∀ e ∈ es, index.contains (word e.id) = false := by
  induction es generalizing index with
  | nil => simp [indexOf.go]
  | cons e es ih =>
    unfold indexOf.go
    split
    · rename_i hrepeated
      simp [hrepeated]
    · rename_i hnew
      rw [ih]
      simp only [Bool.not_eq_true] at hnew
      simp only [List.map_cons, List.nodup_cons, List.mem_map, not_exists, not_and, List.mem_cons, forall_eq_or_imp,
        Std.TreeMap.contains_insert, Bool.or_eq_false_iff, hnew, true_and, beq_eq_false_iff_ne, ne_eq,
        Std.LawfulEqCmp.compare_eq_iff_eq]
      constructor
      · rintro ⟨hnodup, h⟩
        exact ⟨⟨fun x hx heq => (h x hx).1 heq.symm, hnodup⟩, fun x hx => (h x hx).2⟩
      · rintro ⟨⟨hdistinct, hnodup⟩, h⟩
        exact ⟨hnodup, fun x hx => ⟨fun heq => hdistinct x hx heq.symm, h x hx⟩⟩

/-- Entries can be indexed just if no id is used twice. -/
theorem exists_indexOf (hword : Function.Injective word) {es : List (Entry ι α)} :
    (∃ index, indexOf word es = .ok index) ↔ (es.map (·.id)).Nodup := by
  have hids : (es.map fun e => word e.id) = (es.map (·.id)).map word := by simp [List.map_map, Function.comp_def]
  rw [indexOf, exists_go, hids, List.nodup_map_iff hword]
  simp

end Index

/-! ## Loading -/

section Load

variable {s : Snapshot} {l : Loaded} {types : Index HostType} {symbols : Index HostSymbol}
variable {signatures : Index HostSignature}

/-- What is known by the indexes of a snapshot is what the snapshot has. -/
theorem known_iff_has (htypes : indexOf TypeId.val s.types = .ok types)
    (hsymbols : indexOf SymbolId.val s.symbols = .ok symbols)
    (hsignatures : indexOf SignatureId.val s.signatures = .ok signatures) (m : Mention) :
    known types symbols signatures m = true ↔ s.Has m := by
  cases m with
  | type id => exact contains_indexOf_iff TypeId.val_injective htypes id
  | symbol id => exact contains_indexOf_iff SymbolId.val_injective hsymbols id
  | signature id => exact contains_indexOf_iff SignatureId.val_injective hsignatures id

/-- A loaded snapshot knows what the snapshot has. -/
theorem knows_iff_has (h : s.load = .ok l) (m : Mention) : l.Knows m ↔ s.Has m :=
  have ⟨_, htypes, hsymbols, hsignatures, _⟩ := load_spec h
  known_iff_has htypes hsymbols hsignatures m

/-- Where nothing is mentioned that has no entry, the global symbol decides. -/
theorem load_of_mentions (htypes : indexOf TypeId.val s.types = .ok types)
    (hsymbols : indexOf SymbolId.val s.symbols = .ok symbols)
    (hsignatures : indexOf SignatureId.val s.signatures = .ok signatures) (hmentions : ∀ m ∈ s.mentions, s.Has m.2) :
    s.load = s.global?.elim (.error .missingGlobal) fun global =>
      if symbols.contains global.val then .ok ⟨s, types, symbols, signatures, global⟩
      else .error (.unknown .global (.symbol global)) := by
  simp only [load, htypes, hsymbols, hsignatures, Except.mapError, bind, Except.bind]
  generalize hfind : s.mentions.find? _ = found?
  obtain rfl : found? = none := by
    rw [← hfind, List.find?_eq_none]
    intro m hm
    have hknown := (known_iff_has htypes hsymbols hsignatures m.2).2 (hmentions m hm)
    simp [hknown]
  cases s.global? <;> rfl

/-- Once the tables can be indexed, a snapshot loads just if it has what it mentions and a global symbol. -/
theorem exists_load (htypes : indexOf TypeId.val s.types = .ok types)
    (hsymbols : indexOf SymbolId.val s.symbols = .ok symbols)
    (hsignatures : indexOf SignatureId.val s.signatures = .ok signatures) :
    (∃ l, s.load = .ok l) ↔ (∀ m ∈ s.mentions, s.Has m.2) ∧ ∃ id, s.global? = some id ∧ s.Has (.symbol id) := by
  constructor
  · rintro ⟨l, hl⟩
    obtain ⟨⟨-, -, -, -, hmentions⟩, hglobal, hknown⟩ := load_eq_ok hl
    exact ⟨fun m hm => (knows_iff_has hl m.2).1 (hmentions m hm), l.global, hglobal, (knows_iff_has hl _).1 hknown⟩
  · rintro ⟨hmentions, global, hglobal, hhas⟩
    have hcontains : symbols.contains global.val = true :=
      (known_iff_has htypes hsymbols hsignatures (.symbol global)).2 hhas
    rw [load_of_mentions htypes hsymbols hsignatures hmentions, hglobal, Option.elim_some]
    exact ⟨_, if_pos hcontains⟩

/-- A snapshot that has what it mentions and lacks only the global symbol fails with that. -/
theorem load_of_missingGlobal (htypes : (s.types.map (·.id)).Nodup) (hsymbols : (s.symbols.map (·.id)).Nodup)
    (hsignatures : (s.signatures.map (·.id)).Nodup) (hmentions : ∀ m ∈ s.mentions, s.Has m.2)
    (hglobal : s.global? = none) : s.load = .error .missingGlobal := by
  obtain ⟨types, htypes⟩ := (exists_indexOf TypeId.val_injective).2 htypes
  obtain ⟨symbols, hsymbols⟩ := (exists_indexOf SymbolId.val_injective).2 hsymbols
  obtain ⟨signatures, hsignatures⟩ := (exists_indexOf SignatureId.val_injective).2 hsignatures
  rw [load_of_mentions htypes hsymbols hsignatures hmentions, hglobal, Option.elim_none]

/-- The snapshots that load are the well-formed ones. -/
theorem load_iff_wellFormed : (∃ l, s.load = .ok l) ↔ s.WellFormed := by
  constructor
  · rintro ⟨l, hl⟩
    obtain ⟨-, htypes, hsymbols, hsignatures, -⟩ := load_spec hl
    obtain ⟨hmentions, hglobal⟩ := (exists_load htypes hsymbols hsignatures).1 ⟨l, hl⟩
    obtain ⟨htypeFacts, hsymbolFacts, hsignatureFacts, hmodules⟩ := forall_mentions.1 hmentions
    exact ⟨(exists_indexOf TypeId.val_injective).1 ⟨_, htypes⟩, (exists_indexOf SymbolId.val_injective).1 ⟨_, hsymbols⟩,
      (exists_indexOf SignatureId.val_injective).1 ⟨_, hsignatures⟩, htypeFacts, hsymbolFacts, hsignatureFacts, hmodules,
      hglobal⟩
  · intro h
    obtain ⟨types, htypes⟩ := (exists_indexOf TypeId.val_injective).2 h.distinctTypes
    obtain ⟨symbols, hsymbols⟩ := (exists_indexOf SymbolId.val_injective).2 h.distinctSymbols
    obtain ⟨signatures, hsignatures⟩ := (exists_indexOf SignatureId.val_injective).2 h.distinctSignatures
    refine (exists_load htypes hsymbols hsignatures).2 ⟨?_, h.global⟩
    exact forall_mentions.2 ⟨h.types, h.symbols, h.signatures, h.ambientModules⟩

end Load

end Snapshot

end TypeBundle
