import Mathlib.Data.Set.Function
import TypeBundle.Proofs.Pass.Limit
/-!
# Ids of a host are only told apart

Two snapshots may record the same host under different ids, in another order, and with other entries besides
that no root leads to. Passes over them give the same bundle, or fail for the same kind of reason
(`bundle_opaque`).
-/

namespace TypeBundle

open Snapshot

/-! ## The same host twice -/

/-- What the global symbol and the ambient modules lead to, from mention to mention. -/
inductive Snapshot.Loaded.Reachable (l : Loaded) : Mention → Prop
  | global : Reachable l (.symbol l.global)
  | ambientModule {s} : s ∈ l.snapshot.ambientModules → Reachable l (.symbol s)
  | ofType {t m} : Reachable l (.type t) → m ∈ typeMentions (l.host.type t) → Reachable l m
  | ofSymbol {s m} : Reachable l (.symbol s) → m ∈ symbolMentions (l.host.symbol s) → Reachable l m
  | ofSignature {g m} : Reachable l (.signature g) → m ∈ signatureMentions (l.host.signature g) → Reachable l m

namespace Renaming

/-- Everything that the roots of a loaded snapshot lead to stands in the other snapshot under other ids, and
so do the roots. Where it stands there, and what else there is, does not matter. -/
structure Relates (f : Renaming) (l : Loaded) (s' : Snapshot) : Prop where
  injOn_types : Set.InjOn f.type {t | l.Reachable (.type t)}
  injOn_symbols : Set.InjOn f.symbol {x | l.Reachable (.symbol x)}
  global : s'.global? = some (f.symbol l.global)
  ambientModules : s'.ambientModules = l.snapshot.ambientModules.map f.symbol
  types : ∀ e ∈ l.snapshot.types, l.Reachable (.type e.id) → ⟨f.type e.id, e.facts.rename f⟩ ∈ s'.types
  symbols : ∀ e ∈ l.snapshot.symbols, l.Reachable (.symbol e.id) → ⟨f.symbol e.id, e.facts.rename f⟩ ∈ s'.symbols
  signatures : ∀ e ∈ l.snapshot.signatures, l.Reachable (.signature e.id) →
    ⟨f.signature e.id, e.facts.rename f⟩ ∈ s'.signatures

/-- The progress is the same under other ids, as far as something is known. -/
structure Corresponds (f : Renaming) (Known : Mention → Prop) (p p' : Progress) : Prop where
  get? : ∀ key : Identity, Known key.mention → p'.registry.get? (f.identity key) = p.registry.get? key
  issued : p'.registry.issued = p.registry.issued
  table : p'.table = p.table

end Renaming

namespace Snapshot

variable {s s' : Snapshot} {l l' : Loaded}

/-! ## Entries and the host -/

theorem host_type_of_mem (h : s.load = .ok l) {e : TypeEntry} (he : e ∈ s.types) : l.host.type e.id = e.facts := by
  have hs : s.WellFormed := load_iff_wellFormed.1 ⟨l, h⟩
  have hindex := getElem?_of_indexOf TypeId.val_injective hs.distinctTypes (load_spec h).2.1 he
  simp [Loaded.host, hindex]

theorem host_symbol_of_mem (h : s.load = .ok l) {e : SymbolEntry} (he : e ∈ s.symbols) :
    l.host.symbol e.id = e.facts := by
  have hs : s.WellFormed := load_iff_wellFormed.1 ⟨l, h⟩
  have hindex := getElem?_of_indexOf SymbolId.val_injective hs.distinctSymbols (load_spec h).2.2.1 he
  simp [Loaded.host, hindex]

theorem host_signature_of_mem (h : s.load = .ok l) {e : SignatureEntry} (he : e ∈ s.signatures) :
    l.host.signature e.id = e.facts := by
  have hs : s.WellFormed := load_iff_wellFormed.1 ⟨l, h⟩
  have hindex := getElem?_of_indexOf SignatureId.val_injective hs.distinctSignatures (load_spec h).2.2.2.1 he
  simp [Loaded.host, hindex]

theorem Loaded.Reachable.knows (h : s.load = .ok l) {m : Mention} (hm : l.Reachable m) : l.Knows m := by
  induction hm with
  | global => exact knows_global h
  | ambientModule hx => exact knows_ambientModule h hx
  | ofType _ hm _ => exact knows_typeMentions h _ _ hm
  | ofSymbol _ hm _ => exact knows_symbolMentions h _ _ hm
  | ofSignature _ hm ih => exact knows_signatureMentions h ih _ hm

theorem Loaded.Reachable.has (h : s.load = .ok l) {m : Mention} (hm : l.Reachable m) : s.Has m :=
  (knows_iff_has h m).1 (hm.knows h)

end Snapshot

namespace Renaming

variable {f : Renaming} {s s' : Snapshot} {l l' : Loaded}

theorem Relates.carries (hf : f.Relates l s') (h : s.load = .ok l) (h' : s'.load = .ok l') :
    f.Carries l.Reachable l.host l'.host := by
  constructor
  case type =>
    intro t ht
    obtain ⟨e, he, rfl⟩ := List.mem_map.1 (ht.has h)
    rw [host_type_of_mem h he]
    obtain ⟨rfl, -⟩ := load_spec h
    exact host_type_of_mem h' (hf.types e he ht)
  case symbol =>
    intro x hx
    obtain ⟨e, he, rfl⟩ := List.mem_map.1 (hx.has h)
    rw [host_symbol_of_mem h he]
    obtain ⟨rfl, -⟩ := load_spec h
    exact host_symbol_of_mem h' (hf.symbols e he hx)
  case signature =>
    intro g hg
    obtain ⟨e, he, rfl⟩ := List.mem_map.1 (hg.has h)
    rw [host_signature_of_mem h he]
    obtain ⟨rfl, -⟩ := load_spec h
    exact host_signature_of_mem h' (hf.signatures e he hg)
  case ofType => exact fun _ ht _ hm => .ofType ht hm
  case ofSymbol => exact fun _ hx _ hm => .ofSymbol hx hm
  case ofSignature => exact fun _ hg _ hm => .ofSignature hg hm
  case types => exact fun t u ht hu heq => hf.injOn_types ht hu heq
  case symbols => exact fun x y hx hy heq => hf.injOn_symbols hx hy heq

variable {Known : Mention → Prop} {host host' : Host}

theorem corresponds_start : f.Corresponds Known .start .start where
  get? key _ := by cases key <;> simp [identity, Progress.start, Registry.empty, Registry.get?]
  issued := rfl
  table := rfl

theorem Carries.tracks (hf : f.Carries Known host host') : Walk.Tracks f Known (f.Corresponds Known) := by
  constructor <;> intro p p' hp
  case get? => exact hp.get?
  case next => rw [Registry.next, Registry.next, hp.issued]
  case reserve =>
    intro key hkey hk
    have hk' := (hp.get? key hkey).trans hk
    refine ⟨fun other hother => ?_, ?_, hp.table⟩
    · simp only [Registry.get?_reserve_of_none hk, Registry.get?_reserve_of_none hk', hf.identity_eq_iff hkey hother,
        hp.get? other hother, Registry.next, hp.issued]
    · simp only [Registry.issued_reserve_of_none hk, Registry.issued_reserve_of_none hk', hp.issued]
  case begin_ => exact fun _ => ⟨hp.get?, hp.issued, by simp only [hp.table]⟩
  case close => exact fun _ => ⟨hp.get?, hp.issued, by simp only [Progress.close, hp.table]⟩
  case share =>
    intro key hkey hk id
    refine ⟨fun other hother => ?_, ?_, hp.table⟩
    · simp only [Progress.share, Registry.get?_bind, hf.identity_eq_iff hkey hother, hp.get? other hother, hp.get? key hkey]
    · simp only [Progress.share, Registry.issued_bind, hp.issued]

end Renaming

/-! ## The same entries elsewhere -/

namespace Snapshot

/-- The snapshot under other ids. -/
def rename (f : Renaming) (s : Snapshot) : Snapshot where
  types := s.types.map fun e => ⟨f.type e.id, e.facts.rename f⟩
  symbols := s.symbols.map fun e => ⟨f.symbol e.id, e.facts.rename f⟩
  signatures := s.signatures.map fun e => ⟨f.signature e.id, e.facts.rename f⟩
  global? := s.global?.map f.symbol
  ambientModules := s.ambientModules.map f.symbol

variable {s s' : Snapshot} {l : Loaded} {f : Renaming}

/-- Entries under other ids are related to those before, in any order and among any others. -/
theorem relates_of_subset (h : s.load = .ok l) (htypes : Function.Injective f.type)
    (hsymbols : Function.Injective f.symbol) (hglobal : s'.global? = (s.rename f).global?)
    (hmodules : s'.ambientModules = (s.rename f).ambientModules) (hsubtypes : (s.rename f).types ⊆ s'.types)
    (hsubsymbols : (s.rename f).symbols ⊆ s'.symbols) (hsubsignatures : (s.rename f).signatures ⊆ s'.signatures) :
    f.Relates l s' := by
  have hroot := global_of_load h
  obtain ⟨rfl, -⟩ := load_spec h
  exact {
    injOn_types := htypes.injOn
    injOn_symbols := hsymbols.injOn
    global := by rw [hglobal, rename, hroot, Option.map_some]
    ambientModules := hmodules
    types := fun e he _ => hsubtypes (List.mem_map.2 ⟨e, he, rfl⟩)
    symbols := fun e he _ => hsubsymbols (List.mem_map.2 ⟨e, he, rfl⟩)
    signatures := fun e he _ => hsubsignatures (List.mem_map.2 ⟨e, he, rfl⟩) }

end Snapshot

/-! ## Passes -/

/-- Walks in strict step give the same answer, up to what a failure says. -/
theorem Walk.Mirrors.answer_eq {α : Type} {R : Progress → Progress → Prop} {w w' : Walk α}
    (h : Walk.Mirrors False R w w') (hstart : R .start .start) :
    (Walk.answer w').mapError Stop.variant? = (Walk.answer w).mapError Stop.variant? := by
  have h := h _ _ hstart
  simp only [Walk.answer, Walk.runFrom, EStateM.run]
  generalize w .start = r at h
  generalize w' .start = r' at h
  cases h with
  | ok _ => rfl
  | error he => exact congrArg Except.error he
  | spared hlax => exact hlax.elim

namespace Snapshot

variable {s s' : Snapshot} {l l' : Loaded}

/-- Passes over two records of one host give the same bundle, fail for the same kind of reason, or neither
comes to an end. -/
theorem bundle_opaque (h : s.load = .ok l) (h' : s'.load = .ok l') {f : Renaming} (hf : f.Relates l s')
    (settings : Settings) :
    (l'.bundle settings).mapError Stop.variant? = (l.bundle settings).mapError Stop.variant? := by
  have hcarries := hf.carries h h'
  have hglobal : l'.global = f.symbol l.global := Option.some.inj ((global_of_load h').symm.trans hf.global)
  have hmodules : l'.snapshot.ambientModules = l.snapshot.ambientModules.map f.symbol := by
    rw [(load_spec h').1, hf.ambientModules]
  have hbundle : ∀ depth, Walk.Mirrors False (f.Corresponds l.Reachable)
      (Walk.bundle l.host settings depth l.global l.snapshot.ambientModules)
      (Walk.bundle l'.host settings depth l'.global l'.snapshot.ambientModules) := by
    intro depth
    rw [hglobal, hmodules]
    exact Walk.bundle_mirrors hcarries (Walk.resolve_mirrors hcarries hcarries.tracks depth) (fun _ _ hp => hp.table)
      .global fun _ hx => .ambientModule hx
  -- the depths of the snapshots differ, but any greater one will do
  have hanswer := (hbundle (max l.depth l'.depth)).answer_eq Renaming.corresponds_start
  rwa [answer_of_depth_le h settings (le_max_left _ _), answer_of_depth_le h' settings (le_max_right _ _)] at hanswer

/-- The snapshot under other ids, with its tables the other way round and one more type. -/
def shuffled (f : Renaming) (extra : TypeEntry) (s : Snapshot) : Snapshot where
  types := extra :: (s.rename f).types.reverse
  symbols := (s.rename f).symbols.reverse
  signatures := (s.rename f).signatures.reverse
  global? := (s.rename f).global?
  ambientModules := (s.rename f).ambientModules

/-- Ids that are greater by one. -/
def successors : Renaming := ⟨fun t => ⟨t.val + 1⟩, fun x => ⟨x.val + 1⟩, fun g => ⟨g.val + 1⟩⟩

theorem relates_shuffled (h : s.load = .ok l) (extra : TypeEntry) :
    successors.Relates l (s.shuffled successors extra) := by
  apply relates_of_subset h
  case htypes =>
    intro t u heq
    exact TypeId.val_injective ((UInt64.add_left_inj 1).1 (congrArg TypeId.val heq))
  case hsymbols =>
    intro x y heq
    exact SymbolId.val_injective ((UInt64.add_left_inj 1).1 (congrArg SymbolId.val heq))
  case hglobal => rfl
  case hmodules => rfl
  case hsubtypes => exact fun e he => List.mem_cons_of_mem _ (List.mem_reverse.2 he)
  case hsubsymbols => exact fun e he => List.mem_reverse.2 he
  case hsubsignatures => exact fun e he => List.mem_reverse.2 he

/-- Namespaces, classes and ambient modules that mention each other, recorded in two ways. -/
theorem bundle_opaque_nodeLike : ∃ s l s' l', Sample.nodeLike.snapshot? = some s ∧ s.load = .ok l ∧
    s' = s.shuffled successors ⟨⟨0⟩, default⟩ ∧ s'.load = .ok l' ∧ successors.Relates l s' ∧
    (l'.bundle default).mapError Stop.variant? = (l.bundle default).mapError Stop.variant? := by
  obtain ⟨s, hs, hcheck⟩ := (Option.any_eq_true _ _).1
    (by decide +kernel : (Sample.nodeLike.snapshot?.any fun s =>
      s.load.toOption.isSome && (s.shuffled successors ⟨⟨0⟩, default⟩).load.toOption.isSome) = true)
  have exists_load : ∀ {s : Snapshot}, s.load.toOption.isSome = true → ∃ l, s.load = .ok l := by
    intro s h
    cases hload : s.load with
    | error e => rw [hload] at h; cases h
    | ok l => exact ⟨l, rfl⟩
  rw [Bool.and_eq_true] at hcheck
  obtain ⟨l, hl⟩ := exists_load hcheck.1
  obtain ⟨l', hl'⟩ := exists_load hcheck.2
  have hrelates := relates_shuffled hl ⟨⟨0⟩, default⟩
  exact ⟨s, l, _, l', hs, hl, rfl, hl', hrelates, bundle_opaque hl hl' hrelates default⟩

end Snapshot

end TypeBundle
