import TypeBundle.Proofs.Document
import TypeBundle.Proofs.Snapshot.WellFormed
import TypeBundle.Snapshot.Handle
/-!
# Whoever asks a loaded snapshot is answered

Handles and ids of a loaded snapshot correspond one to one (`handle?_eq_some`), and everything that an entry
mentions has a handle. So whatever handles have been handed out, no question about them reads beyond a table
or looks up an id in vain (`load_exact`).
-/

namespace TypeBundle.Snapshot

/-! ## Positions -/

section Positions

variable {ι α : Type} {word : ι → UInt64}

theorem getElem?_insertPositions {es : List (Entry ι α)} (hes : (es.map fun e => word e.id).Nodup) (index : Index Nat)
    (start : Nat) (w : UInt64) (n : Nat) :
    ((es.zipIdx start).foldl (fun index (e, position) => index.insert (word e.id) position) index)[w]? = some n ↔
      (∃ i e, es[i]? = some e ∧ word e.id = w ∧ n = start + i) ∨ index[w]? = some n ∧ ∀ e ∈ es, word e.id ≠ w := by
  induction es generalizing index start with
  | nil => simp
  | cons e es ih =>
    simp only [List.map_cons, List.nodup_cons, List.mem_map, not_exists, not_and] at hes
    obtain ⟨hne, hes⟩ := hes
    rw [List.zipIdx_cons, List.foldl_cons, ih hes, Std.TreeMap.getElem?_insert]
    simp only [Std.LawfulEqCmp.compare_eq_iff_eq, List.mem_cons, forall_eq_or_imp]
    constructor
    · rintro (⟨i, a, ha, hw, rfl⟩ | ⟨hn, hw⟩)
      · exact .inl ⟨i + 1, a, by simpa using ha, hw, by omega⟩
      · split at hn
        · rename_i heq
          cases hn
          exact .inl ⟨0, e, rfl, heq, rfl⟩
        · rename_i heq
          exact .inr ⟨hn, heq, hw⟩
    · rintro (⟨i, a, ha, hw, rfl⟩ | ⟨hn, heq, hw⟩)
      · cases i with
        | zero =>
          obtain rfl : e = a := by simpa using ha
          refine .inr ⟨by rw [if_pos hw]; rfl, ?_⟩
          intro x hx hxw
          exact hne x hx (hxw.trans hw.symm)
        | succ i => exact .inl ⟨i, a, by simpa using ha, hw, by omega⟩
      · exact .inr ⟨by rw [if_neg heq]; exact hn, hw⟩

/-- The position by the word of an id is that of the entry with the id. -/
theorem getElem?_positionsOf (hword : Function.Injective word) {es : List (Entry ι α)} (hes : (es.map (·.id)).Nodup)
    (id : ι) (n : Nat) : (positionsOf word es)[word id]? = some n ↔ ∃ e, es[n]? = some e ∧ e.id = id := by
  have hwords : (es.map fun e => word e.id).Nodup := by
    have h := (List.nodup_map_iff hword).2 hes
    simpa [List.map_map, Function.comp_def] using h
  rw [positionsOf, getElem?_insertPositions hwords]
  simp only [Nat.zero_add, Std.TreeMap.getElem?_emptyc, reduceCtorEq, false_and, or_false, hword.eq_iff]
  constructor
  · rintro ⟨i, e, he, hid, rfl⟩
    exact ⟨e, he, hid⟩
  · rintro ⟨e, he, hid⟩
    exact ⟨n, e, he, hid, rfl⟩

theorem getElem?_of_indexOf (hword : Function.Injective word) {es : List (Entry ι α)} (hes : (es.map (·.id)).Nodup)
    {index : Index α} (h : indexOf word es = .ok index) {e : Entry ι α} (he : e ∈ es) :
    index[word e.id]? = some e.facts := by
  obtain ⟨a, ha⟩ := (getElem?_of_go h (word e.id)).2 (.inr ⟨e, he, rfl⟩)
  rcases facts_of_go h ha with hempty | ⟨e', he', hid, rfl⟩
  · simp at hempty
  · rw [ha, List.inj_on_of_nodup_map hes he' he (hword hid)]

end Positions

/-! ## Handles -/

namespace Loaded

/-- What is held on to by whoever asks: the global symbol, the ambient modules, handles by id, and whatever
questions about these have been answered with. -/
inductive Reached (l : Loaded) : Handle → Prop
  | global {handle} : l.symbolHandle? l.global = some handle → Reached l (.symbol handle)
  | ambientModule {id handle} : id ∈ l.snapshot.ambientModules → l.symbolHandle? id = some handle →
      Reached l (.symbol handle)
  | byId {m handle} : l.handle? m = some handle → Reached l handle
  | answer {question handles handle} : Reached l question.subject → l.ask? question = some handles →
      handle ∈ handles → Reached l handle

/-- Nothing that is looked up is missing. -/
structure Answering (l : Loaded) : Prop where
  global : l.snapshot.global? = some l.global ∧ ∃ handle, l.symbolHandle? l.global = some handle
  ambientModules : ∀ id ∈ l.snapshot.ambientModules, ∃ handle, l.symbolHandle? id = some handle
  /-- Every question about a handle that has been handed out is answered. -/
  answered : ∀ question, l.Reached question.subject → ∃ handles, l.ask? question = some handles
  /-- A handle that has been handed out is the handle by its identity. -/
  identified : ∀ handle, l.Reached handle → ∃ m, l.identity? handle = some m ∧ l.handle? m = some handle
  /-- Identities and handles correspond one to one. -/
  corresponding : ∀ m handle, l.handle? m = some handle ↔ l.identity? handle = some m
  /-- What an entry says is what the host says by its id. -/
  types : ∀ handle e, l.typeEntry? handle = some e → l.type? e.id = some e.facts
  symbols : ∀ handle e, l.symbolEntry? handle = some e → l.symbol? e.id = some e.facts
  signatures : ∀ handle e, l.signatureEntry? handle = some e → l.signature? e.id = some e.facts

variable {l : Loaded}

/-- The handle to something is the one whose entry has its id. -/
theorem handle?_eq_some (h : l.snapshot.WellFormed) {m : Mention} {handle : Handle} :
    l.handle? m = some handle ↔ l.identity? handle = some m := by
  have htypes := getElem?_positionsOf TypeId.val_injective h.distinctTypes
  have hsymbols := getElem?_positionsOf SymbolId.val_injective h.distinctSymbols
  have hsignatures := getElem?_positionsOf SignatureId.val_injective h.distinctSignatures
  cases m <;> cases handle <;> simp only [handle?, identity?, Option.map_eq_some_iff, reduceCtorEq, and_false, exists_false]
  case type.type id handle =>
    obtain ⟨position⟩ := handle
    simpa [typeHandle?, typeEntry?] using htypes id position
  case symbol.symbol id handle =>
    obtain ⟨position⟩ := handle
    simpa [symbolHandle?, symbolEntry?] using hsymbols id position
  case signature.signature id handle =>
    obtain ⟨position⟩ := handle
    simpa [signatureHandle?, signatureEntry?] using hsignatures id position

/-- Whatever has an entry has a handle. -/
theorem exists_handle (h : l.snapshot.WellFormed) {m : Mention} (hm : l.snapshot.Has m) :
    ∃ handle, l.handle? m = some handle := by
  cases m with
  | type id =>
    obtain ⟨e, he, rfl⟩ := List.mem_map.1 hm
    obtain ⟨position, hposition⟩ := List.mem_iff_getElem?.1 he
    exact ⟨.type ⟨position⟩, (handle?_eq_some h).2 (by simp [identity?, typeEntry?, hposition])⟩
  | symbol id =>
    obtain ⟨e, he, rfl⟩ := List.mem_map.1 hm
    obtain ⟨position, hposition⟩ := List.mem_iff_getElem?.1 he
    exact ⟨.symbol ⟨position⟩, (handle?_eq_some h).2 (by simp [identity?, symbolEntry?, hposition])⟩
  | signature id =>
    obtain ⟨e, he, rfl⟩ := List.mem_map.1 hm
    obtain ⟨position, hposition⟩ := List.mem_iff_getElem?.1 he
    exact ⟨.signature ⟨position⟩, (handle?_eq_some h).2 (by simp [identity?, signatureEntry?, hposition])⟩

theorem exists_symbolHandle (h : l.snapshot.WellFormed) {id : SymbolId} (hid : l.snapshot.Has (.symbol id)) :
    ∃ handle, l.symbolHandle? id = some handle := by
  obtain ⟨handle, hhandle⟩ := exists_handle h hid
  obtain ⟨symbolHandle, hsymbol, -⟩ := Option.map_eq_some_iff.1 hhandle
  exact ⟨symbolHandle, hsymbol⟩

/-! ## Questions -/

/-- What is looked up for a question is mentioned by the entry. -/
theorem mem_typeMentions {t : HostType} {question : TypeQuestion} {m : Mention} (hm : m ∈ question.lookups t) :
    m ∈ typeMentions t := by
  cases question with
  | accessParts =>
    simp only [TypeQuestion.lookups] at hm
    cases hobject : t.accessObject? with
    | none => simp [hobject] at hm
    | some object =>
      simp only [hobject, List.map_cons, List.mem_cons] at hm
      rcases hm with rfl | hm
      · simp [typeMentions, hobject]
      · simp only [typeMentions, List.map_append, List.mem_append, hm, true_or, or_true]
  | _ => simp_all [TypeQuestion.lookups, typeMentions]

theorem mem_symbolMentions {x : HostSymbol} {question : SymbolQuestion} {m : Mention} (hm : m ∈ question.lookups x) :
    m ∈ symbolMentions x := by
  cases question <;> simp_all [SymbolQuestion.lookups, symbolMentions]

theorem mem_signatureMentions {g : HostSignature} {question : SignatureQuestion} {m : Mention}
    (hm : m ∈ question.lookups g) : m ∈ signatureMentions g := by
  cases question <;> simp_all [SignatureQuestion.lookups, signatureMentions]

/-- A question about a handle with an entry is answered. -/
theorem exists_answer (h : l.snapshot.WellFormed) {question : Question} {m : Mention}
    (hm : l.identity? question.subject = some m) : ∃ handles, l.ask? question = some handles := by
  cases question with
  | type handle question =>
    obtain ⟨e, he, -⟩ := Option.map_eq_some_iff.1 hm
    simp only [ask?, he, Option.bind_eq_bind, Option.bind_some]
    refine exists_mapM fun m hm => exists_handle h ?_
    exact forall_typeMentions_iff.2 (h.types e (List.mem_of_getElem? he)) m (mem_typeMentions hm)
  | symbol handle question =>
    obtain ⟨e, he, -⟩ := Option.map_eq_some_iff.1 hm
    simp only [ask?, he, Option.bind_eq_bind, Option.bind_some]
    refine exists_mapM fun m hm => exists_handle h ?_
    exact forall_symbolMentions_iff.2 (h.symbols e (List.mem_of_getElem? he)) m (mem_symbolMentions hm)
  | signature handle question =>
    obtain ⟨e, he, -⟩ := Option.map_eq_some_iff.1 hm
    simp only [ask?, he, Option.bind_eq_bind, Option.bind_some]
    refine exists_mapM fun m hm => exists_handle h ?_
    exact forall_signatureMentions_iff.2 (h.signatures e (List.mem_of_getElem? he)) m (mem_signatureMentions hm)

/-- Answers are made of handles by id. -/
theorem exists_mention_of_answer {question : Question} {handles : List Handle} (h : l.ask? question = some handles) :
    ∀ handle ∈ handles, ∃ m, l.handle? m = some handle := by
  have hmapM : ∃ ms : List Mention, ms.mapM l.handle? = some handles := by
    cases question <;> simp only [ask?, Option.bind_eq_bind, Option.bind_eq_some_iff] at h <;>
      exact ⟨_, h.choose_spec.2⟩
  obtain ⟨ms, hms⟩ := hmapM
  intro handle hmem
  obtain ⟨m, -, hm⟩ := exists_of_mapM hms handle hmem
  exact ⟨m, hm⟩

/-- What has been handed out has an entry. -/
theorem Reached.identified (h : l.snapshot.WellFormed) {handle : Handle} (hreached : l.Reached handle) :
    ∃ m, l.identity? handle = some m ∧ l.handle? m = some handle := by
  have hby : ∃ m, l.handle? m = some handle := by
    cases hreached with
    | global hglobal => exact ⟨.symbol l.global, by simp [handle?, hglobal]⟩
    | @ambientModule id handle _ hhandle => exact ⟨.symbol id, by simp [handle?, hhandle]⟩
    | byId hm => exact ⟨_, hm⟩
    | answer _ hanswer hmem => exact exists_mention_of_answer hanswer _ hmem
  obtain ⟨m, hm⟩ := hby
  exact ⟨m, (handle?_eq_some h).1 hm, hm⟩

end Loaded

/-! ## Loading -/

section Load

variable {s : Snapshot} {l : Loaded}

/-- A loaded snapshot answers whoever asks. -/
theorem answering_of_load (h : s.load = .ok l) : l.Answering := by
  have hs : s.WellFormed := load_iff_wellFormed.1 ⟨l, h⟩
  have hglobal := global_of_load h
  obtain ⟨rfl, htypes, hsymbols, hsignatures, -⟩ := load_spec h
  obtain ⟨id, hid, hhas⟩ := hs.global
  obtain rfl : id = l.global := Option.some.inj (hid.symm.trans hglobal)
  exact {
    global := ⟨hglobal, Loaded.exists_symbolHandle hs hhas⟩
    ambientModules := fun id hid => Loaded.exists_symbolHandle hs (hs.ambientModules id hid)
    answered := fun question hreached =>
      have ⟨_, hm, _⟩ := hreached.identified hs
      Loaded.exists_answer hs hm
    identified := fun handle hreached => hreached.identified hs
    corresponding := fun m handle => Loaded.handle?_eq_some hs
    types := fun handle e he =>
      getElem?_of_indexOf TypeId.val_injective hs.distinctTypes htypes (List.mem_of_getElem? he)
    symbols := fun handle e he =>
      getElem?_of_indexOf SymbolId.val_injective hs.distinctSymbols hsymbols (List.mem_of_getElem? he)
    signatures := fun handle e he =>
      getElem?_of_indexOf SignatureId.val_injective hs.distinctSignatures hsignatures (List.mem_of_getElem? he) }

/-- The snapshots that load are the well-formed ones, and whoever asks a loaded one is always answered. -/
theorem load_exact (s : Snapshot) :
    ((∃ l, s.load = .ok l) ↔ s.WellFormed) ∧ ∀ l, s.load = .ok l → l.snapshot = s ∧ l.Answering :=
  ⟨load_iff_wellFormed, fun _ h => ⟨(load_spec h).1, answering_of_load h⟩⟩

/-- Namespaces, classes and ambient modules that mention each other. -/
theorem load_exact_nodeLike : ∃ s l, Sample.nodeLike.snapshot? = some s ∧ s.load = .ok l ∧ s.WellFormed ∧
    l.snapshot = s ∧ l.Answering := by
  obtain ⟨l, hl⟩ : ∃ l, Sample.nodeLike.loaded? = some l :=
    Option.isSome_iff_exists.1 (by decide +kernel)
  obtain ⟨s, hs, hload⟩ := Sample.load_of_loaded hl
  obtain ⟨hwellFormed, hanswering⟩ := load_exact s
  obtain ⟨hsnapshot, hl⟩ := hanswering l hload
  exact ⟨s, l, hs, hload, hwellFormed.1 ⟨l, hload⟩, hsnapshot, hl⟩

end Load

end TypeBundle.Snapshot
