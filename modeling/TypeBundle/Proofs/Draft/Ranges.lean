import TypeBundle.Draft.Operation
import TypeBundle.Proofs.Snapshot.Mentions
/-!
# Drafts that mention only what they have

`Safe known w gives`: in a draft whose entries mention only positions that it has, the drafting action `w`, given the
ids `known`, comes to an end, and leaves another such draft with all the ids that `gives` reads off its value. First
the rules for sequences and lists, then those for entries; all steps of drafting are put together from these.
-/

namespace TypeBundle.Draft

open Snapshot

/-- The draft has an entry at the position. -/
def Has (d : Draft) : Mention → Prop
  | .type id => id.val.toNat < d.types.size
  | .symbol id => id.val.toNat < d.symbols.size
  | .signature id => id.val.toNat < d.signatures.size

/-- What is mentioned anywhere in the draft has an entry. -/
structure InRange (d : Draft) : Prop where
  types : ∀ t ∈ d.types, TypeWithin d.Has t
  symbols : ∀ s ∈ d.symbols, SymbolWithin d.Has s
  signatures : ∀ g ∈ d.signatures, SignatureWithin d.Has g
  ambientModules : ∀ s ∈ d.ambientModules, d.Has (.symbol s)
  global : ∀ s ∈ d.global?, d.Has (.symbol s)
  /-- The type of the global scope is known only together with its symbol. -/
  globalType : ∀ t ∈ d.globalType?, d.Has (.type t) ∧ d.global? ≠ none

/-- The later draft has the entries of the earlier one, and the same global scope. -/
structure Extends (d d' : Draft) : Prop where
  types : d.types.size ≤ d'.types.size
  symbols : d.symbols.size ≤ d'.symbols.size
  signatures : d.signatures.size ≤ d'.signatures.size
  global : d'.global? = d.global?

theorem Extends.refl (d : Draft) : d.Extends d := ⟨Nat.le_refl _, Nat.le_refl _, Nat.le_refl _, rfl⟩

theorem Extends.trans {d d' d'' : Draft} (h : d.Extends d') (h' : d'.Extends d'') : d.Extends d'' :=
  ⟨Nat.le_trans h.types h'.types, Nat.le_trans h.symbols h'.symbols, Nat.le_trans h.signatures h'.signatures,
    h'.global.trans h.global⟩

theorem Extends.has {d d' : Draft} (h : d.Extends d') {m : Mention} (hm : d.Has m) : d'.Has m := by
  cases m with
  | type id => exact Nat.lt_of_lt_of_le hm h.types
  | symbol id => exact Nat.lt_of_lt_of_le hm h.symbols
  | signature id => exact Nat.lt_of_lt_of_le hm h.signatures

/-- A draft with more or other entries is in range if what these mention is. -/
theorem InRange.of_entries {d d' : Draft} (hd : d.InRange) (hext : d.Extends d')
    (htypes : ∀ t ∈ d'.types, t ∈ d.types ∨ TypeWithin d'.Has t)
    (hsymbols : ∀ s ∈ d'.symbols, s ∈ d.symbols ∨ SymbolWithin d'.Has s)
    (hsignatures : ∀ g ∈ d'.signatures, g ∈ d.signatures ∨ SignatureWithin d'.Has g)
    (hmodules : d'.ambientModules = d.ambientModules) (hglobalType : d'.globalType? = d.globalType?) : d'.InRange where
  types t ht := (htypes t ht).elim (fun ht => (hd.types t ht).mono fun _ => hext.has) fun h => h
  symbols s hs := (hsymbols s hs).elim (fun hs => (hd.symbols s hs).mono fun _ => hext.has) fun h => h
  signatures g hg := (hsignatures g hg).elim (fun hg => (hd.signatures g hg).mono fun _ => hext.has) fun h => h
  ambientModules s hs := hext.has (hd.ambientModules s (hmodules ▸ hs))
  global s hs := hext.has (hd.global s (hext.global ▸ hs))
  globalType t ht := by
    obtain ⟨hhas, hglobal⟩ := hd.globalType t (hglobalType ▸ ht)
    exact ⟨hext.has hhas, hext.global ▸ hglobal⟩

/-- A position that is taken next is one that the table has then, also if it is too great for a word. -/
theorem toNat_toUInt64_lt (n : Nat) : n.toUInt64.toNat < n + 1 := by
  have h : n.toUInt64.toNat = n % 2 ^ 64 := rfl
  omega

theorem forall_mem_push {α : Type} {as : Array α} {a : α} {P : α → Prop} (h : P a) : ∀ x ∈ as.push a, x ∈ as ∨ P x := by
  intro x hx
  rcases Array.mem_push.1 hx with hx | rfl
  · exact .inl hx
  · exact .inr h

theorem forall_mem_modify {α : Type} {as : Array α} {i : Nat} {f : α → α} {P : α → Prop} (h : ∀ a ∈ as, P (f a)) :
    ∀ x ∈ as.modify i f, x ∈ as ∨ P x := by
  intro x hx
  obtain ⟨j, hj, rfl⟩ := Array.mem_iff_getElem.1 hx
  rw [Array.getElem_modify]
  split
  · exact .inr (h _ (Array.getElem_mem _))
  · exact .inl (Array.getElem_mem _)

/-! ## Safe actions -/

/-- Given ids that the draft has, the action comes to an end, keeps what is mentioned in range, and answers ids that
the draft then has. -/
def Safe {α : Type} (known : List Mention) (w : Drafting α) (gives : α → List Mention) : Prop :=
  ∀ d : Draft, d.InRange → (∀ m ∈ known, d.Has m) →
    ∃ a d', w d = some (a, d') ∧ d'.InRange ∧ d.Extends d' ∧ ∀ m ∈ gives a, d'.Has m

/-- The ids of an answer without any. -/
def noIds {α : Type} : α → List Mention := fun _ => []

/-- The ids of an answer that is a type. -/
def typeIds (id : TypeId) : List Mention := [.type id]

/-- The ids of an answer that is a symbol. -/
def symbolIds (id : SymbolId) : List Mention := [.symbol id]

namespace Safe

variable {α β : Type} {known known' : List Mention} {w : Drafting α} {gives gives' : α → List Mention}

theorem of_subset (h : Safe known w gives) (hknown : known ⊆ known') : Safe known' w gives :=
  fun d hd hk => h d hd fun m hm => hk m (hknown hm)

theorem pure {a : α} (h : gives a ⊆ known) : Safe known (Pure.pure a) gives :=
  fun d hd hk => ⟨a, d, rfl, hd, .refl d, fun m hm => hk m (h hm)⟩

theorem bind {f : α → Drafting β} {gives' : β → List Mention} (hw : Safe known w gives)
    (hf : ∀ a, Safe (gives a ++ known) (f a) gives') : Safe known (w >>= f) gives' := by
  intro d hd hk
  obtain ⟨a, d', hw, hd', hext, ha⟩ := hw d hd hk
  obtain ⟨b, d'', hb, hd'', hext', hgives⟩ := hf a d' hd' fun m hm =>
    (List.mem_append.1 hm).elim (ha m) fun hm => hext.has (hk m hm)
  refine ⟨b, d'', ?_, hd'', hext.trans hext', hgives⟩
  change (w d).bind (fun p => f p.1 p.2) = some (b, d'')
  rw [hw]
  exact hb

theorem map {f : α → β} {gives' : β → List Mention} (hw : Safe known w gives) (hf : ∀ a, gives' (f a) = gives a) :
    Safe known (f <$> w) gives' := by
  rw [map_eq_pure_bind]
  refine bind hw fun a => pure ?_
  rw [hf]
  exact List.subset_append_left _ _

theorem mapM {γ : Type} {f : γ → Drafting α} {cs : List γ} (h : ∀ c ∈ cs, Safe known (f c) gives) :
    Safe known (cs.mapM f) fun as => as.flatMap gives := by
  induction cs with
  | nil => exact pure (by simp)
  | cons c cs ih =>
    rw [List.mapM_cons]
    have hcs : ∀ a, Safe (gives a ++ known) (cs.mapM f) _ := fun a =>
      (ih fun c hc => h c (List.mem_cons_of_mem _ hc)).of_subset (List.subset_append_right _ _)
    refine bind (h c List.mem_cons_self) fun a => bind (hcs a) fun as => pure ?_
    simp

/-! ## Entries -/

/-- An entry more is in range if what it mentions is known. -/
theorem addType {t : HostType} (h : TypeWithin (· ∈ known) t) : Safe known (addType t) typeIds := by
  intro d hd hk
  have hext : d.Extends { d with types := d.types.push t } := by
    constructor <;> simp
  have hwithin := h.mono fun m hm => hext.has (hk m hm)
  refine ⟨_, _, rfl, hd.of_entries hext (forall_mem_push hwithin) (fun _ => .inl) (fun _ => .inl) rfl rfl, hext, ?_⟩
  simpa [typeIds, Has] using toNat_toUInt64_lt d.types.size

theorem addSymbol {s : HostSymbol} (h : SymbolWithin (· ∈ known) s) : Safe known (addSymbol s) symbolIds := by
  intro d hd hk
  have hext : d.Extends { d with symbols := d.symbols.push s } := by
    constructor <;> simp
  have hwithin := h.mono fun m hm => hext.has (hk m hm)
  refine ⟨_, _, rfl, hd.of_entries hext (fun _ => .inl) (forall_mem_push hwithin) (fun _ => .inl) rfl rfl, hext, ?_⟩
  simpa [symbolIds, Has] using toNat_toUInt64_lt d.symbols.size

theorem addSignature {g : HostSignature} (h : SignatureWithin (· ∈ known) g) :
    Safe known (addSignature g) fun id => [.signature id] := by
  intro d hd hk
  have hext : d.Extends { d with signatures := d.signatures.push g } := by
    constructor <;> simp
  have hwithin := h.mono fun m hm => hext.has (hk m hm)
  refine ⟨_, _, rfl, hd.of_entries hext (fun _ => .inl) (fun _ => .inl) (forall_mem_push hwithin) rfl rfl, hext, ?_⟩
  simpa [Has] using toNat_toUInt64_lt d.signatures.size

/-- An entry that is looked up mentions what is in range. -/
theorem typeEntry {id : TypeId} (h : .type id ∈ known) : Safe known (typeEntry id) typeMentions := by
  intro d hd hk
  have hid : id.val.toNat < d.types.size := hk _ h
  refine ⟨d.types[id.val.toNat], d, ?_, hd, .refl d, ?_⟩
  · simp [Draft.typeEntry, Draft.type?, hid]
  · exact forall_typeMentions_iff.2 (hd.types _ (Array.getElem_mem hid))

theorem symbolEntry {id : SymbolId} (h : .symbol id ∈ known) : Safe known (symbolEntry id) symbolMentions := by
  intro d hd hk
  have hid : id.val.toNat < d.symbols.size := hk _ h
  refine ⟨d.symbols[id.val.toNat], d, ?_, hd, .refl d, ?_⟩
  · simp [Draft.symbolEntry, Draft.symbol?, hid]
  · exact forall_symbolMentions_iff.2 (hd.symbols _ (Array.getElem_mem hid))

/-- A change of an entry is in range if it adds only what is known. -/
theorem changeType {id : TypeId} {change : HostType → HostType} (h : .type id ∈ known)
    (hchange : ∀ P : Mention → Prop, (∀ m ∈ known, P m) → ∀ t, TypeWithin P t → TypeWithin P (change t)) :
    Safe known (changeType id change) noIds := by
  intro d hd hk
  have hid : id.val.toNat < d.types.size := hk _ h
  have hext : d.Extends { d with types := d.types.modify id.val.toNat change } := by
    constructor <;> simp
  refine ⟨(), _, if_pos hid, hd.of_entries hext ?_ (fun _ => .inl) (fun _ => .inl) rfl rfl, hext, by simp [noIds]⟩
  exact forall_mem_modify fun t ht => (hchange _ hk t (hd.types t ht)).mono fun _ => hext.has

theorem changeSymbol {id : SymbolId} {change : HostSymbol → HostSymbol} (h : .symbol id ∈ known)
    (hchange : ∀ P : Mention → Prop, (∀ m ∈ known, P m) → ∀ s, SymbolWithin P s → SymbolWithin P (change s)) :
    Safe known (changeSymbol id change) noIds := by
  intro d hd hk
  have hid : id.val.toNat < d.symbols.size := hk _ h
  have hext : d.Extends { d with symbols := d.symbols.modify id.val.toNat change } := by
    constructor <;> simp
  refine ⟨(), _, if_pos hid, hd.of_entries hext (fun _ => .inl) ?_ (fun _ => .inl) rfl rfl, hext, by simp [noIds]⟩
  exact forall_mem_modify fun s hs => (hchange _ hk s (hd.symbols s hs)).mono fun _ => hext.has

/-- The current file matters to no mention. -/
theorem inFile (file : String) : Safe known (inFile file) noIds := fun d hd _ =>
  ⟨(), { d with file }, rfl, ⟨hd.types, hd.symbols, hd.signatures, hd.ambientModules, hd.global, hd.globalType⟩,
    ⟨Nat.le_refl _, Nat.le_refl _, Nat.le_refl _, rfl⟩, by simp [noIds]⟩

/-- One ambient module more, by a symbol that is known. -/
theorem addModule {s : SymbolId} (h : .symbol s ∈ known) :
    Safe known (modify fun d => { d with ambientModules := d.ambientModules.push s }) noIds := by
  intro d hd hk
  refine ⟨(), { d with ambientModules := d.ambientModules.push s }, rfl, ?_, ?_, by simp [noIds]⟩
  · refine ⟨hd.types, hd.symbols, hd.signatures, fun x hx => ?_, hd.global, hd.globalType⟩
    rcases Array.mem_push.1 hx with hx | rfl
    · exact hd.ambientModules x hx
    · exact hk _ h
  · exact ⟨Nat.le_refl _, Nat.le_refl _, Nat.le_refl _, rfl⟩

theorem declarationHere : Safe known declarationHere noIds := fun d hd _ =>
  ⟨_, d, rfl, hd, .refl d, by simp [noIds]⟩

end Safe

end TypeBundle.Draft
