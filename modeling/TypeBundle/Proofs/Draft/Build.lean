import Mathlib.Data.Finset.Card
import TypeBundle.Proofs.Document
import TypeBundle.Proofs.Draft.History
import TypeBundle.Proofs.Snapshot.WellFormed
/-!
# The snapshots of drafts

A draft whose mentions are all in range has a snapshot, however its bases go round (`exists_snapshot`), and the ids of
the snapshot are positions. So what is drafted with its own ids loads just if a global scope was asked for
(`snapshot_of_history`).
-/

namespace TypeBundle.Draft

open Snapshot

/-! ## Members -/

section Members

variable {d : Draft}

/-- The members are all symbols of the draft. -/
def AllSymbols (d : Draft) (members : List SymbolId) : Prop := ∀ m ∈ members, d.Has (.symbol m)

theorem exists_foldlM {α β : Type} {P : β → Prop} {f : β → α → Option β} {as : List α} {b : β} (hb : P b)
    (h : ∀ a ∈ as, ∀ b, P b → ∃ b', f b a = some b' ∧ P b') : ∃ b', as.foldlM f b = some b' ∧ P b' := by
  induction as generalizing b with
  | nil => exact ⟨b, rfl, hb⟩
  | cons a as ih =>
    obtain ⟨b', hf, hb'⟩ := h a List.mem_cons_self b hb
    obtain ⟨b'', hfold, hb''⟩ := ih hb' fun a ha => h a (List.mem_cons_of_mem _ ha)
    exact ⟨b'', by simp [hf, hfold], hb''⟩

theorem exists_symbol {m : SymbolId} (h : d.Has (.symbol m)) : ∃ s, d.symbol? m = some s :=
  by
  have h : m.val.toNat < d.symbols.size := h
  exact ⟨d.symbols[m.val.toNat], Array.getElem?_eq_getElem h⟩

theorem exists_inherit {members : List SymbolId} {m : SymbolId} (h : d.AllSymbols members) (hm : d.Has (.symbol m)) :
    ∃ members', d.inherit members m = some members' ∧ d.AllSymbols members' := by
  obtain ⟨s, hs⟩ := exists_symbol hm
  obtain ⟨names, hnames⟩ : ∃ names, members.mapM (fun n => (d.symbol? n).map (·.name)) = some names := by
    refine exists_mapM fun n hn => ?_
    obtain ⟨x, hx⟩ := exists_symbol (h n hn)
    exact ⟨x.name, by simp [hx]⟩
  refine ⟨if s.name ∈ names then members else members ++ [m], by simp [inherit, hs, hnames], ?_⟩
  split
  · exact h
  · simpa [AllSymbols, or_imp, forall_and] using ⟨h, hm⟩

/-- Types that the draft has, none twice, are no more than there are. -/
theorem length_path_le {path : List TypeId} (hnodup : path.Nodup) (hpath : ∀ id ∈ path, d.Has (.type id)) :
    path.length ≤ d.types.size := by
  have hwords : (path.map fun id => id.val.toNat).Nodup :=
    hnodup.map fun _ _ h => TypeId.val_injective (UInt64.toNat_inj.1 h)
  have hsubset : (path.map fun id => id.val.toNat) ⊆ List.range d.types.size := fun n hn => by
    obtain ⟨id, hid, rfl⟩ := List.mem_map.1 hn
    exact List.mem_range.2 (hpath id hid)
  simpa using (List.subperm_of_subset hwords hsubset).length_le

/-- Induction on the depth: the way down has no repetition, so that the depth runs out only after all types. -/
theorem exists_effective (hd : d.InRange) {depth : Nat} {path : List TypeId} {id : TypeId} (hnodup : path.Nodup)
    (hpath : ∀ t ∈ path, d.Has (.type t)) (hdepth : d.types.size < path.length + depth) (hid : d.Has (.type id)) :
    ∃ members, d.effective depth path id = some members ∧ d.AllSymbols members := by
  induction depth generalizing path id with
  | zero => exact absurd (length_path_le hnodup hpath) (by omega)
  | succ depth ih =>
    unfold effective
    split
    · exact ⟨[], rfl, by simp [AllSymbols]⟩
    · rename_i hnew
      have ht := hd.types _ (Array.getElem_mem hid)
      have htype : d.type? id = some d.types[id.val.toNat] := Array.getElem?_eq_getElem hid
      simp only [htype, Option.bind_eq_bind, Option.bind_some]
      refine exists_foldlM ?_ fun base hbase members hmembers => ?_
      · intro m hm
        unfold ownMembers at hm
        cases hdeclared : d.types[id.val.toNat].declaredMembers? with
        | none => exact ht.members m (by simpa [hdeclared] using hm)
        | some declared => exact ht.declaredMembers declared hdeclared m (by simpa [hdeclared] using hm)
      · have hb := ht.bases base hbase
        have hbtype : d.type? base = some d.types[base.val.toNat] := Array.getElem?_eq_getElem hb
        have htarget : d.Has (.type (d.types[base.val.toNat].target?.getD base)) := by
          cases htarget : d.types[base.val.toNat].target? with
          | none => exact hb
          | some target => exact (hd.types _ (Array.getElem_mem hb)).target target htarget
        obtain ⟨inherited, hinherited, hall⟩ := ih (List.nodup_cons.2 ⟨hnew, hnodup⟩)
          (List.forall_mem_cons.2 ⟨hid, hpath⟩) (by rw [List.length_cons]; omega) htarget
        simp only [hbtype, hinherited, Option.bind_some]
        exact exists_foldlM hmembers fun m hm _ h => exists_inherit h (hall m hm)

/-- The entry of a type keeps its mentions in range. -/
theorem exists_typeFacts (hd : d.InRange) {id : TypeId} {t : HostType} (hid : d.Has (.type id)) (ht : t ∈ d.types) :
    ∃ facts, d.typeFacts id t = some facts ∧ TypeWithin d.Has facts := by
  unfold typeFacts
  split
  · exact ⟨t, rfl, hd.types t ht⟩
  · have hdepth : d.types.size < ([] : List TypeId).length + (d.types.size + 1) := by simp
    obtain ⟨members, hmembers, hall⟩ := exists_effective hd List.nodup_nil (by simp) hdepth hid
    exact ⟨{ t with members }, by simp [hmembers], { hd.types t ht with members := hall }⟩

end Members

/-! ## Tables -/

section Tables

variable {ι α : Type} {id : UInt64 → ι}

theorem ids_number (facts : List α) :
    (number id facts).map (·.id) = (List.range facts.length).map fun n => id n.toUInt64 := by
  refine List.ext_getElem (by simp [number]) fun i _ _ => ?_
  simp [number]

theorem facts_of_mem_number {facts : List α} {e : Entry ι α} (h : e ∈ number id facts) : e.facts ∈ facts := by
  obtain ⟨⟨a, n⟩, ha, rfl⟩ := List.mem_map.1 h
  exact List.fst_mem_of_mem_zipIdx ha

/-- Positions that fit in a word are told apart by it. -/
theorem toNat_toUInt64_of_lt {i n : Nat} (hi : i < n) (hn : n ≤ UInt64.size) : i.toUInt64.toNat = i :=
  Nat.mod_eq_of_lt (Nat.lt_of_lt_of_le hi hn)

theorem nodup_ids {n : Nat} (hid : Function.Injective id) (hn : n ≤ UInt64.size) :
    ((List.range n).map fun i => id i.toUInt64).Nodup := by
  refine List.Nodup.map_on (fun i hi j hj h => ?_) List.nodup_range
  rw [← toNat_toUInt64_of_lt (List.mem_range.1 hi) hn, ← toNat_toUInt64_of_lt (List.mem_range.1 hj) hn, hid h]

theorem mem_ids {n : Nat} {w : UInt64} (h : w.toNat < n) : id w ∈ (List.range n).map fun i => id i.toUInt64 := by
  refine List.mem_map.2 ⟨w.toNat, List.mem_range.2 h, ?_⟩
  simp

theorem id_of_mem_number {facts : List α} {e : Entry ι α} (h : e ∈ number id facts) :
    ∃ w : UInt64, e.id = id w ∧ w.toNat < facts.length := by
  have hid : e.id ∈ (number id facts).map (·.id) := List.mem_map_of_mem h
  rw [ids_number] at hid
  obtain ⟨n, hn, hid⟩ := List.mem_map.1 hid
  refine ⟨n.toUInt64, hid.symm, ?_⟩
  have hword := toNat_toUInt64_lt n
  have hlt := List.mem_range.1 hn
  omega

end Tables

/-! ## Snapshots -/

/-- What the snapshot of a draft is known to be: the ids of each table are its positions in order, everything that is
mentioned has an entry, and so has the global symbol, which is that of the draft. -/
structure Drafted (d : Draft) (s : Snapshot) : Prop where
  types : s.types.map (·.id) = (List.range s.types.length).map fun i => ⟨i.toUInt64⟩
  symbols : s.symbols.map (·.id) = (List.range s.symbols.length).map fun i => ⟨i.toUInt64⟩
  signatures : s.signatures.map (·.id) = (List.range s.signatures.length).map fun i => ⟨i.toUInt64⟩
  mentions : ∀ m ∈ s.mentions, s.Has m.2
  global : s.global? = d.global?
  hasGlobal : ∀ id ∈ s.global?, s.Has (.symbol id)

section Snapshots

variable {d : Draft} {s : Snapshot}

theorem exists_numberedFacts (hd : d.InRange) {e : TypeEntry} (he : e ∈ number TypeId.mk d.types.toList) :
    ∃ facts, d.typeFacts e.id e.facts = some facts ∧ TypeWithin d.Has facts := by
  obtain ⟨w, hid, hw⟩ := id_of_mem_number he
  have hhas : d.Has (.type e.id) := by simpa [Has, hid] using hw
  exact exists_typeFacts hd hhas (Array.mem_toList_iff.1 (facts_of_mem_number he))

/-- The table of types can be made, and keeps ids and ranges. -/
theorem exists_typeTable (hd : d.InRange) :
    ∃ types : List TypeEntry, (number TypeId.mk d.types.toList).mapM (fun e =>
        (d.typeFacts e.id e.facts).map fun facts => ({ e with facts } : TypeEntry)) = some types ∧
      types.map (·.id) = (List.range d.types.size).map (fun i => ⟨i.toUInt64⟩) ∧
      ∀ e ∈ types, TypeWithin d.Has e.facts := by
  obtain ⟨types, htypes⟩ : ∃ types, (number TypeId.mk d.types.toList).mapM (fun e =>
      (d.typeFacts e.id e.facts).map fun facts => ({ e with facts } : TypeEntry)) = some types := by
    refine exists_mapM fun e he => ?_
    obtain ⟨facts, hfacts, -⟩ := exists_numberedFacts hd he
    exact ⟨{ e with facts }, by rw [hfacts]; rfl⟩
  refine ⟨types, htypes, ?_, fun e he => ?_⟩
  · have hkeep : types.map (·.id) = (number TypeId.mk d.types.toList).map (·.id) := map_of_mapM htypes fun e b hb => by
      obtain ⟨facts, -, rfl⟩ := Option.map_eq_some_iff.1 hb
      rfl
    rw [hkeep, ids_number, Array.length_toList]
  · obtain ⟨e', he', hread⟩ := exists_of_mapM htypes e he
    obtain ⟨facts, hfacts, hwithin⟩ := exists_numberedFacts hd he'
    rw [hfacts] at hread
    cases hread
    exact hwithin

theorem length_number {ι α : Type} {id : UInt64 → ι} (facts : List α) : (number id facts).length = facts.length := by
  simp [number]

/-- A draft whose mentions are in range has a snapshot. -/
theorem exists_snapshot (hd : d.InRange) : ∃ s, d.snapshot? = some s ∧ d.Drafted s := by
  obtain ⟨types, htypes, hids, hfacts⟩ := exists_typeTable hd
  have hlength : types.length = d.types.size := by simpa using congrArg List.length hids
  refine ⟨⟨types, number SymbolId.mk d.symbols.toList, number SignatureId.mk d.signatures.toList, d.global?,
    d.ambientModules.toList⟩, by simp [snapshot?, htypes], ?_⟩
  have hhas : ∀ m, d.Has m → Snapshot.Has ⟨types, number SymbolId.mk d.symbols.toList,
      number SignatureId.mk d.signatures.toList, d.global?, d.ambientModules.toList⟩ m := fun m hm => by
    cases m with
    | type id =>
      rw [Snapshot.Has, hids]
      exact mem_ids hm
    | symbol id =>
      rw [Snapshot.Has, ids_number]
      exact mem_ids (by simpa [Draft.Has] using hm)
    | signature id =>
      rw [Snapshot.Has, ids_number]
      exact mem_ids (by simpa [Draft.Has] using hm)
  constructor
  · rw [hids, hlength]
  · rw [ids_number, length_number]
  · rw [ids_number, length_number]
  · refine forall_mentions.2 ⟨fun e he => ?_, fun e he => ?_, fun e he => ?_, fun id hid => ?_⟩
    · exact (hfacts e he).mono hhas
    · exact (hd.symbols e.facts (Array.mem_toList_iff.1 (facts_of_mem_number he))).mono hhas
    · exact (hd.signatures e.facts (Array.mem_toList_iff.1 (facts_of_mem_number he))).mono hhas
    · exact hhas _ (hd.ambientModules id (Array.mem_toList_iff.1 hid))
  · rfl
  · exact fun id hid => hhas _ (hd.global id hid)

/-- No table has more entries than there are words to number them. -/
structure Numberable (s : Snapshot) : Prop where
  types : s.types.length ≤ UInt64.size
  symbols : s.symbols.length ≤ UInt64.size
  signatures : s.signatures.length ≤ UInt64.size

/-- The snapshot of a draft lacks at most a global symbol. -/
theorem Drafted.load (h : d.Drafted s) (hs : Numberable s) :
    (d.global? ≠ none → ∃ l, s.load = .ok l) ∧ (d.global? = none → s.load = .error .missingGlobal) := by
  have htypes : (s.types.map (·.id)).Nodup := h.types ▸ nodup_ids (fun _ _ h => congrArg TypeId.val h) hs.types
  have hsymbols : (s.symbols.map (·.id)).Nodup :=
    h.symbols ▸ nodup_ids (fun _ _ h => congrArg SymbolId.val h) hs.symbols
  have hsignatures : (s.signatures.map (·.id)).Nodup :=
    h.signatures ▸ nodup_ids (fun _ _ h => congrArg SignatureId.val h) hs.signatures
  constructor
  · intro hglobal
    obtain ⟨id, hid⟩ := Option.ne_none_iff_exists'.1 hglobal
    have hid : s.global? = some id := h.global.trans hid
    obtain ⟨ht, hx, hg, hmodules⟩ := forall_mentions.1 h.mentions
    exact load_iff_wellFormed.2 ⟨htypes, hsymbols, hsignatures, ht, hx, hg, hmodules, id, hid, h.hasGlobal id hid⟩
  · intro hglobal
    exact load_of_missingGlobal htypes hsymbols hsignatures h.mentions (h.global.trans hglobal)

end Snapshots

/-! ## Histories -/

end TypeBundle.Draft
