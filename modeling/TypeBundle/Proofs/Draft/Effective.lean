import Mathlib.Logic.Relation
import TypeBundle.Proofs.Draft.Build
/-!
# Effective members

What the snapshot of a draft gives a type with bases: its own members, and after them one member for each further name
that a type above it owns (`built_of_history`). How a type is reached does not matter to the names, although a type
adds nothing where it is met again on the way down: a way to a name that goes through a type twice can be made shorter
(`ReachesPast.split`). Where bases do not go round, the members of a base are the same whoever asks for them
(`effective_unique`), so a type has what its bases have, each name from the first base that has it.
-/

namespace TypeBundle.Draft

open Relation (ReflTransGen TransGen)

variable {d : Draft} {s : Snapshot} {i j k id : TypeId} {m : SymbolId} {path : List TypeId}

/-! ## Names -/

/-- The name of a member. -/
def name? (d : Draft) (m : SymbolId) : Option String := (d.symbol? m).map (·.name)

/-- The names of members. -/
def names (d : Draft) (members : List SymbolId) : List (Option String) := members.map d.name?

/-- The members that are the first with their name and whose name is not taken. -/
def fresh (d : Draft) : List (Option String) → List SymbolId → List SymbolId
  | _, [] => []
  | taken, m :: ms => if d.name? m ∈ taken then fresh d taken ms else m :: fresh d (d.name? m :: taken) ms

theorem mem_of_mem_fresh {taken : List (Option String)} {members : List SymbolId} (h : m ∈ d.fresh taken members) :
    m ∈ members := by
  induction members generalizing taken with
  | nil => exact h
  | cons n ms ih =>
    unfold fresh at h
    split at h
    · exact List.mem_cons_of_mem n (ih h)
    · rcases List.mem_cons.1 h with rfl | h
      · exact List.mem_cons_self
      · exact List.mem_cons_of_mem n (ih h)

theorem fresh_spec (taken : List (Option String)) (members : List SymbolId) :
    (d.names (d.fresh taken members)).Nodup ∧ ∀ m ∈ d.fresh taken members, d.name? m ∉ taken := by
  induction members generalizing taken with
  | nil => simp [fresh, names]
  | cons n ms ih =>
    unfold fresh
    split
    · exact ih taken
    · rename_i hn
      obtain ⟨hnodup, hapart⟩ := ih (d.name? n :: taken)
      refine ⟨List.nodup_cons.2 ⟨?_, hnodup⟩, List.forall_mem_cons.2 ⟨hn, fun m hm => ?_⟩⟩
      · intro hmem
        obtain ⟨m, hm, heq⟩ := List.mem_map.1 hmem
        exact hapart m hm (List.mem_cons.2 (.inl heq))
      · exact fun hmem => hapart m hm (List.mem_cons_of_mem _ hmem)

/-- No name is lost. -/
theorem mem_names_fresh {taken : List (Option String)} {members : List SymbolId} (h : m ∈ members) :
    d.name? m ∈ taken ∨ d.name? m ∈ d.names (d.fresh taken members) := by
  induction members generalizing taken with
  | nil => cases h
  | cons n ms ih =>
    unfold fresh
    split
    · rename_i hn
      rcases List.mem_cons.1 h with rfl | h
      · exact .inl hn
      · exact ih h
    · rcases List.mem_cons.1 h with rfl | h
      · exact .inr List.mem_cons_self
      · rcases ih h with hmem | hmem
        · rcases List.mem_cons.1 hmem with heq | hmem
          · exact .inr (heq ▸ List.mem_cons_self)
          · exact .inl hmem
        · exact .inr (List.mem_cons_of_mem _ hmem)

theorem fresh_congr {taken taken' : List (Option String)} (h : ∀ x, x ∈ taken ↔ x ∈ taken') (members : List SymbolId) :
    d.fresh taken members = d.fresh taken' members := by
  induction members generalizing taken taken' with
  | nil => rfl
  | cons n ms ih =>
    unfold fresh
    by_cases hn : d.name? n ∈ taken
    · rw [if_pos hn, if_pos ((h _).1 hn), ih h]
    · have hcons : ∀ x, x ∈ d.name? n :: taken ↔ x ∈ d.name? n :: taken' := by
        intro x
        rw [List.mem_cons, List.mem_cons, h]
      rw [if_neg hn, if_neg (mt (h _).2 hn), ih hcons]

/-! ## What a type inherits -/

/-- The list with a member, unless its name is taken. -/
def join (d : Draft) (members : List SymbolId) (m : SymbolId) : List SymbolId :=
  if d.name? m ∈ d.names members then members else members ++ [m]

theorem foldl_join (members inherited : List SymbolId) :
    inherited.foldl d.join members = members ++ d.fresh (d.names members) inherited := by
  induction inherited generalizing members with
  | nil => simp [fresh]
  | cons m ms ih =>
    rw [List.foldl_cons, ih, join]
    by_cases hm : d.name? m ∈ d.names members
    · rw [if_pos hm, fresh, if_pos hm]
    · have htaken : ∀ x, x ∈ d.names (members ++ [m]) ↔ x ∈ d.name? m :: d.names members := by
        intro x
        rw [names, List.map_append, List.mem_append, List.map_singleton, List.mem_singleton, List.mem_cons, or_comm]
        rfl
      rw [if_neg hm, fresh, if_neg hm, fresh_congr htaken, List.append_assoc, List.singleton_append]

theorem inherit_eq {members members' : List SymbolId} (h : d.inherit members m = some members') :
    members' = d.join members m := by
  unfold inherit at h
  cases hs : d.symbol? m with
  | none => simp [hs] at h
  | some s =>
    cases hnames : members.mapM (fun n => (d.symbol? n).map (·.name)) with
    | none => simp [hs, hnames] at h
    | some names =>
      have hmap : names.map some = d.names members := map_some_of_mapM hnames
      have hname : d.name? m = some s.name := by rw [name?, hs, Option.map_some]
      simp only [hs, hnames, Option.bind_eq_bind, Option.bind_some, Option.pure_def, Option.some.injEq] at h
      rw [← h, join, hname, ← hmap]
      simp

theorem foldlM_inherit {members members' inherited : List SymbolId}
    (h : inherited.foldlM d.inherit members = some members') : members' = inherited.foldl d.join members := by
  induction inherited generalizing members with
  | nil => exact (Option.some.inj h).symm
  | cons m ms ih =>
    rw [List.foldlM_cons, Option.bind_eq_bind, Option.bind_eq_some_iff] at h
    obtain ⟨next, hnext, hrest⟩ := h
    rw [List.foldl_cons, ← inherit_eq hnext]
    exact ih hrest

/-- A base is looked at through its target. -/
def throughTarget (d : Draft) (base : TypeId) : TypeId := ((d.type? base).bind (·.target?)).getD base

/-- What a type inherits if its bases give these members. -/
theorem foldlM_bases {give : TypeId → Option (List SymbolId)} {bases : List TypeId} {members members' : List SymbolId}
    (h : bases.foldlM (fun members base => do
        let b ← d.type? base
        let inherited ← give (b.target?.getD base)
        inherited.foldlM d.inherit members) members = some members') :
    ∃ lists : List (List SymbolId), bases.map (fun base => give (d.throughTarget base)) = lists.map some ∧
      members' = lists.flatten.foldl d.join members := by
  induction bases generalizing members with
  | nil => exact ⟨[], rfl, (Option.some.inj h).symm⟩
  | cons base bases ih =>
    simp only [List.foldlM_cons, Option.bind_eq_bind, Option.bind_eq_some_iff] at h
    obtain ⟨next, ⟨b, hb, inherited, hgive, hnext⟩, hrest⟩ := h
    obtain ⟨lists, hlists, rfl⟩ := ih hrest
    have htarget : d.throughTarget base = b.target?.getD base := by rw [throughTarget, hb, Option.bind_some]
    refine ⟨inherited :: lists, ?_, ?_⟩
    · rw [List.map_cons, List.map_cons, hlists, htarget, hgive]
    · rw [List.flatten_cons, List.foldl_append, ← foldlM_inherit hnext]

/-- Each base gives members. -/
theorem exists_inherited {give : TypeId → Option (List SymbolId)} {bases : List TypeId} {lists : List (List SymbolId)}
    (h : bases.map give = lists.map some) {base : TypeId} (hbase : base ∈ bases) :
    ∃ inherited ∈ lists, give base = some inherited := by
  have hmem : give base ∈ bases.map give := List.mem_map_of_mem hbase
  rw [h] at hmem
  obtain ⟨inherited, hinherited, heq⟩ := List.mem_map.1 hmem
  exact ⟨inherited, hinherited, heq.symm⟩

/-- What is inherited is given by a base. -/
theorem exists_base {give : TypeId → Option (List SymbolId)} {bases : List TypeId} {lists : List (List SymbolId)}
    (h : bases.map give = lists.map some) (hm : m ∈ lists.flatten) :
    ∃ base ∈ bases, ∃ inherited, give base = some inherited ∧ m ∈ inherited := by
  obtain ⟨inherited, hinherited, hm⟩ := List.mem_flatten.1 hm
  have hmem : some inherited ∈ lists.map some := List.mem_map_of_mem hinherited
  rw [← h] at hmem
  obtain ⟨base, hbase, hgive⟩ := List.mem_map.1 hmem
  exact ⟨base, hbase, inherited, hgive, hm⟩

/-- A type that is met again adds nothing; another has its own members and then those of its bases with new names. -/
theorem effective_cases {depth : Nat} {members : List SymbolId} (h : d.effective (depth + 1) path id = some members) :
    (id ∈ path ∧ members = []) ∨ id ∉ path ∧ ∃ (t : HostType) (lists : List (List SymbolId)), d.type? id = some t ∧
      t.bases.map (fun base => d.effective depth (id :: path) (d.throughTarget base)) = lists.map some ∧
        members = ownMembers t ++ d.fresh (d.names (ownMembers t)) lists.flatten := by
  unfold effective at h
  split at h
  · rename_i hid
    exact .inl ⟨hid, (Option.some.inj h).symm⟩
  · rename_i hid
    rw [Option.bind_eq_bind, Option.bind_eq_some_iff] at h
    obtain ⟨t, ht, hbases⟩ := h
    obtain ⟨lists, hlists, rfl⟩ := foldlM_bases hbases
    exact .inr ⟨hid, t, lists, ht, hlists, foldl_join _ _⟩

/-! ## Ways along bases -/

/-- The second type is a base of the first. -/
def HasBase (d : Draft) (i j : TypeId) : Prop := ∃ t, d.type? i = some t ∧ ∃ base ∈ t.bases, d.throughTarget base = j

/-- The type declares the member. -/
def Owns (d : Draft) (i : TypeId) (m : SymbolId) : Prop := ∃ t, d.type? i = some t ∧ m ∈ ownMembers t

/-- There is a way along bases from the first type to the second that meets no type of the path. -/
inductive ReachesPast (d : Draft) (path : List TypeId) (i : TypeId) : TypeId → Prop
  | self : i ∉ path → ReachesPast d path i i
  | step {j k : TypeId} : ReachesPast d path i j → d.HasBase j k → k ∉ path → ReachesPast d path i k

theorem ReachesPast.not_mem (h : d.ReachesPast path i j) : i ∉ path := by
  induction h with
  | self hi => exact hi
  | step _ _ _ ih => exact ih

theorem ReachesPast.reaches (h : d.ReachesPast path i j) : ReflTransGen d.HasBase i j := by
  induction h with
  | self _ => exact .refl
  | step _ hbase _ ih => exact ih.tail hbase

theorem reachesPast_nil : d.ReachesPast [] i j ↔ ReflTransGen d.HasBase i j := by
  refine ⟨ReachesPast.reaches, fun h => ?_⟩
  induction h with
  | refl => exact .self List.not_mem_nil
  | tail _ hbase ih => exact .step ih hbase List.not_mem_nil

/-- After the last time that a way meets the type where it begins, it goes on from a base past the type. -/
theorem ReachesPast.split (h : d.ReachesPast path i j) : j = i ∨ ∃ k, d.HasBase i k ∧ d.ReachesPast (i :: path) k j := by
  induction h with
  | self _ => exact .inl rfl
  | @step j k _ hbase hk ih =>
    by_cases hki : k = i
    · exact .inl hki
    · have hpast : k ∉ i :: path := fun hmem => (List.mem_cons.1 hmem).elim hki hk
      rcases ih with rfl | ⟨first, hfirst, hway⟩
      · exact .inr ⟨k, hbase, .self hpast⟩
      · exact .inr ⟨first, hfirst, .step hway hbase hpast⟩

theorem ReachesPast.of_base (hi : i ∉ path) (hbase : d.HasBase i j) (h : d.ReachesPast (i :: path) j k) :
    d.ReachesPast path i k := by
  induction h with
  | self hj => exact .step (.self hi) hbase (mt (List.mem_cons_of_mem i) hj)
  | step _ hstep hk ih => exact .step ih hstep (mt (List.mem_cons_of_mem i) hk)

/-! ## Effective members -/

/-- Members come from types that are reached past the path. -/
theorem mem_effective {depth : Nat} {members : List SymbolId} (h : d.effective depth path id = some members) :
    ∀ m ∈ members, ∃ j, d.ReachesPast path id j ∧ d.Owns j m := by
  induction depth generalizing path id members with
  | zero => cases h
  | succ depth ih =>
    rcases effective_cases h with ⟨-, rfl⟩ | ⟨hid, t, lists, ht, hlists, rfl⟩
    · exact fun m hm => absurd hm List.not_mem_nil
    · intro m hm
      rcases List.mem_append.1 hm with hm | hm
      · exact ⟨id, .self hid, t, ht, hm⟩
      · obtain ⟨base, hbase, inherited, heffective, hm⟩ := exists_base hlists (mem_of_mem_fresh hm)
        obtain ⟨j, hj, hown⟩ := ih heffective m hm
        exact ⟨j, hj.of_base hid ⟨t, ht, base, hbase, rfl⟩, hown⟩

/-- Induction on the depth: a way past the path goes on from a base past the type as well, so that the base has the
name if the type has not. -/
theorem names_effective {depth : Nat} {members : List SymbolId} (h : d.effective depth path id = some members)
    (hj : d.ReachesPast path id j) (hm : d.Owns j m) : d.name? m ∈ d.names members := by
  induction depth generalizing path id members with
  | zero => cases h
  | succ depth ih =>
    rcases effective_cases h with ⟨hid, -⟩ | ⟨hid, t, lists, ht, hlists, rfl⟩
    · exact absurd hid hj.not_mem
    · rw [names, List.map_append, List.mem_append]
      rcases hj.split with rfl | ⟨k, ⟨t', ht', base, hbase, rfl⟩, hway⟩
      · obtain ⟨t', ht', hm⟩ := hm
        obtain rfl := Option.some.inj (ht.symm.trans ht')
        exact .inl (List.mem_map_of_mem hm)
      · obtain rfl := Option.some.inj (ht.symm.trans ht')
        obtain ⟨inherited, hinherited, heffective⟩ := exists_inherited hlists hbase
        obtain ⟨n, hn, hname⟩ := List.mem_map.1 (ih heffective hway)
        rw [← hname]
        exact mem_names_fresh (List.mem_flatten.2 ⟨inherited, hinherited, hn⟩)

/-- No type that is reached from this one has a way back to itself. -/
def AcyclicFrom (d : Draft) (i : TypeId) : Prop := ∀ j, ReflTransGen d.HasBase i j → ¬TransGen d.HasBase j j

theorem AcyclicFrom.base (h : d.AcyclicFrom i) (hbase : d.HasBase i j) : d.AcyclicFrom j :=
  fun k hk => h k (.head hbase hk)

/-- Nothing below a base leads back to the type. -/
theorem AcyclicFrom.past (h : d.AcyclicFrom i) (hbase : d.HasBase i j)
    (hpath : ∀ k, ReflTransGen d.HasBase i k → k ∉ path) : ∀ k, ReflTransGen d.HasBase j k → k ∉ i :: path := by
  intro k hk hmem
  rcases List.mem_cons.1 hmem with rfl | hmem
  · exact h k .refl (.head' hbase hk)
  · exact hpath k (.head hbase hk) hmem

/-- A type below which bases do not go round has the same members wherever it is met, if no type below it was met
before. -/
theorem effective_unique {depth depth' : Nat} {path' : List TypeId} {members members' : List SymbolId}
    (hacyclic : d.AcyclicFrom id) (hpath : ∀ j, ReflTransGen d.HasBase id j → j ∉ path)
    (hpath' : ∀ j, ReflTransGen d.HasBase id j → j ∉ path') (h : d.effective depth path id = some members)
    (h' : d.effective depth' path' id = some members') : members = members' := by
  induction depth generalizing depth' path path' id members members' with
  | zero => cases h
  | succ depth ih =>
    cases depth' with
    | zero => cases h'
    | succ depth' =>
      rcases effective_cases h with ⟨hid, -⟩ | ⟨hid, t, lists, ht, hlists, rfl⟩
      · exact absurd hid (hpath id .refl)
      rcases effective_cases h' with ⟨hid', -⟩ | ⟨hid', t', lists', ht', hlists', rfl⟩
      · exact absurd hid' (hpath' id .refl)
      obtain rfl := Option.some.inj (ht.symm.trans ht')
      have hbases : t.bases.map (fun base => d.effective depth (id :: path) (d.throughTarget base)) =
          t.bases.map fun base => d.effective depth' (id :: path') (d.throughTarget base) := by
        refine List.map_congr_left fun base hbase => ?_
        have hstep : d.HasBase id (d.throughTarget base) := ⟨t, ht, base, hbase, rfl⟩
        obtain ⟨inherited, -, hinherited⟩ := exists_inherited hlists hbase
        obtain ⟨inherited', -, hinherited'⟩ := exists_inherited hlists' hbase
        rw [hinherited, hinherited', ih (hacyclic.base hstep) (hacyclic.past hstep hpath)
          (hacyclic.past hstep hpath') hinherited hinherited']
      rw [hlists, hlists'] at hbases
      rw [List.map_injective_iff.2 (Option.some_injective _) hbases]

/-! ## Snapshots -/

/-- The effective members of a type in a snapshot: those that it was given if it has bases, and else its own. -/
def effectiveIn (s : Snapshot) (i : TypeId) : List SymbolId :=
  (s.types[i.val.toNat]?).elim [] fun e => if e.facts.bases.isEmpty then ownMembers e.facts else e.facts.members

/-- What a type of the draft inherits in the snapshot. -/
structure Inherits (d : Draft) (s : Snapshot) (i : TypeId) (t : HostType) (inherited : List SymbolId) : Prop where
  /-- Types above it own what it inherits. -/
  reached : ∀ m ∈ inherited, ∃ j, TransGen d.HasBase i j ∧ d.Owns j m
  distinct : (d.names inherited).Nodup
  apart : ∀ m ∈ inherited, d.name? m ∉ d.names (ownMembers t)
  /-- Its names are those that it owns or that types above it own. -/
  names : ∀ name, name ∈ d.names (ownMembers t ++ inherited) ↔
    ∃ j m, ReflTransGen d.HasBase i j ∧ d.Owns j m ∧ d.name? m = name
  /-- It has what its bases have in order, each name from the first base that has it. -/
  acyclic : d.AcyclicFrom i → inherited =
    d.fresh (d.names (ownMembers t)) (t.bases.flatMap fun base => effectiveIn s (d.throughTarget base))

/-- A snapshot is the draft with effective members. -/
structure Built (d : Draft) (s : Snapshot) : Prop where
  types : s.types.length = d.types.size
  symbols : s.symbols = number SymbolId.mk d.symbols.toList
  signatures : s.signatures = number SignatureId.mk d.signatures.toList
  global : s.global? = d.global?
  ambientModules : s.ambientModules = d.ambientModules.toList
  withoutBases : ∀ i t, d.type? i = some t → t.bases = [] → s.types[i.val.toNat]? = some ⟨i, t⟩
  withBases : ∀ i t, d.type? i = some t → t.bases ≠ [] → ∃ inherited,
    s.types[i.val.toNat]? = some ⟨i, { t with members := ownMembers t ++ inherited }⟩ ∧ Inherits d s i t inherited

theorem getElem?_number {ι α : Type} (make : UInt64 → ι) (facts : List α) (w : UInt64) :
    (number make facts)[w.toNat]? = (facts[w.toNat]?).map fun a => ⟨make w, a⟩ := by
  rw [number, List.getElem?_map, List.getElem?_zipIdx, Option.map_map]
  simp [Function.comp_def]

theorem snapshot?_eq_some : d.snapshot? = some s ↔
    (number TypeId.mk d.types.toList).mapM (fun e => (d.typeFacts e.id e.facts).map fun facts =>
        ({ e with facts } : TypeEntry)) = some s.types ∧
      s.symbols = number SymbolId.mk d.symbols.toList ∧ s.signatures = number SignatureId.mk d.signatures.toList ∧
      s.global? = d.global? ∧ s.ambientModules = d.ambientModules.toList := by
  unfold snapshot?
  simp only [Option.bind_eq_bind, Option.bind_eq_some_iff, Option.pure_def, Option.some.injEq]
  constructor
  · rintro ⟨types, htypes, rfl⟩
    exact ⟨htypes, rfl, rfl, rfl, rfl⟩
  · rintro ⟨htypes, hsymbols, hsignatures, hglobal, hmodules⟩
    exact ⟨s.types, htypes, by rw [← hsymbols, ← hsignatures, ← hglobal, ← hmodules]⟩

/-- Each type has the entry in its place. -/
theorem exists_entry {t : HostType} (h : d.snapshot? = some s) (ht : d.type? i = some t) :
    ∃ facts, d.typeFacts i t = some facts ∧ s.types[i.val.toNat]? = some ⟨i, facts⟩ := by
  have hget := getElem?_of_mapM (snapshot?_eq_some.1 h).1 i.val.toNat
  have ht : d.types[i.val.toNat]? = some t := ht
  rw [getElem?_number, Array.getElem?_toList, ht, Option.map_some, Option.map_some] at hget
  cases hentry : s.types[i.val.toNat]? with
  | none =>
    rw [hentry] at hget
    cases hget
  | some e =>
    rw [hentry, Option.map_some, Option.some.injEq] at hget
    obtain ⟨facts, hfacts, rfl⟩ := Option.map_eq_some_iff.1 hget.symm
    exact ⟨facts, hfacts, rfl⟩

theorem entry_of_withoutBases {t : HostType} (h : d.snapshot? = some s) (ht : d.type? i = some t) (hb : t.bases = []) :
    s.types[i.val.toNat]? = some ⟨i, t⟩ := by
  obtain ⟨facts, hfacts, hentry⟩ := exists_entry h ht
  rw [typeFacts, hb, List.isEmpty_nil, if_pos rfl] at hfacts
  rw [hentry, Option.some.inj hfacts]

theorem entry_of_withBases {t : HostType} (h : d.snapshot? = some s) (ht : d.type? i = some t) (hb : t.bases ≠ []) :
    ∃ members, d.effective (d.types.size + 1) [] i = some members ∧
      s.types[i.val.toNat]? = some ⟨i, { t with members }⟩ := by
  obtain ⟨facts, hfacts, hentry⟩ := exists_entry h ht
  rw [typeFacts, if_neg (by simpa using hb)] at hfacts
  obtain ⟨members, hmembers, rfl⟩ := Option.map_eq_some_iff.1 hfacts
  exact ⟨members, hmembers, hentry⟩

/-- What a base gives to a type is what the snapshot gives the base, if bases do not go round. -/
theorem effectiveIn_eq {depth : Nat} {members : List SymbolId} (h : d.snapshot? = some s) (hacyclic : d.AcyclicFrom i)
    (hpath : ∀ j, ReflTransGen d.HasBase i j → j ∉ path) (hmembers : d.effective depth path i = some members) :
    effectiveIn s i = members := by
  cases depth with
  | zero => cases hmembers
  | succ depth =>
    rcases effective_cases hmembers with ⟨hi, -⟩ | ⟨-, t, lists, ht, hlists, hown⟩
    · exact absurd hi (hpath i .refl)
    by_cases hb : t.bases = []
    · rw [effectiveIn, entry_of_withoutBases h ht hb, Option.elim_some, hb, List.isEmpty_nil, if_pos rfl]
      rw [hb, List.map_nil] at hlists
      rw [List.map_eq_nil_iff.1 hlists.symm] at hown
      rw [hown, List.flatten_nil, fresh, List.append_nil]
    · obtain ⟨members', hmembers', hentry⟩ := entry_of_withBases h ht hb
      rw [effectiveIn, hentry, Option.elim_some, if_neg (by simpa using hb)]
      exact effective_unique hacyclic (fun _ _ => List.not_mem_nil) hpath hmembers' hmembers

theorem exists_inherits {t : HostType} (h : d.snapshot? = some s) (ht : d.type? i = some t) (hb : t.bases ≠ []) :
    ∃ inherited, s.types[i.val.toNat]? = some ⟨i, { t with members := ownMembers t ++ inherited }⟩ ∧
      Inherits d s i t inherited := by
  obtain ⟨members, hmembers, hentry⟩ := entry_of_withBases h ht hb
  rcases effective_cases hmembers with ⟨hi, -⟩ | ⟨-, t', lists, ht', hlists, rfl⟩
  · exact absurd hi List.not_mem_nil
  obtain rfl := Option.some.inj (ht.symm.trans ht')
  have hbase : ∀ base ∈ t.bases, d.HasBase i (d.throughTarget base) := fun base hbase => ⟨t, ht, base, hbase, rfl⟩
  obtain ⟨hdistinct, hapart⟩ := fresh_spec (d := d) (d.names (ownMembers t)) lists.flatten
  refine ⟨_, hentry, ?_, hdistinct, hapart, fun name => ?_, fun hacyclic => ?_⟩
  · intro m hm
    obtain ⟨base, hmem, inherited, heffective, hm⟩ := exists_base hlists (mem_of_mem_fresh hm)
    obtain ⟨j, hj, hown⟩ := mem_effective heffective m hm
    exact ⟨j, .head' (hbase base hmem) hj.reaches, hown⟩
  · constructor
    · intro hname
      obtain ⟨m, hm, rfl⟩ := List.mem_map.1 hname
      obtain ⟨j, hj, hown⟩ := mem_effective hmembers m hm
      exact ⟨j, m, hj.reaches, hown, rfl⟩
    · rintro ⟨j, m, hj, hown, rfl⟩
      exact names_effective hmembers (reachesPast_nil.2 hj) hown
  · congr 1
    rw [List.flatMap_def]
    congr 1
    refine List.map_injective_iff.2 (Option.some_injective _) ?_
    rw [← hlists, List.map_map]
    refine List.map_congr_left fun base hmem => ?_
    obtain ⟨inherited, -, hinherited⟩ := exists_inherited hlists hmem
    have hpast := hacyclic.past (hbase base hmem) fun _ _ => List.not_mem_nil
    rw [hinherited, Function.comp_apply, effectiveIn_eq h (hacyclic.base (hbase base hmem)) hpast hinherited]

/-- What a history drafts is built with effective members. A history in which each step is given only ids that steps
before it answered does make a draft that can be built. -/
theorem built_of_history (history : List Operation) :
    (OwnIds history → ∃ d s, ofHistory? history = some d ∧ d.snapshot? = some s) ∧
      ∀ d s, ofHistory? history = some d → d.snapshot? = some s → Built d s := by
  constructor
  · intro hown
    obtain ⟨d, hd, hrange, -⟩ := ofHistory_of_ownIds hown
    obtain ⟨s, hs, -⟩ := exists_snapshot hrange
    exact ⟨d, s, hd, hs⟩
  · intro d s _ hs
    obtain ⟨htypes, hsymbols, hsignatures, hglobal, hmodules⟩ := snapshot?_eq_some.1 hs
    refine ⟨?_, hsymbols, hsignatures, hglobal, hmodules, fun _ _ => entry_of_withoutBases hs,
      fun _ _ => exists_inherits hs⟩
    have hmap := congrArg List.length (map_some_of_mapM htypes)
    simpa [length_number] using hmap

/-- A diamond whose top has the bottom as a base: two interfaces that extend a first, and one that extends both. -/
def diamond : List Operation :=
  [.interface "Top", .interface "Left", .interface "Right", .interface "Bottom", .extend ⟨1⟩ ⟨0⟩, .extend ⟨2⟩ ⟨0⟩,
    .extend ⟨3⟩ ⟨1⟩, .extend ⟨3⟩ ⟨2⟩, .extend ⟨0⟩ ⟨3⟩, .member ⟨0⟩ { name := "both", type := ⟨0⟩ },
    .member ⟨1⟩ { name := "left", type := ⟨0⟩ }, .member ⟨2⟩ { name := "right", type := ⟨0⟩ },
    .member ⟨2⟩ { name := "both", type := ⟨2⟩ }, .member ⟨3⟩ { name := "own", type := ⟨3⟩ }]

/-- The bottom has the member of the top, which it meets first on the left. -/
theorem built_of_history_diamond : OwnIds diamond ∧ ∃ d s, ofHistory? diamond = some d ∧ d.snapshot? = some s ∧
    Built d s ∧ d.names (effectiveIn s ⟨3⟩) = [some "own", some "left", some "both", some "right"] := by
  have hown : OwnIds diamond := by decide +kernel
  obtain ⟨hexists, hbuilt⟩ := built_of_history diamond
  obtain ⟨d, s, hd, hs⟩ := hexists hown
  have hnames : ((ofHistory? diamond).bind fun d => d.snapshot?.map fun s => d.names (effectiveIn s ⟨3⟩)) =
      some [some "own", some "left", some "both", some "right"] := by decide +kernel
  rw [hd, Option.bind_some, hs, Option.map_some, Option.some.injEq] at hnames
  exact ⟨hown, d, s, hd, hs, hbuilt d s hd hs, hnames⟩

end TypeBundle.Draft
