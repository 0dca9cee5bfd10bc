import TypeBundle.Proofs.Pass.Closure
import TypeBundle.Proofs.Pass.Reach
import TypeBundle.Proofs.Snapshot.Regular
/-!
# What a pass gives is what it can get to

Over a regular host the outcome of a pass is decided by what can be reached from its roots (`bundle_exact`).
It gives a bundle just if nothing is wrong there; its records are then those of the aliases, the classes and
interfaces and the object literals without an alias that are reached, one for each. So the order in which
roots are walked does not matter.

One direction follows the walk: it starts only what is reached. The other does not: whatever a finished pass
covers, it also covers what that leads to, so it covers everything that is reached.
-/

namespace TypeBundle

/-! ## Headings -/

/-- What a record says that depends on nothing but the identity it was made for. -/
structure Heading where
  name? : Option String
  qualifiedName? : Option String
  originFiles? : Option (List String)
  isAlias : Bool
  /-- How many type parameters are declared. -/
  arity : Nat
deriving DecidableEq

def Record.heading (r : Record) : Heading := ⟨r.name?, r.qualifiedName?, r.originFiles?, r.isAlias, r.generics.length⟩

/-- The heading of a record for the identity. -/
def Host.heading (host : Host) : Identity → Heading
  | .alias_ s =>
    let symbol := host.symbol s
    ⟨some symbol.name, some symbol.qualifiedName, some symbol.originFiles, true, symbol.aliasParameters.length⟩
  | .type t =>
    let symbol? := (host.type t).symbol?.map host.symbol
    if (host.type t).kind = .ok .anonymous then ⟨none, none, none, false, 0⟩
    else ⟨symbol?.map (·.name), symbol?.map (·.qualifiedName), symbol?.map (·.originFiles), false,
      (host.type t).typeParameters.length⟩

/-! ## One record for each identity -/

/-- The records of the bundle were made for the identities, which are those that get one. -/
structure Tabulated (host : Host) (settings : Settings) (roots : List SymbolId) (q : Progress) (b : Bundle)
    (keys : List Identity) : Prop where
  nodup : keys.Nodup
  mem : ∀ key, key ∈ keys ↔ host.GetsRecord settings roots key
  made : List.Forall₂ (MadeFor host settings q) keys b.records

theorem exists_forall₂ {α β : Type} {R : α → β → Prop} {bs : List β} (h : ∀ b ∈ bs, ∃ a, R a b) :
    ∃ as, List.Forall₂ R as bs := by
  induction bs with
  | nil => exact ⟨[], .nil⟩
  | cons b bs ih =>
    obtain ⟨a, ha⟩ := h b List.mem_cons_self
    obtain ⟨as, has⟩ := ih fun b hb => h b (List.mem_cons_of_mem _ hb)
    exact ⟨a :: as, .cons ha has⟩

/-- Records with different ids were made for different identities. -/
theorem nodup_of_made {host : Host} {settings : Settings} {q : Progress} {keys : List Identity} {records : List Record}
    (h : List.Forall₂ (MadeFor host settings q) keys records) (hids : (records.map (·.id)).Nodup) : keys.Nodup := by
  induction h with
  | nil => exact .nil
  | @cons key record keys records hkey hkeys ih =>
    rw [List.map_cons, List.nodup_cons] at hids
    refine List.nodup_cons.2 ⟨?_, ih hids.2⟩
    intro hmem
    obtain ⟨other, hother, hmade⟩ := exists_of_mem_left hkeys key hmem
    have hid : record.id = other.id := Option.some.inj (hkey.id.symm.trans hmade.id)
    exact hids.1 (hid ▸ List.mem_map_of_mem hother)

namespace Finished

variable {host : Host} {settings : Settings} {global : SymbolId} {modules : List SymbolId} {q : Progress} {b : Bundle}
variable {key other : Identity} {record : Record}
variable (h : Finished host settings global modules q b) (hr : host.Regular)
include h

theorem exists_root {r : SymbolId} (hmem : r ∈ global :: modules) : ∃ e, RepresentsRoot host q r e := by
  rcases List.mem_cons.1 hmem with rfl | hmem
  · exact ⟨_, h.global⟩
  · obtain ⟨m, -, hm⟩ := exists_of_mem_left h.modules r hmem
    exact ⟨_, hm.type⟩

include hr

/-- A finished pass covers everything that is reached. -/
theorem covered_of_reaches {x : Spot} (hx : host.Reaches settings (global :: modules) x) :
    Covered host settings q b x := by
  obtain ⟨r, hmem, t, ht, hreach⟩ := hx
  -- along the way from a root; being covered is what every step keeps
  induction hreach with
  | refl =>
    obtain ⟨e, t', ht', hrep⟩ := h.exists_root hmem
    obtain rfl := Option.some.inj (ht.symm.trans ht')
    exact ⟨e, hrep⟩
  | tail _ hstep ih => exact h.covered_of_leads hr hstep ih

theorem recorded_of_getsRecord (hkey : host.GetsRecord settings (global :: modules) key) :
    Recorded host settings q b key := by
  cases hkey with
  | alias_ hx => exact h.covered_of_reaches hr hx
  | declared hx => exact (h.covered_of_reaches hr hx).2
  | literal hx hk =>
    obtain ⟨⟨e, he⟩, -⟩ := h.covered_of_reaches hr hx
    obtain ⟨id, hid⟩ := registered_of_literal he hk
    exact h.recorded_type hr hid (.inr hk)

/-- An object literal that an alias names gets no record of its own. -/
theorem not_getsRecord_of_literalOf {s : SymbolId} {d : TypeId} (hl : host.IsLiteralOf s d) :
    ¬host.GetsRecord settings (global :: modules) (.type d) := by
  intro hkey
  cases hkey with
  | declared hx => exact hr.kind_ne_of_declared (h.covered_of_reaches hr hx).1 (hr.kind_of_literalOf hl)
  | literal hx hk =>
    have ha := (h.covered_of_reaches hr hx).2 hk
    rw [hr.alias_of_literalOf hl] at ha
    cases ha

/-- No two identities that get a record share it. -/
theorem eq_of_getsRecord {id : BundleId} (hkey : host.GetsRecord settings (global :: modules) key)
    (hother : host.GetsRecord settings (global :: modules) other) (hid : q.registry.get? key = some id)
    (hid' : q.registry.get? other = some id) : key = other := by
  rcases h.consistent.numbered.shared hid hid' with heq | ⟨s, d, hl, ⟨-, rfl⟩ | ⟨rfl, -⟩⟩
  · exact heq
  · exact absurd hother (h.not_getsRecord_of_literalOf hr hl)
  · exact absurd hkey (h.not_getsRecord_of_literalOf hr hl)

/-- Every record was made for an identity that gets one, if no other identities have been started. -/
theorem exists_getsRecord (hmay : ∀ {key id}, q.registry.get? key = some id →
    host.MayStart settings (global :: modules) key) (hrecord : record ∈ b.records) :
    ∃ key, host.GetsRecord settings (global :: modules) key ∧ MadeFor host settings q key record := by
  obtain ⟨key, hid⟩ := h.exists_identity hrecord
  cases hmay hid with
  | record hkey => exact ⟨key, hkey, hid, h.represents hrecord hid⟩
  | @literal s d hx hl =>
    -- a literal that is named stands for the alias that shares its record
    have hs := h.get?_literalOf hr hl hid
    cases hmay hs with
    | record hkey => exact ⟨_, hkey, hs, h.represents hrecord hs⟩
  | parameter hk => exact absurd (h.represents hrecord hid) (hr.parametersApart.not_represented (.inr hk))

theorem exists_tabulated (hmay : ∀ {key id}, q.registry.get? key = some id →
    host.MayStart settings (global :: modules) key) : ∃ keys, Tabulated host settings (global :: modules) q b keys := by
  obtain ⟨keys, hkeys⟩ := exists_forall₂ fun _ => h.exists_getsRecord hr hmay
  have hmade : List.Forall₂ (MadeFor host settings q) keys b.records := hkeys.imp fun _ _ => And.right
  refine ⟨keys, nodup_of_made hmade h.ids_nodup, fun key => ⟨?_, ?_⟩, hmade⟩
  · intro hmem
    obtain ⟨record, -, hkey, -⟩ := exists_of_mem_left hkeys key hmem
    exact hkey
  · -- the record of the identity was made for one of the list, and no other has it
    intro hkey
    obtain ⟨record, hrecord, hid, -⟩ := h.recorded_of_getsRecord hr hkey
    obtain ⟨other, hmem, hother, hid', -⟩ := exists_of_mem_right hkeys record hrecord
    obtain rfl := h.eq_of_getsRecord hr hkey hother hid hid'
    exact hmem

theorem heading_eq (hkey : host.GetsRecord settings (global :: modules) key) (hmade : MadeFor host settings q key record) :
    record.heading = host.heading key := by
  cases hkey with
  | alias_ _ =>
    cases hmade.represents with
    | alias_ _ hgs _ =>
      simp only [Record.heading, Host.generics_recordOfAlias, ← hgs.length_eq]
      rfl
  | declared hx =>
    obtain ⟨hd, -⟩ := h.covered_of_reaches hr hx
    obtain ⟨_, _, _, rfl, hgs, -⟩ := hr.declaration_of_represents hd hmade.represents
    simp only [Record.heading, Host.generics_recordOfType, ← hgs.length_eq, Host.heading,
      if_neg (hr.kind_ne_of_declared hd)]
    rfl
  | literal hx hk =>
    obtain ⟨-, ha⟩ := h.covered_of_reaches hr hx
    obtain ⟨_, _, rfl, -⟩ := hr.literal_of_represents (ha hk) hk hmade.represents
    simp only [Host.heading, hk, if_true]
    rfl

theorem headings_eq {keys : List Identity} (hkeys : Tabulated host settings (global :: modules) q b keys) :
    b.records.map (·.heading) = keys.map host.heading := by
  have hmade := (List.forall₂_and_left _ _).2 ⟨fun key => (hkeys.mem key).1, hkeys.made⟩
  rw [← List.forall₂_eq_eq_eq, List.forall₂_map_left_iff, List.forall₂_map_right_iff]
  exact (hmade.imp fun _ _ ⟨hkey, hmade⟩ => h.heading_eq hr hkey hmade).flip

end Finished

/-! ## Whole passes -/

namespace Tabulated

variable {host : Host} {settings : Settings} {roots roots' : List SymbolId} {q q' : Progress} {b b' : Bundle}
variable {keys keys' : List Identity}

/-- The same identities get a record if the roots are the same, in whatever order. -/
theorem perm (hroots : ∀ r, r ∈ roots ↔ r ∈ roots') (hkeys : Tabulated host settings roots q b keys)
    (hkeys' : Tabulated host settings roots' q' b' keys') : keys.Perm keys' := by
  refine (List.perm_ext_iff_of_nodup hkeys.nodup hkeys'.nodup).2 fun key => ?_
  rw [hkeys.mem, hkeys'.mem]
  exact ⟨.of_subset fun r => (hroots r).1, .of_subset fun r => (hroots r).2⟩

end Tabulated

namespace Snapshot

variable {s : Snapshot} {l : Loaded} {settings : Settings} {global : SymbolId} {modules : List SymbolId}

/-- A pass over a loaded snapshot, with the progress that it leaves. -/
def Loaded.pass (l : Loaded) (settings : Settings) (global : SymbolId) (modules : List SymbolId) :
    Except Stop Bundle × Progress := Walk.runFrom .start (Walk.bundle l.host settings l.depth global modules)

theorem Loaded.bundleOf_eq (l : Loaded) (settings : Settings) (global : SymbolId) (modules : List SymbolId) :
    l.bundleOf settings global modules = (l.pass settings global modules).1 := rfl

/-- What a pass gives is decided by what it can get to, in whatever order its roots are walked. -/
structure Exact (l : Loaded) (settings : Settings) (global : SymbolId) (modules : List SymbolId) : Prop where
  /-- A pass gives a bundle just if nothing is wrong with the host. -/
  succeeds : (∃ b, l.bundleOf settings global modules = .ok b) ↔ ∀ f, ¬l.host.Faulty settings global modules f
  /-- A pass fails only for what is wrong. -/
  fails : ∀ e, l.bundleOf settings global modules = .error e → ∃ f, e = .failed f ∧ l.host.Faulty settings global modules f
  /-- The records are those of the identities that get one. -/
  records : ∀ b q, l.pass settings global modules = (.ok b, q) →
    ∃ keys, Tabulated l.host settings (global :: modules) q b keys
  /-- Whether a pass gives a bundle does not depend on the order of the roots. -/
  succeeds_iff : ∀ global' modules', (∀ r, r ∈ global' :: modules' ↔ r ∈ global :: modules) →
    ((∃ b, l.bundleOf settings global' modules' = .ok b) ↔ ∃ b, l.bundleOf settings global modules = .ok b)
  /-- Nor does it matter for the records, apart from their ids. -/
  records_perm : ∀ global' modules', (∀ r, r ∈ global' :: modules' ↔ r ∈ global :: modules) →
    ∀ b q b' q', l.pass settings global modules = (.ok b, q) → l.pass settings global' modules' = (.ok b', q') →
      (b'.records.map (·.heading)).Perm (b.records.map (·.heading)) ∧
        ∃ keys keys', keys'.Perm keys ∧ List.Forall₂ (MadeFor l.host settings q) keys b.records ∧
          List.Forall₂ (MadeFor l.host settings q') keys' b'.records

/-- A pass hands out no more ids than there are types and symbols. -/
theorem Within.issued_le_two_pow (h : s.load = .ok l) (hn : s.types.length + s.symbols.length < 2 ^ 32)
    {roots : List SymbolId} {p : Progress} (hp : Within l settings roots p) : p.registry.issued ≤ 2 ^ 32 := by
  obtain ⟨rfl, -⟩ := load_spec h
  exact hp.issued_le.trans (Nat.le_of_lt hn)

section Pass

variable (h : s.load = .ok l) (hr : l.host.Regular) (hn : s.types.length + s.symbols.length < 2 ^ 32)
include h hr hn

theorem finished_of_pass {b : Bundle} {q : Progress} (hpass : l.pass settings global modules = (.ok b, q)) :
    Finished l.host settings global modules q b ∧ Within l settings (global :: modules) q := by
  have hwithin := roots_stays h hr settings l.depth global modules .start .start
  rw [(Walk.bundle_eq_ok.1 (Walk.runFrom_eq_ok hpass)).1] at hwithin
  exact ⟨Walk.finished_of_run hpass (hwithin.issued_le_two_pow h hn), hwithin⟩

theorem faulty_of_pass (hac : l.host.Acyclic) {e : Stop} {q : Progress}
    (hpass : l.pass settings global modules = (.error e, q)) :
    ∃ f, e = .failed f ∧ l.host.Faulty settings global modules f := by
  have herror := Walk.runFrom_eq_error hpass
  have hends := Loaded.ends_bundle h hac settings global modules .start (Nat.lt_succ_of_le (l.unstarted_le _))
  rw [herror] at hends
  have hwithin := roots_stays h hr settings l.depth global modules .start .start
  cases hroots : Walk.roots l.host settings l.depth global modules .start with
  | ok x q' =>
    rw [hroots] at hwithin
    obtain ⟨b, hb⟩ := Walk.exists_bundle_of_roots hroots (hwithin.issued_le_two_pow h hn)
    rw [hb] at herror
    cases herror
  | error e' q' =>
    rw [hroots] at hwithin
    rw [Walk.bundle_eq, Walk.seq_apply, hroots] at herror
    simp only [EStateM.Result.error.injEq] at herror
    obtain ⟨rfl, rfl⟩ := herror
    cases e' with
    | tooDeep => exact absurd rfl hends.2
    | failed f => exact ⟨f, rfl, hwithin.2⟩

variable (settings global modules) in
theorem succeeds_iff_not_faulty (hac : l.host.Acyclic) :
    (∃ b, l.bundleOf settings global modules = .ok b) ↔ ∀ f, ¬l.host.Faulty settings global modules f := by
  rw [Loaded.bundleOf_eq]
  cases hp : l.pass settings global modules with
  | mk outcome q =>
    cases outcome with
    | ok b =>
      obtain ⟨hf, -⟩ := finished_of_pass h hr hn hp
      refine ⟨fun _ => Host.not_faulty_iff.2 ⟨?_, ?_⟩, fun _ => ⟨b, rfl⟩⟩
      · intro r hmem hnone
        obtain ⟨e, t, ht, -⟩ := hf.exists_root hmem
        rw [ht] at hnone
        cases hnone
      · intro x hx f
        exact not_flawed_of_covered (hf.covered_of_reaches hr hx)
    | error e =>
      obtain ⟨f, -, hf⟩ := faulty_of_pass h hr hn hac hp
      refine ⟨fun hok => ?_, fun hnot => absurd hf (hnot f)⟩
      obtain ⟨b, hb⟩ := hok
      cases hb

end Pass

/-- A pass over a regular host gives a bundle of what it can get to, or fails for what is wrong there, in
whatever order it walks its roots. -/
theorem bundle_exact (h : s.load = .ok l) (hr : l.host.Regular) (hac : l.host.Acyclic)
    (hn : s.types.length + s.symbols.length < 2 ^ 32) (settings : Settings) (global : SymbolId)
    (modules : List SymbolId) : Exact l settings global modules := by
  have htabulated : ∀ {global modules b q}, l.pass settings global modules = (.ok b, q) →
      ∃ keys, Tabulated l.host settings (global :: modules) q b keys ∧
        b.records.map (·.heading) = keys.map l.host.heading := by
    intro global modules b q hpass
    obtain ⟨hf, hwithin⟩ := finished_of_pass h hr hn hpass
    obtain ⟨keys, hkeys⟩ := hf.exists_tabulated hr hwithin.started
    exact ⟨keys, hkeys, hf.headings_eq hr hkeys⟩
  constructor
  · exact succeeds_iff_not_faulty settings global modules h hr hn hac
  · intro e he
    apply faulty_of_pass h hr hn hac (q := (l.pass settings global modules).2)
    rw [← he, Loaded.bundleOf_eq]
  · intro b q hpass
    obtain ⟨keys, hkeys, -⟩ := htabulated hpass
    exact ⟨keys, hkeys⟩
  · intro global' modules' hroots
    rw [succeeds_iff_not_faulty settings global' modules' h hr hn hac,
      succeeds_iff_not_faulty settings global modules h hr hn hac, Host.not_faulty_iff, Host.not_faulty_iff]
    refine and_congr (forall_congr' fun r => imp_congr (hroots r) Iff.rfl) ?_
    refine forall_congr' fun x => imp_congr ⟨?_, ?_⟩ Iff.rfl
    · exact .of_subset fun r => (hroots r).1
    · exact .of_subset fun r => (hroots r).2
  · intro global' modules' hroots b q b' q' hpass hpass'
    obtain ⟨keys, hkeys, hheadings⟩ := htabulated hpass
    obtain ⟨keys', hkeys', hheadings'⟩ := htabulated hpass'
    have hperm : keys'.Perm keys := hkeys'.perm hroots hkeys
    refine ⟨?_, keys, keys', hperm, hkeys.made, hkeys'.made⟩
    rw [hheadings, hheadings']
    exact hperm.map _

/-- Classes, interfaces and literals of a global scope and of two modules. -/
theorem bundle_exact_nodeLike : ∃ s l, Sample.nodeLike.snapshot? = some s ∧ s.load = .ok l ∧
    (∃ b, l.bundle default = .ok b) ∧ Exact l default l.global l.snapshot.ambientModules := by
  obtain ⟨l, hl, hcheck⟩ := (Option.any_eq_true _ _).1 (by decide +kernel : (Sample.nodeLike.loaded?.any fun l =>
    l.isRegular && l.isRanked && l.snapshot.types.length + l.snapshot.symbols.length < 2 ^ 32 &&
      (l.bundle default).toBool) = true)
  simp only [Bool.and_eq_true, decide_eq_true_eq] at hcheck
  obtain ⟨⟨⟨hregular, hranked⟩, hn⟩, hbundle⟩ := hcheck
  obtain ⟨s, hs, hload⟩ := Sample.load_of_loaded hl
  obtain ⟨rfl, -⟩ := load_spec hload
  refine ⟨_, l, hs, hload, ?_, bundle_exact hload (regular_of_isRegular hload hregular)
    (acyclic_of_isRanked hload hranked) hn default l.global l.snapshot.ambientModules⟩
  cases hb : l.bundle default with
  | ok b => exact ⟨b, rfl⟩
  | error e =>
    rw [hb] at hbundle
    cases hbundle

end Snapshot

end TypeBundle
