import TypeBundle.Pass.Run
import TypeBundle.Proofs.Snapshot.Loading
import TypeBundle.Proofs.Walk.Rules
/-!
# Finished passes

A pass walks its roots and then freezes the table. When it gives a bundle no record is under construction,
the records of the bundle are those of the table, and the roots are represented (`finished_of_run`).
-/

namespace TypeBundle

/-- The expression is what a bundle says about the type of a symbol. -/
def RepresentsRoot (host : Host) (q : Progress) (s : SymbolId) (e : TypeExpr) : Prop :=
  ∃ t, (host.symbol s).type? = some t ∧ Represents host q .written t e

/-- A module of a bundle is what it says about the symbol of the module. -/
structure RepresentsModule (host : Host) (q : Progress) (s : SymbolId) (m : AmbientModule) : Prop where
  name : m.name = (host.symbol s).name
  type : RepresentsRoot host q s m.type

/-- How a pass that gives a bundle ends. -/
structure Finished (host : Host) (settings : Settings) (global : SymbolId) (modules : List SymbolId) (q : Progress)
    (b : Bundle) : Prop where
  consistent : Consistent host settings (fun _ => False) q
  frozen : q.table.freeze = .ok b.records
  global : RepresentsRoot host q global b.globalType
  modules : List.Forall₂ (RepresentsModule host q) modules b.ambientModules

namespace Walk

variable {host : Host} {settings : Settings} {depth : Nat} {global : SymbolId} {modules : List SymbolId}

/-- A pass gives a bundle if its roots can be walked and no record is left under construction. -/
theorem bundle_eq_ok {p q : Progress} {b : Bundle} : bundle host settings depth global modules p = .ok b q ↔
    roots host settings depth global modules p = .ok (b.globalType, b.ambientModules) q ∧
      q.table.freeze = .ok b.records := by
  rw [bundle_eq, seq_apply]
  cases roots host settings depth global modules p with
  | error e q' => simp
  | ok x q' =>
    simp only [seq_apply, freeze_apply]
    cases hf : q'.table.freeze with
    | error id =>
      simp only [reduceCtorEq, false_iff, not_and, EStateM.Result.ok.injEq]
      rintro ⟨-, rfl⟩
      simp [hf]
    | ok records =>
      simp only [Pure.pure, EStateM.pure, EStateM.Result.ok.injEq]
      constructor
      · rintro ⟨rfl, rfl⟩
        exact ⟨⟨rfl, rfl⟩, hf⟩
      · rintro ⟨⟨rfl, rfl⟩, h⟩
        rw [hf] at h
        cases h
        exact ⟨rfl, rfl⟩

theorem runFrom_eq_ok {α : Type} {w : Walk α} {p q : Progress} {a : α} (h : runFrom p w = (.ok a, q)) :
    w p = .ok a q := by
  unfold runFrom EStateM.run at h
  split at h <;> simp_all

theorem runFrom_eq_error {α : Type} {w : Walk α} {p q : Progress} {e : Stop} (h : runFrom p w = (.error e, q)) :
    w p = .error e q := by
  unfold runFrom EStateM.run at h
  split at h <;> simp_all

theorem root_yields (missing : String → Unexpected) (s : SymbolId) :
    Yields host settings (root host settings depth missing s) fun r e => RepresentsRoot host r s e :=
  .orUnexpected_bind fun t ht => (resolve_yields depth t).weaken fun _ _ h => ⟨t, ht, h⟩

theorem roots_yields : Yields host settings (roots host settings depth global modules) fun r x =>
    RepresentsRoot host r global x.1 ∧ List.Forall₂ (RepresentsModule host r) modules x.2 := by
  have hmodule : ∀ s, Yields host settings (ambientModule host settings depth s) fun r m => RepresentsModule host r s m :=
    fun s => .bind (root_yields _ s) fun _ => .pure fun _ h => ⟨rfl, h⟩
  exact .bind (root_yields _ global) fun _ => .bind (.mapM fun s _ => hmodule s) fun _ => .pure fun _ hm hg => ⟨hg, hm⟩

theorem consistent_of_roots {q : Progress} {x : TypeExpr × List AmbientModule}
    (h : roots host settings depth global modules .start = .ok x q) (hn : q.registry.issued ≤ 2 ^ 32) :
    Consistent host settings (fun _ => False) q ∧ RepresentsRoot host q global x.1 ∧
      List.Forall₂ (RepresentsModule host q) modules x.2 := by
  have hroots : Yields host settings (roots host settings depth global modules) _ := roots_yields
  have hyields := hroots.from_ .start
  rw [YieldsFrom, h] at hyields
  obtain ⟨hc, -, -, hpost⟩ := hyields hn
  exact ⟨hc, hpost q (.refl q)⟩

/-- A pass that gives a bundle has finished what it began. -/
theorem finished_of_run {q : Progress} {b : Bundle}
    (h : runFrom .start (bundle host settings depth global modules) = (.ok b, q)) (hn : q.registry.issued ≤ 2 ^ 32) :
    Finished host settings global modules q b := by
  obtain ⟨hroots, hfreeze⟩ := bundle_eq_ok.1 (runFrom_eq_ok h)
  obtain ⟨hc, hglobal, hmodules⟩ := consistent_of_roots hroots hn
  exact ⟨hc, hfreeze, hglobal, hmodules⟩

/-- A pass gives a bundle as soon as its roots can be walked. -/
theorem exists_bundle_of_roots {q : Progress} {x : TypeExpr × List AmbientModule}
    (h : roots host settings depth global modules .start = .ok x q) (hn : q.registry.issued ≤ 2 ^ 32) :
    ∃ b, bundle host settings depth global modules .start = .ok b q := by
  obtain ⟨records, hrecords⟩ := RecordTable.exists_freeze (consistent_of_roots h hn).1.slot?_ne_empty
  exact ⟨⟨x.1, x.2, records⟩, bundle_eq_ok.2 ⟨h, hrecords⟩⟩

end Walk

namespace Finished

variable {host : Host} {settings : Settings} {global : SymbolId} {modules : List SymbolId} {q : Progress} {b : Bundle}

/-- The records of the bundle are those of the table. -/
theorem mem_records (h : Finished host settings global modules q b) (record : Record) :
    record ∈ b.records ↔ q.table.get? record.id = some record :=
  RecordTable.mem_of_freeze h.frozen h.consistent.keyed record

theorem ids_ascending (h : Finished host settings global modules q b) : b.ids.Pairwise (· < ·) :=
  RecordTable.ids_of_freeze h.frozen h.consistent.keyed

theorem ids_nodup (h : Finished host settings global modules q b) : b.ids.Nodup :=
  h.ids_ascending.imp fun hlt => by
    rintro rfl
    exact absurd hlt (UInt32.lt_irrefl _)

/-- Every identity with an id is a type parameter without a record, or has a record that represents it. -/
theorem settled (h : Finished host settings global modules q b) {key : Identity} {id : BundleId}
    (hkey : q.registry.get? key = some id) :
    (q.table.slot? id = none ∧ ∃ t, key = .type t ∧ host.IsParameter t) ∨
      ∃ record ∈ b.records, record.id = id ∧ RepresentsRecord host settings q key record := by
  rcases h.consistent.settled hkey False.elim with hp | ⟨record, hr, hrep⟩
  · exact .inl hp
  · have hid : record.id = id := h.consistent.keyed id record (RecordTable.get?_eq_some.1 hr)
    exact .inr ⟨record, (h.mem_records record).2 (by rw [hid]; exact hr), hid, hrep q (.refl q)⟩

/-- A record represents every identity that has its id. -/
theorem represents (h : Finished host settings global modules q b) {record : Record} (hr : record ∈ b.records)
    {key : Identity} (hkey : q.registry.get? key = some record.id) : RepresentsRecord host settings q key record := by
  have hget := (h.mem_records record).1 hr
  rcases h.consistent.settled hkey False.elim with ⟨hnone, -⟩ | ⟨record', hr', hrep⟩
  · rw [RecordTable.get?_eq_some.1 hget] at hnone
    cases hnone
  · rw [hget] at hr'
    cases hr'
    exact hrep q (.refl q)

/-- The id of every record is that of an identity. -/
theorem exists_identity (h : Finished host settings global modules q b) {record : Record} (hr : record ∈ b.records) :
    ∃ key, q.registry.get? key = some record.id :=
  h.consistent.numbered.used (h.consistent.slot_lt (RecordTable.get?_eq_some.1 ((h.mem_records record).1 hr)))

end Finished

/-! ## Samples -/

namespace Sample

/-- Whether a pass over the global scope of a sample gives a bundle before its ids run out. -/
def passes (x : Sample) : Bool :=
  x.loaded?.any fun l =>
    let (b, q) := Walk.runFrom .start (Walk.bundle l.host default l.depth l.global [])
    b.toOption.isSome && q.registry.issued < 2 ^ 32

/-- The samples that a pass refuses are known. -/
theorem passes_eq_resolves (x : Sample) : x.passes = x.resolves := by
  cases x <;> decide +kernel

theorem exists_run {x : Sample} (h : x.resolves = true) :
    ∃ (s : Snapshot) (l : Snapshot.Loaded) (b : Bundle) (q : Progress), x.loaded? = some l ∧ s.load = .ok l ∧
      Walk.runFrom .start (Walk.bundle l.host default l.depth l.global []) = (.ok b, q) ∧
        q.registry.issued < 2 ^ 32 := by
  obtain ⟨l, hl, hrun⟩ := (Option.any_eq_true _ _).1 (x.passes_eq_resolves.trans h)
  obtain ⟨s, -, hload⟩ := load_of_loaded hl
  cases hr : Walk.runFrom .start (Walk.bundle l.host default l.depth l.global []) with
  | mk outcome q =>
    simp only [hr, Bool.and_eq_true, decide_eq_true_eq] at hrun
    cases outcome with
    | error e => cases hrun.1
    | ok b => exact ⟨s, l, b, q, hl, hload, hr, hrun.2⟩

end Sample

end TypeBundle
