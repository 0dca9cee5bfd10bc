import TypeBundle.Proofs.Draft.Names
import TypeBundle.Proofs.Pass.Finished
import TypeBundle.Proofs.Pass.Opaque
/-!
# Names that reach the bundle

A pass over what a history drafts names the ambient modules and the members of classes and interfaces as the history
does, except that of each name only what stands after its last point is left (`bundle_names_of_history`). A name
without a point reaches the bundle as it is given; members whose names differ only before the last point become one.
-/

namespace TypeBundle

namespace Draft

open Snapshot

/-! ## Drafts and their hosts -/

section Host

variable {d : Draft} {s : Snapshot} {l : Loaded}

/-- A table in which no number occurs twice is no longer than words can number. -/
theorem length_le_of_nodup {ι : Type} {id : UInt64 → ι} {n : Nat}
    (h : ((List.range n).map fun i => id i.toUInt64).Nodup) : n ≤ UInt64.size := by
  by_contra hlt
  -- Behind the last word the numbers begin again.
  have hsame : id (0 : Nat).toUInt64 = id UInt64.size.toUInt64 := rfl
  have hzero := List.inj_on_of_nodup_map h (List.mem_range.2 (by omega)) (List.mem_range.2 (by omega)) hsame
  cases hzero

theorem sizes_of_load (hs : d.snapshot? = some s) (hl : s.load = .ok l) :
    d.symbols.size ≤ UInt64.size ∧ d.types.size ≤ UInt64.size := by
  obtain ⟨htypes, hsymbols, -, -, -⟩ := snapshot?_eq_some.1 hs
  have hwell : s.WellFormed := load_iff_wellFormed.1 ⟨l, hl⟩
  have hids : s.types.map (·.id) = (number TypeId.mk d.types.toList).map (·.id) := map_of_mapM htypes fun e b hb => by
    obtain ⟨facts, -, rfl⟩ := Option.map_eq_some_iff.1 hb
    rfl
  constructor
  · have hnodup := hwell.distinctSymbols
    rw [hsymbols, ids_number, Array.length_toList] at hnodup
    exact length_le_of_nodup hnodup
  · have hnodup := hwell.distinctTypes
    rw [hids, ids_number, Array.length_toList] at hnodup
    exact length_le_of_nodup hnodup

/-- The host of a draft names symbols as the draft does. -/
theorem name_of_load (hs : d.snapshot? = some s) (hl : s.load = .ok l) {x : SymbolId} {name : String}
    (hname : d.name? x = some name) : (l.host.symbol x).name = name := by
  obtain ⟨facts, hfacts, rfl⟩ := Option.map_eq_some_iff.1 hname
  have hfacts : d.symbols[x.val.toNat]? = some facts := hfacts
  have hentry : s.symbols[x.val.toNat]? = some ⟨x, facts⟩ := by
    rw [(snapshot?_eq_some.1 hs).2.1, getElem?_number, Array.getElem?_toList, hfacts]
    rfl
  rw [host_symbol_of_mem hl (List.mem_of_getElem? hentry)]

theorem names_of_load (hs : d.snapshot? = some s) (hl : s.load = .ok l) {ms : List SymbolId} {names : List String}
    (hnames : d.names ms = names.map some) : ms.map (fun m => (l.host.symbol m).name) = names := by
  have hsome : ms.map (fun m => some (l.host.symbol m).name) = d.names ms := by
    refine List.map_congr_left fun m hm => ?_
    obtain ⟨name, hname⟩ := exists_name hnames hm
    rw [name_of_load hs hl hname, hname]
  refine List.map_injective_iff.2 (Option.some_injective _) ?_
  rw [← hnames, ← hsome, List.map_map]
  rfl

/-- The host of a draft tells the members of a type apart as the draft does. -/
theorem declaredMembers_of_load (hs : d.snapshot? = some s) (hl : s.load = .ok l) {t : TypeId} {x : HostType}
    (hx : d.type? t = some x) : (l.host.type t).declaredMembers? = x.declaredMembers? := by
  obtain ⟨facts, hfacts, hentry⟩ := exists_entry hs hx
  rw [host_type_of_mem hl (List.mem_of_getElem? hentry)]
  unfold typeFacts at hfacts
  split at hfacts
  · rw [Option.some.inj hfacts]
  · obtain ⟨members, -, rfl⟩ := Option.map_eq_some_iff.1 hfacts
    rfl

end Host

end Draft

/-! ## Passes -/

section Pass

variable {host : Host} {settings : Settings} {depth : Nat} {global : SymbolId} {modules : List SymbolId}
variable {p q : Progress} {b : Bundle}

/-- The modules of a bundle have the names of their symbols. -/
theorem Walk.names_of_modules {ms : List AmbientModule}
    (h : modules.mapM (ambientModule host settings depth) p = .ok ms q) :
    ms.map (·.name) = modules.map fun m => (host.symbol m).name := by
  induction modules generalizing p ms with
  | nil =>
    cases h
    rfl
  | cons m modules ih =>
    rw [List.mapM_cons] at h
    obtain ⟨x, q₁, hx, h⟩ := seq_eq_ok.1 h
    obtain ⟨xs, q₂, hxs, hpure⟩ := seq_eq_ok.1 h
    cases hpure
    obtain ⟨e, q₃, -, hpure⟩ := seq_eq_ok.1 hx
    cases hpure
    rw [List.map_cons, List.map_cons, ih hxs]

/-- A record of a type has the names of the members that a pass reads. -/
theorem Finished.names_of_record {record : Record} {t : TypeId} (h : Finished host settings global modules q b)
    (hrecord : record ∈ b.records) (ht : q.registry.get? (.type t) = some record.id) :
    ∃ shape, record.body = .shape shape ∧ Member.Ascending shape.members ∧ ∀ name,
      name ∈ shape.members.map (·.name) ↔
        name ∈ (Walk.selectedMembers settings (host.type t)).map fun m => (host.symbol m).name := by
  obtain ⟨owner?, shape, hbody, hshape⟩ := (h.represents hrecord ht).shape ht
  obtain ⟨ms, hms, hlast⟩ := hshape.members
  refine ⟨shape, hbody, hlast.ascending, fun name => ?_⟩
  -- Each member that the record represents has the name of its symbol, and of those with one name the last is kept.
  have hnames : ms.map (·.name) = (Walk.selectedMembers settings (host.type t)).map fun m => (host.symbol m).name := by
    rw [← List.forall₂_eq_eq_eq, List.forall₂_map_left_iff, List.forall₂_map_right_iff]
    exact (hms.imp fun _ _ hm => hm.name).flip
  rw [hlast.mem_names, hnames]

/-- The ambient modules and the members of classes and interfaces have the last segments of their names in the history;
the last segment of a name is the name itself just if it has no point. -/
theorem bundle_names_of_history {history : List Draft.Operation} {d : Draft} {s : Snapshot} {l : Snapshot.Loaded}
    (hd : Draft.ofHistory? history = some d) (hs : d.snapshot? = some s) (hl : s.load = .ok l)
    (hrun : Walk.runFrom .start (Walk.bundle l.host default depth l.global l.snapshot.ambientModules) = (.ok b, q)) :
    b.ambientModules.map (·.name) = (Draft.moduleNames history).map Draft.lastSegment ∧
      (q.registry.issued ≤ 2 ^ 32 → ∀ t ∈ Draft.declared history, ∀ record ∈ b.records,
        q.registry.get? (.type t) = some record.id →
          ∃ shape, record.body = .shape shape ∧ Member.Ascending shape.members ∧ ∀ name,
            name ∈ shape.members.map (·.name) ↔ name ∈ (Draft.memberNames t history).map Draft.lastSegment) ∧
      ∀ name, Draft.lastSegment name = name ↔ '.' ∉ name.toList := by
  obtain ⟨hsymbols, htypes⟩ := Draft.sizes_of_load hs hl
  obtain ⟨hmodules, hmembers⟩ := Draft.names_of_history hd hsymbols htypes
  refine ⟨?_, fun hn t ht record hrecord hid => ?_, Draft.lastSegment_eq_self_iff⟩
  · obtain ⟨e, q₁, -, hrest⟩ := Walk.seq_eq_ok.1 (Walk.bundle_eq_ok.1 (Walk.runFrom_eq_ok hrun)).1
    obtain ⟨ms, q₂, hms, hpure⟩ := Walk.seq_eq_ok.1 hrest
    cases hpure
    rw [Walk.names_of_modules hms, (Snapshot.load_spec hl).1, (Draft.snapshot?_eq_some.1 hs).2.2.2.2]
    exact Draft.names_of_load hs hl hmodules
  · obtain ⟨x, ms, hx, hown, hnames⟩ := hmembers t ht
    obtain ⟨shape, hbody, hascending, hshape⟩ := (Walk.finished_of_run hrun hn).names_of_record hrecord hid
    have hselected : Walk.selectedMembers default (l.host.type t) = ms := by
      change (l.host.type t).declaredMembers?.getD _ = ms
      rw [Draft.declaredMembers_of_load hs hl hx, hown, Option.getD_some]
    refine ⟨shape, hbody, hascending, fun name => ?_⟩
    rw [hshape, hselected, Draft.names_of_load hs hl hnames]

end Pass

namespace Draft

/-- Whether a pass over what a history drafts gives a bundle that passes a check. -/
def passes (history : List Operation) (check : Bundle → Progress → Bool) : Bool :=
  (ofHistory? history).any fun d => d.snapshot?.any fun s => s.load.toOption.any fun l =>
    match Walk.runFrom .start (Walk.bundle l.host default l.depth l.global l.snapshot.ambientModules) with
    | (.ok b, q) => check b q
    | (.error _, _) => false

theorem exists_pass {history : List Operation} {check : Bundle → Progress → Bool} (h : passes history check = true) :
    ∃ d s l b q, ofHistory? history = some d ∧ d.snapshot? = some s ∧ s.load = .ok l ∧
      Walk.runFrom .start (Walk.bundle l.host default l.depth l.global l.snapshot.ambientModules) = (.ok b, q) ∧
        check b q = true := by
  obtain ⟨d, hd, hs⟩ := (Option.any_eq_true _ _).1 h
  obtain ⟨s, hs, hl⟩ := (Option.any_eq_true _ _).1 hs
  obtain ⟨l, hl, hrun⟩ := Snapshot.exists_ok_of_any hl
  split at hrun
  · rename_i b q hb
    exact ⟨d, s, l, b, q, hd, hs, hl, hb, hrun⟩
  · cases hrun

/-- Whether the type has a record that passes a check. -/
def records (t : TypeId) (check : Record → Bool) (b : Bundle) (q : Progress) : Bool :=
  b.records.any fun record => decide (q.registry.get? (.type t) = some record.id) && check record

theorem exists_record {t : TypeId} {check : Record → Bool} {b : Bundle} {q : Progress}
    (h : records t check b q = true) :
    ∃ record ∈ b.records, q.registry.get? (.type t) = some record.id ∧ check record = true := by
  obtain ⟨record, hrecord, hcheck⟩ := List.any_eq_true.1 h
  rw [Bool.and_eq_true, decide_eq_true_eq] at hcheck
  exact ⟨record, hrecord, hcheck⟩

/-- A module, and an interface with two members. -/
def plain : List Operation :=
  [.global, .ambientModule "fs", .interface "Config", .member ⟨0⟩ { name := "config", type := ⟨2⟩ },
    .member ⟨2⟩ { name := "parent", type := ⟨2⟩ }, .member ⟨2⟩ { name := "scope", type := ⟨0⟩ }]

end Draft

/-- Names without points reach the bundle. -/
theorem bundle_names_of_history_plain : ∃ d s l b q, Draft.ofHistory? Draft.plain = some d ∧ d.snapshot? = some s ∧
    s.load = .ok l ∧
      Walk.runFrom .start (Walk.bundle l.host default l.depth l.global l.snapshot.ambientModules) = (.ok b, q) ∧
        b.ambientModules.map (·.name) = ["\"fs\""] ∧ ⟨2⟩ ∈ Draft.declared Draft.plain ∧ ∃ record ∈ b.records,
          q.registry.get? (.type ⟨2⟩) = some record.id ∧ ∃ shape, record.body = .shape shape ∧
            ∀ name, name ∈ shape.members.map (·.name) ↔ name ∈ ["parent", "scope"] := by
  obtain ⟨d, s, l, b, q, hd, hs, hl, hrun, hcheck⟩ := Draft.exists_pass (by decide +kernel :
    Draft.passes Draft.plain (fun b q => Draft.records ⟨2⟩ (fun _ => true) b q && q.registry.issued ≤ 2 ^ 32) = true)
  rw [Bool.and_eq_true, decide_eq_true_eq] at hcheck
  obtain ⟨record, hrecord, hid, -⟩ := Draft.exists_record hcheck.1
  have hdeclared : ⟨2⟩ ∈ Draft.declared Draft.plain := by decide +kernel
  obtain ⟨hmodules, hmembers, -⟩ := bundle_names_of_history hd hs hl hrun
  obtain ⟨shape, hbody, -, hnames⟩ := hmembers hcheck.2 ⟨2⟩ hdeclared record hrecord hid
  have hfs : (Draft.moduleNames Draft.plain).map Draft.lastSegment = ["\"fs\""] := by decide +kernel
  have hconfig : (Draft.memberNames ⟨2⟩ Draft.plain).map Draft.lastSegment = ["parent", "scope"] := by decide +kernel
  exact ⟨d, s, l, b, q, hd, hs, hl, hrun, hmodules.trans hfs, hdeclared, record, hrecord, hid, shape, hbody,
    fun name => hconfig ▸ hnames name⟩

namespace Draft

/-- A module and members with points in their names. -/
def pointed : List Operation :=
  [.global, .ambientModule "fs.promises", .raw TypeFlags.string .empty, .interface "Config",
    .member ⟨0⟩ { name := "config", type := ⟨3⟩ }, .member ⟨3⟩ { name := "a.b", type := ⟨2⟩ },
    .member ⟨3⟩ { name := "c.b", type := ⟨3⟩ }]

/-- Names with points do not: the module is cut, and of two members one is left. -/
theorem names_lost_pointed : OwnIds pointed ∧ moduleNames pointed = ["\"fs.promises\""] ∧
    memberNames ⟨3⟩ pointed = ["a.b", "c.b"] ∧ ⟨3⟩ ∈ declared pointed ∧
      ∃ d s l b q, ofHistory? pointed = some d ∧ d.snapshot? = some s ∧ s.load = .ok l ∧
        Walk.runFrom .start (Walk.bundle l.host default l.depth l.global l.snapshot.ambientModules) = (.ok b, q) ∧
          b.ambientModules.map (·.name) = ["promises\""] ∧ ∃ record ∈ b.records,
            q.registry.get? (.type ⟨3⟩) = some record.id ∧
              record.body.shape?.map (·.members.map (·.name)) = some ["b"] := by
  obtain ⟨d, s, l, b, q, hd, hs, hl, hrun, hcheck⟩ := exists_pass (by decide +kernel :
    passes pointed (fun b q => decide (b.ambientModules.map (·.name) = ["promises\""]) &&
      records ⟨3⟩ (fun record => decide (record.body.shape?.map (·.members.map (·.name)) = some ["b"])) b q) = true)
  rw [Bool.and_eq_true, decide_eq_true_eq] at hcheck
  obtain ⟨record, hrecord, hid, hmembers⟩ := exists_record hcheck.2
  exact ⟨by decide +kernel, by decide +kernel, by decide +kernel, by decide +kernel, d, s, l, b, q, hd, hs, hl, hrun,
    hcheck.1, record, hrecord, hid, of_decide_eq_true hmembers⟩

end Draft

end TypeBundle
