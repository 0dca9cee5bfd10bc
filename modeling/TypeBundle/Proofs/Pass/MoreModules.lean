import TypeBundle.Proofs.Pass.Session
/-!
# More modules at the end

A pass over more modules begins like the pass over the first ones, and what follows only adds: ids that have been
handed out keep their slots, or stay without one, and new records get greater ids. So the pass over the first modules
gives the beginning of the longer bundle (`bundle_of_more_modules`).
-/

namespace TypeBundle

/-! ## Slots of ids that have been handed out -/

section Orderly

variable {host : Host} {past es : List Event} {tasks : List Task} {id : BundleId}

/-- A record whose id had been handed out at some moment had been begun by then, if ever. -/
theorem Orderly.began_of_issued (h : Orderly host es tasks) (hpast : past <:+ es)
    (hn : (replay es).registry.issued ≤ 2 ^ 32) (hid : id.val.toNat < (replay past).registry.issued) {key : Identity}
    (hb : .began key id ∈ es) : .began key id ∈ past := by
  induction h with
  | start => cases hb
  | @began before tasks other _ hk ih =>
    rcases List.suffix_cons_iff.1 hpast with rfl | hpast
    · exact hb
    · rcases List.mem_cons.1 hb with heq | hb
      · -- the id of a record that is begun later is a new one
        obtain rfl : id = (replay before).registry.next := (Event.began.inj heq).2
        have hle := (extends_of_suffix hpast).issued
        rw [Registry.toNat_next (issued_lt_of_reserve hk hn)] at hid
        exact absurd hle (Nat.not_le_of_lt hid)
      · exact ih hpast (issued_le_of_cons hn) hb
  | issued _ _ ih | expanded _ _ ih | bound _ _ _ ih | ended _ _ ih =>
    rcases List.suffix_cons_iff.1 hpast with rfl | hpast
    · exact hb
    · exact ih hpast (issued_le_of_cons hn) (by simpa using hb)

/-- The slot of an id that has been handed out stays as it is unless it is empty, also if there is none. -/
theorem Orderly.slot?_of_issued (h : Orderly host es tasks) (hpast : past <:+ es)
    (hn : (replay es).registry.issued ≤ 2 ^ 32) (hid : id.val.toNat < (replay past).registry.issued)
    (hne : (replay past).table.slot? id ≠ some none) : (replay es).table.slot? id = (replay past).table.slot? id := by
  obtain ⟨before, hbefore⟩ := h.of_suffix hpast
  have hslots := (h.tallies hn).slots
  have hslots' := (hbefore.tallies (Nat.le_trans (extends_of_suffix hpast).issued hn)).slots
  cases hs : (replay past).table.slot? id with
  | none =>
    by_contra hlater
    obtain ⟨key, hkey⟩ := (hslots.slot id).1 hlater
    exact (hslots'.slot id).2 ⟨key, h.began_of_issued hpast hn hid hkey⟩ hs
  | some slot =>
    cases slot with
    | none => exact absurd hs hne
    | some record =>
      have hrecord := (extends_of_suffix hpast).records (RecordTable.get?_eq_some.2 hs)
      exact RecordTable.get?_eq_some.1 hrecord

end Orderly

/-! ## Frozen tables -/

namespace RecordTable

/-- In ascending order the records with small ids come first. -/
theorem filter_prefix {records : List Record} (h : (records.map (·.id)).Pairwise (· < ·)) (n : Nat) :
    records.filter (fun r => r.id.val.toNat < n) <+: records := by
  induction records with
  | nil => exact List.prefix_refl _
  | cons r rs ih =>
    rw [List.map_cons, List.pairwise_cons] at h
    by_cases hr : r.id.val.toNat < n
    · rw [List.filter_cons_of_pos (by simpa using hr)]
      exact List.prefix_cons_inj r |>.2 (ih h.2)
    · -- the ids after this one are greater still
      have hrest : ∀ x ∈ rs, ¬x.id.val.toNat < n := by
        intro x hx
        have hlt : r.id.val < x.id.val := h.1 x.id (List.mem_map_of_mem hx)
        rw [UInt32.lt_iff_toNat_lt] at hlt
        omega
      rw [List.filter_cons_of_neg (by simpa using hr), List.filter_eq_nil_iff.2 (by simpa using hrest)]
      exact List.nil_prefix

/-- Two lists of records in ascending order with the same members are one. -/
theorem eq_of_mem_iff {rs rs' : List Record} (h : (rs.map (·.id)).Pairwise (· < ·))
    (h' : (rs'.map (·.id)).Pairwise (· < ·)) (hmem : ∀ r, r ∈ rs ↔ r ∈ rs') : rs = rs' := by
  have hnodup : ∀ {xs : List Record}, (xs.map (·.id)).Pairwise (· < ·) → xs.Nodup := by
    intro xs hxs
    refine (List.pairwise_map.1 hxs).imp fun hlt heq => ?_
    rw [heq] at hlt
    exact absurd hlt (UInt32.lt_irrefl _)
  have hperm := (List.perm_ext_iff_of_nodup (hnodup h) (hnodup h')).2 hmem
  refine hperm.eq_of_pairwise ?_ (List.pairwise_map.1 h) (List.pairwise_map.1 h')
  intro r r' _ _ hlt hlt'
  exact absurd hlt (UInt32.lt_asymm hlt')

/-- A table that has got only slots with greater ids is frozen to a longer list. -/
theorem prefix_of_freeze {t t' : RecordTable} {records records' : List Record} {n : Nat}
    (h : t.freeze = .ok records) (h' : t'.freeze = .ok records') (hk : t.Keyed) (hk' : t'.Keyed)
    (hlt : ∀ id slot, t.slot? id = some slot → id.val.toNat < n)
    (hslot : ∀ id, id.val.toNat < n → t'.slot? id = t.slot? id) : records <+: records' := by
  have hids := ids_of_freeze h' hk'
  have hfilter : records = records'.filter fun r => r.id.val.toNat < n := by
    refine eq_of_mem_iff (ids_of_freeze h hk) (hids.sublist ((List.filter_sublist).map _)) fun r => ?_
    rw [List.mem_filter, decide_eq_true_eq, mem_of_freeze h hk, mem_of_freeze h' hk', get?_eq_some, get?_eq_some]
    constructor
    · intro hr
      have hr' := hlt _ _ hr
      exact ⟨(hslot _ hr').trans hr, hr'⟩
    · rintro ⟨hr, hr'⟩
      exact (hslot _ hr').symm.trans hr
  rw [hfilter]
  exact filter_prefix hids n

end RecordTable

/-! ## Passes -/

section Pass

variable {host : Host} {settings : Settings} {depth : Nat} {global : SymbolId} {ms ns : List SymbolId}

/-- The roots of a pass over more modules are those over the first ones, and then the others. -/
theorem Walk.roots_append : roots host settings depth global (ms ++ ns) =
    roots host settings depth global ms >>= fun x =>
      ns.mapM (ambientModule host settings depth) >>= fun more => pure (x.1, x.2 ++ more) := by
  simp only [roots, List.mapM_append, bind_assoc, pure_bind]

/-- Walks from where a journal ends go on with it. -/
theorem modules_continue (past : List Event) : Walk.Keeps (Progress.Continues host past) (fun _ => True)
    (ns.mapM (Walk.ambientModule host settings depth)) := by
  refine .mapM fun s _ => .bind ?_ fun _ => .pure _
  exact Walk.root_keeps (fun _ => trivial) fun t _ => (resolve_continues past depth t).mono fun _ _ => trivial

/-- The journal of a pass over more modules goes on from that of the pass over the first ones. -/
theorem exists_journal_of_more_modules {q q' : Progress} {x : TypeExpr × List AmbientModule}
    {more : List AmbientModule} (hroots : Walk.roots host settings depth global ms .start = .ok x q)
    (hmore : ns.mapM (Walk.ambientModule host settings depth) q = .ok more q') :
    ∃ past es tasks, Orderly host es tasks ∧ past <:+ es ∧ replay past = q ∧ replay es = q' := by
  have horderly : Walk.Keeps _ _ (Walk.roots host settings depth global ms) := roots_isEarly depth global ms
  have hfirst := horderly .start ⟨[], [], .start, rfl⟩
  rw [hroots] at hfirst
  obtain ⟨past, tasks, h, rfl⟩ := hfirst
  have hcontinue : Walk.Keeps _ _ (ns.mapM (Walk.ambientModule host settings depth)) := modules_continue past
  have hlast := hcontinue _ ⟨past, tasks, h, List.suffix_refl past, rfl⟩
  rw [hmore] at hlast
  obtain ⟨es, left, hleft, hsuffix, hes⟩ := hlast
  exact ⟨past, es, left, hleft, hsuffix, rfl, hes⟩

/-- A pass that can walk the roots of more modules has walked those of the first ones. -/
theorem roots_of_more_modules {p q : Progress} {globalType : TypeExpr} {all : List AmbientModule}
    (h : Walk.roots host settings depth global (ms ++ ns) p = .ok (globalType, all) q) :
    ∃ first more q', Walk.roots host settings depth global ms p = .ok (globalType, first) q' ∧
      ns.mapM (Walk.ambientModule host settings depth) q' = .ok more q ∧ all = first ++ more := by
  rw [Walk.roots_append, Walk.seq_apply] at h
  cases hfirst : Walk.roots host settings depth global ms p with
  | error e q' =>
    rw [hfirst] at h
    cases h
  | ok x q' =>
    simp only [hfirst, Walk.seq_apply] at h
    cases hmore : ns.mapM (Walk.ambientModule host settings depth) q' with
    | error e q'' =>
      rw [hmore] at h
      cases h
    | ok more q'' =>
      rw [hmore] at h
      cases h
      exact ⟨x.2, more, q', rfl, hmore, rfl⟩

/-- A pass that gives a bundle gives one also without its last modules: the same global type, the modules that are
left, and the first of the records. -/
theorem bundle_of_more_modules {b : Bundle} {q : Progress}
    (hrun : Walk.runFrom .start (Walk.bundle host settings depth global (ms ++ ns)) = (.ok b, q))
    (hn : q.registry.issued < 2 ^ 32) :
    ∃ b' q', Walk.runFrom .start (Walk.bundle host settings depth global ms) = (.ok b', q') ∧
      b'.globalType = b.globalType ∧ b'.ambientModules = b.ambientModules.take ms.length ∧
      b'.records <+: b.records := by
  have hfinished := Walk.finished_of_run hrun (Nat.le_of_lt hn)
  obtain ⟨hroots, hfreeze⟩ := Walk.bundle_eq_ok.1 (Walk.runFrom_eq_ok hrun)
  obtain ⟨first, more, q', hfirst, hmore, hall⟩ := roots_of_more_modules hroots
  obtain ⟨past, es, tasks, hjournal, hsuffix, rfl, rfl⟩ := exists_journal_of_more_modules hfirst hmore
  have hn' := Nat.le_trans (extends_of_suffix hsuffix).issued (Nat.le_of_lt hn)
  obtain ⟨b', hb'⟩ := Walk.exists_bundle_of_roots hfirst hn'
  have hrun' : Walk.runFrom .start (Walk.bundle host settings depth global ms) = (.ok b', replay past) := by
    rw [Walk.runFrom, EStateM.run, hb']
  have hfinished' := Walk.finished_of_run hrun' hn'
  obtain ⟨hroots', hfreeze'⟩ := Walk.bundle_eq_ok.1 hb'
  simp only [hfirst, EStateM.Result.ok.injEq, Prod.mk.injEq, and_true] at hroots'
  obtain ⟨hglobal, rfl⟩ := hroots'
  refine ⟨b', _, hrun', hglobal.symm, ?_, ?_⟩
  · rw [hall, hfinished'.modules.length_eq, List.take_left]
  · -- no record of the first modules is under construction when the others are walked
    refine RecordTable.prefix_of_freeze hfreeze' hfreeze hfinished'.consistent.keyed hfinished.consistent.keyed
      (fun _ _ => hfinished'.consistent.slot_lt) fun id hid => ?_
    exact hjournal.slot?_of_issued hsuffix (Nat.le_of_lt hn) hid (hfinished'.consistent.slot?_ne_empty id)

/-- The modules of a slice of an environment, with and without the last one. -/
theorem bundle_of_more_modules_nodeLike : ∃ l b b' q q', Sample.nodeLike.loaded? = some l ∧
    l.snapshot.ambientModules = [⟨21⟩] ++ [⟨32⟩] ∧
      Walk.runFrom .start (Walk.bundle l.host default l.depth l.global ([⟨21⟩] ++ [⟨32⟩])) = (.ok b, q) ∧
      Walk.runFrom .start (Walk.bundle l.host default l.depth l.global [⟨21⟩]) = (.ok b', q') ∧
      b'.globalType = b.globalType ∧ b'.ambientModules = b.ambientModules.take 1 ∧ b'.records <+: b.records := by
  obtain ⟨l, hl, hcheck⟩ := (Option.any_eq_true _ _).1 (by decide +kernel : (Sample.nodeLike.loaded?.any fun l =>
    l.snapshot.ambientModules = [⟨21⟩, ⟨32⟩] &&
      (fun run => run.1.toOption.isSome && run.2.registry.issued < 2 ^ 32)
        (Walk.runFrom .start (Walk.bundle l.host default l.depth l.global l.snapshot.ambientModules))) = true)
  simp only [Bool.and_eq_true, decide_eq_true_eq] at hcheck
  obtain ⟨hmodules, hpass⟩ := hcheck
  rw [hmodules] at hpass
  cases hrun : Walk.runFrom .start (Walk.bundle l.host default l.depth l.global ([⟨21⟩] ++ [⟨32⟩])) with
  | mk outcome q =>
    rw [← List.singleton_append, hrun] at hpass
    obtain ⟨hok, hn⟩ := hpass
    cases outcome with
    | error e => cases hok
    | ok b =>
      obtain ⟨b', q', hrun', hfirst⟩ := bundle_of_more_modules hrun hn
      exact ⟨l, b, b', q, q', hl, hmodules, hrun, hrun', hfirst⟩

end Pass

end TypeBundle
