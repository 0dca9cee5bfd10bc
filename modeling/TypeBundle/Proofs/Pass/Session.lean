import TypeBundle.Proofs.Pass.Finished
import TypeBundle.Proofs.Walk.Traces
/-!
# Walking one type after the other

In a session types are walked one after the other, each from the progress that the last one has left, also where
that one has failed. A slot that a session leaves empty is that of a record which was under construction when a
walk failed; no later walk fills it, and a table with such a slot is not frozen (`slot_discipline`). What the
registry and the table count agrees at every point of a session (`Session.counts`).
-/

namespace TypeBundle

/-- A request to walk a type, at most so deep. -/
structure Request where
  type : TypeId
  depth : Nat

namespace Session

section

variable (host : Host) (settings : Settings)

/-- The progress after requests, the latest of which comes first. -/
def progress : List Request → Progress
  | [] => .start
  | r :: earlier => (Walk.runFrom (progress earlier) (Walk.resolve host settings r.depth r.type)).2

/-- The answer to a request after earlier ones. -/
def answer (r : Request) (earlier : List Request) : Except Stop TypeExpr :=
  (Walk.runFrom (progress host settings earlier) (Walk.resolve host settings r.depth r.type)).1

/-- The journal of requests, the latest of which comes first. -/
def journal : List Request → List Event
  | [] => []
  | r :: earlier =>
    match Walk.resolve host settings r.depth r.type (journal earlier) with
    | .ok _ es => es
    | .error _ es => es

end

variable {host : Host} {settings : Settings} {requests earlier : List Request} {tasks : List Task}

/-- What a request does: it leaves the tasks that it finds if it succeeds, and others on top of them if it fails. -/
theorem request_spec (r : Request) (h : Orderly host (journal host settings earlier) tasks)
    (hp : replay (journal host settings earlier) = progress host settings earlier) :
    replay (journal host settings (r :: earlier)) = progress host settings (r :: earlier) ∧
      journal host settings earlier <:+ journal host settings (r :: earlier) ∧
      ∃ left, Orderly host (journal host settings (r :: earlier)) left ∧
        ((∃ e, answer host settings r earlier = .ok e) ∧ left = tasks ∨
          (∃ e, answer host settings r earlier = .error e) ∧ tasks <:+ left) := by
  have htrace := Walk.resolve_traces settings r.depth r.type tasks _ h
  unfold TracesFrom at htrace
  rw [hp] at htrace
  simp only [journal, progress, answer, Walk.runFrom, EStateM.run]
  cases hr : Walk.resolve host settings r.depth r.type (journal host settings earlier) with
  | ok a es =>
    rw [hr] at htrace
    obtain ⟨hw, hsuffix, left, hleft, rfl⟩ := htrace
    rw [hw]
    exact ⟨rfl, hsuffix, left, hleft, .inl ⟨⟨a, rfl⟩, rfl⟩⟩
  | error e es =>
    rw [hr] at htrace
    obtain ⟨hw, hsuffix, ⟨left, hleft, hkept⟩, -⟩ := htrace
    rw [hw]
    exact ⟨rfl, hsuffix, left, hleft, .inr ⟨⟨e, rfl⟩, hkept⟩⟩

/-- The journal of a session is orderly and says what its progress is. -/
theorem orderly (host : Host) (settings : Settings) (requests : List Request) :
    (∃ tasks, Orderly host (journal host settings requests) tasks) ∧
      replay (journal host settings requests) = progress host settings requests := by
  induction requests with
  | nil => exact ⟨⟨[], .start⟩, rfl⟩
  | cons r earlier ih =>
    obtain ⟨⟨tasks, h⟩, hp⟩ := ih
    obtain ⟨hreplay, -, left, hleft, -⟩ := request_spec r h hp
    exact ⟨⟨left, hleft⟩, hreplay⟩

theorem journal_suffix (h : earlier <:+ requests) : journal host settings earlier <:+ journal host settings requests := by
  induction requests with
  | nil =>
    obtain rfl := List.suffix_nil.1 h
    exact List.suffix_refl _
  | cons r rest ih =>
    rcases List.suffix_cons_iff.1 h with rfl | h
    · exact List.suffix_refl _
    · obtain ⟨⟨tasks, horderly⟩, hp⟩ := orderly host settings rest
      exact (ih h).trans (request_spec r horderly hp).2.1

/-- Tasks that a request has left are never taken up again. -/
theorem tasks_stay (h : Orderly host (journal host settings earlier) tasks) (hsuffix : earlier <:+ requests) :
    ∃ left, Orderly host (journal host settings requests) left ∧ tasks <:+ left := by
  induction requests with
  | nil =>
    obtain rfl := List.suffix_nil.1 hsuffix
    exact ⟨tasks, h, List.suffix_refl tasks⟩
  | cons r rest ih =>
    rcases List.suffix_cons_iff.1 hsuffix with rfl | hsuffix
    · exact ⟨tasks, h, List.suffix_refl tasks⟩
    · obtain ⟨middle, hmiddle, htasks⟩ := ih hsuffix
      obtain ⟨-, -, left, hleft, ⟨-, rfl⟩ | ⟨-, hkept⟩⟩ := request_spec r hmiddle (orderly host settings rest).2
      · exact ⟨left, hleft, htasks⟩
      · exact ⟨left, hleft, htasks.trans hkept⟩

theorem progress_extends (h : earlier <:+ requests) :
    (progress host settings earlier).Extends (progress host settings requests) := by
  rw [← (orderly host settings earlier).2, ← (orderly host settings requests).2]
  exact extends_of_suffix (journal_suffix h)

theorem issued_le (h : earlier <:+ requests) :
    (progress host settings earlier).registry.issued ≤ (progress host settings requests).registry.issued :=
  (progress_extends h).issued

theorem slotTally (h : Orderly host (journal host settings requests) tasks)
    (hn : (progress host settings requests).registry.issued ≤ 2 ^ 32) :
    SlotTally (journal host settings requests) (tasks.map (·.id)) := by
  rw [← (orderly host settings requests).2] at hn
  exact (h.tallies hn).slots

/-- A session counts the identities that it has given ids and the records that it has begun, and has slots just for
these records. -/
theorem counts (hn : (progress host settings requests).registry.issued ≤ 2 ^ 32) :
    (progress host settings requests).registry.size =
        ((journal host settings requests).filterMap Event.registered?).length ∧
      (progress host settings requests).table.size =
        ((journal host settings requests).filterMap Event.begun?).length ∧
      ∀ id, (progress host settings requests).table.contains id = true ↔
        ∃ key, .began key id ∈ journal host settings requests := by
  obtain ⟨⟨tasks, h⟩, hp⟩ := orderly host settings requests
  have htally := slotTally h hn
  rw [← hp]
  exact ⟨h.size_registry, htally.size, fun id => RecordTable.contains_iff.trans (htally.slot id)⟩

end Session

/-! ## Slots that are left empty -/

/-- A record with the id has been begun and not been finished. -/
def UnderConstruction (es : List Event) (id : BundleId) : Prop :=
  (∃ key, .began key id ∈ es) ∧ ∀ record, .ended record ∈ es → record.id ≠ id

theorem SlotTally.empty_iff {es : List Event} {ids : List BundleId} (h : SlotTally es ids) (id : BundleId) :
    (replay es).table.slot? id = some none ↔ UnderConstruction es id := by
  have hslot := h.slot id
  have hfilled := h.filled id
  unfold UnderConstruction
  rw [← hslot]
  cases hs : (replay es).table.slot? id with
  | none => simp
  | some slot =>
    cases slot with
    | none =>
      refine iff_of_true rfl ⟨by simp, fun record hmem hid => ?_⟩
      have hrecord := (hfilled record).2 ⟨hmem, hid⟩
      rw [hs] at hrecord
      cases hrecord
    | some record =>
      refine iff_of_false (by simp) fun ⟨_, hnot⟩ => ?_
      obtain ⟨hmem, hid⟩ := (hfilled record).1 hs
      exact hnot record hmem hid

/-- A request that failed had begun the record with the id, and was in the middle of it. -/
def Session.LeftByFailure (host : Host) (settings : Settings) (requests : List Request) (id : BundleId) : Prop :=
  ∃ r earlier, r :: earlier <:+ requests ∧ (∃ e, answer host settings r earlier = .error e) ∧
    (∀ key, .began key id ∉ journal host settings earlier) ∧ UnderConstruction (journal host settings (r :: earlier)) id

open Session in
/-- What becomes of ids and slots in a session. -/
structure SlotDiscipline (host : Host) (settings : Settings) (requests : List Request) : Prop where
  /-- All that the session has done is in its journal. -/
  replayed : replay (journal host settings requests) = progress host settings requests
  /-- A filled slot holds the record that was put in it, which has its id. -/
  filled : ∀ id record, (progress host settings requests).table.slot? id = some (some record) ↔
    .ended record ∈ journal host settings requests ∧ record.id = id
  /-- No slot is filled twice. -/
  once : ((journal host settings requests).filterMap Event.ended?).Nodup
  /-- From any moment on, what has an id keeps it and what has been filled stays as it is. -/
  kept : ∀ past later, past <:+ later → later <:+ journal host settings requests → (replay past).Extends (replay later)
  left : ∀ id, (progress host settings requests).table.slot? id = some none ↔ LeftByFailure host settings requests id
  /-- What is under construction between two requests is never finished. -/
  abandoned : ∀ earlier, earlier <:+ requests → ∀ id, UnderConstruction (journal host settings earlier) id →
    UnderConstruction (journal host settings requests) id
  /-- If no request has failed the table is frozen, with all records that have been finished. -/
  complete : (∀ r earlier, r :: earlier <:+ requests → ∃ e, answer host settings r earlier = .ok e) →
    ∃ records, Walk.freeze (progress host settings requests) = .ok records (progress host settings requests) ∧
      ∀ record, record ∈ records ↔ .ended record ∈ journal host settings requests
  /-- If a slot is empty it is not frozen, and the first such slot is named. -/
  incomplete : ∀ id, (progress host settings requests).table.slot? id = some none → ∃ first,
    Walk.freeze (progress host settings requests) =
        .error (.failed (.incompleteRecord first)) (progress host settings requests) ∧
      (progress host settings requests).table.slot? first = some none ∧
      ∀ other, (progress host settings requests).table.slot? other = some none → first ≤ other

namespace Session

variable {host : Host} {settings : Settings} {requests earlier : List Request}

theorem underConstruction_iff (hn : (progress host settings requests).registry.issued ≤ 2 ^ 32) (id : BundleId) :
    (progress host settings requests).table.slot? id = some none ↔
      UnderConstruction (journal host settings requests) id := by
  obtain ⟨⟨tasks, h⟩, hp⟩ := orderly host settings requests
  rw [← hp]
  exact (slotTally h hn).empty_iff id

/-- A slot that is empty after some of the requests stays empty. -/
theorem underConstruction_stays (hn : (progress host settings requests).registry.issued ≤ 2 ^ 32)
    (hsuffix : earlier <:+ requests) {id : BundleId} (hid : UnderConstruction (journal host settings earlier) id) :
    UnderConstruction (journal host settings requests) id := by
  have hn' := Nat.le_trans (issued_le hsuffix) hn
  obtain ⟨⟨tasks, h⟩, hp⟩ := orderly host settings earlier
  obtain ⟨left, hleft, hkept⟩ := tasks_stay h hsuffix
  have hmem := ((slotTally h hn').empty id).1 (((slotTally h hn').empty_iff id).2 hid)
  refine ((slotTally hleft hn).empty_iff id).1 (((slotTally hleft hn).empty id).2 ?_)
  exact (hkept.map _).subset hmem

/-- A record is under construction after requests only if one of them has failed in the middle of it. -/
theorem leftByFailure (hn : (progress host settings requests).registry.issued ≤ 2 ^ 32) {id : BundleId}
    (hid : UnderConstruction (journal host settings requests) id) : LeftByFailure host settings requests id := by
  induction requests with
  | nil =>
    obtain ⟨⟨key, hkey⟩, -⟩ := hid
    cases hkey
  | cons r earlier ih =>
    have hsuffix : earlier <:+ r :: earlier := List.suffix_cons _ _
    have hn' := Nat.le_trans (issued_le hsuffix) hn
    obtain ⟨⟨tasks, h⟩, hp⟩ := orderly host settings earlier
    have hbefore : UnderConstruction (journal host settings earlier) id →
        LeftByFailure host settings (r :: earlier) id := by
      intro hconstruction
      obtain ⟨r', earlier', hr', hrest⟩ := ih hn' hconstruction
      exact ⟨r', earlier', hr'.trans hsuffix, hrest⟩
    by_cases hbegan : ∃ key, .began key id ∈ journal host settings earlier
    · -- a record that was finished before would still be
      exact hbefore ⟨hbegan, fun record hmem => hid.2 record ((journal_suffix hsuffix).subset hmem)⟩
    · obtain ⟨-, -, left, hleft, ⟨-, rfl⟩ | ⟨herror, -⟩⟩ := request_spec r h hp
      · -- a request that succeeds leaves only the tasks that it has found
        have hmem := ((slotTally hleft hn).empty id).1 (((slotTally hleft hn).empty_iff id).2 hid)
        exact hbefore (((slotTally h hn').empty_iff id).1 (((slotTally h hn').empty id).2 hmem))
      · exact ⟨r, earlier, List.suffix_refl _, herror, fun key hkey => hbegan ⟨key, hkey⟩, hid⟩

end Session

/-! ## Passes -/

section Pass

variable {host : Host} {settings : Settings}

/-- What can be read off an orderly journal. -/
def Progress.IsOrderly (host : Host) (p : Progress) : Prop := ∃ past tasks, Orderly host past tasks ∧ replay past = p

/-- What can be read off an orderly journal that goes on from these events. -/
def Progress.Continues (host : Host) (past : List Event) (p : Progress) : Prop :=
  ∃ es tasks, Orderly host es tasks ∧ past <:+ es ∧ replay es = p

theorem resolve_continues (past : List Event) (depth : Nat) (t : TypeId) :
    Walk.Keeps (Progress.Continues host past) Stop.IsEarly (Walk.resolve host settings depth t) := by
  rintro _ ⟨before, tasks, h, hpast, rfl⟩
  have htrace := Walk.resolve_traces settings depth t tasks before h
  unfold TracesFrom at htrace
  cases hr : Walk.resolve host settings depth t before with
  | ok a es =>
    rw [hr] at htrace
    obtain ⟨hw, hsuffix, left, hleft, -⟩ := htrace
    rw [hw]
    exact ⟨es, left, hleft, hpast.trans hsuffix, rfl⟩
  | error e es =>
    rw [hr] at htrace
    obtain ⟨hw, hsuffix, ⟨left, hleft, -⟩, he⟩ := htrace
    rw [hw]
    exact ⟨⟨es, left, hleft, hpast.trans hsuffix, rfl⟩, he⟩

theorem resolve_isEarly (depth : Nat) (t : TypeId) :
    Walk.Keeps (Progress.IsOrderly host) Stop.IsEarly (Walk.resolve host settings depth t) := by
  rintro _ ⟨past, tasks, h, rfl⟩
  have hcontinue : Walk.Keeps _ _ (Walk.resolve host settings depth t) := resolve_continues past depth t
  have hkeep := hcontinue _ ⟨past, tasks, h, List.suffix_refl past, rfl⟩
  cases hr : Walk.resolve host settings depth t (replay past) with
  | ok a q =>
    rw [hr] at hkeep
    obtain ⟨es, left, hleft, -, hes⟩ := hkeep
    exact ⟨es, left, hleft, hes⟩
  | error e q =>
    rw [hr] at hkeep
    obtain ⟨⟨es, left, hleft, -, hes⟩, he⟩ := hkeep
    exact ⟨⟨es, left, hleft, hes⟩, he⟩

theorem roots_isEarly (depth : Nat) (global : SymbolId) (modules : List SymbolId) :
    Walk.Keeps (Progress.IsOrderly host) Stop.IsEarly (Walk.roots host settings depth global modules) := by
  have hroot : ∀ missing s,
      Walk.Keeps (Progress.IsOrderly host) Stop.IsEarly (Walk.root host settings depth missing s) :=
    fun _ _ => Walk.root_keeps (fun _ _ h => by cases h) fun t _ => resolve_isEarly depth t
  exact Walk.roots_keeps (hroot _ _) fun s _ => hroot _ s

/-- A pass never fails for an empty slot: the table is frozen only after all roots have been walked. -/
theorem bundle_isEarly {depth : Nat} {global : SymbolId} {modules : List SymbolId} {e : Stop} {q : Progress}
    (hrun : Walk.runFrom .start (Walk.bundle host settings depth global modules) = (.error e, q))
    (hn : q.registry.issued ≤ 2 ^ 32) : e.IsEarly := by
  have herror := Walk.runFrom_eq_error hrun
  have hroots : Walk.Keeps _ _ (Walk.roots host settings depth global modules) := roots_isEarly depth global modules
  -- roots that have been walked leave no record under construction, so that a freeze succeeds
  have hearly := hroots .start ⟨[], [], .start, rfl⟩
  cases hr : Walk.roots host settings depth global modules .start with
  | error e' q' =>
    rw [hr] at hearly
    rw [Walk.bundle_eq, Walk.seq_apply, hr] at herror
    cases herror
    exact hearly.2
  | ok x q' =>
    -- a freeze leaves the progress as it is
    have hq : q = q' := by
      simp only [Walk.bundle_eq, Walk.seq_apply, hr, Walk.freeze_apply] at herror
      cases hf : q'.table.freeze with
      | ok records =>
        rw [hf] at herror
        cases herror
      | error id =>
        rw [hf] at herror
        cases herror
        rfl
    obtain ⟨b, hb⟩ := Walk.exists_bundle_of_roots hr (hq ▸ hn)
    rw [hb] at herror
    cases herror

end Pass

/-! ## The theorem -/

/-- In a session that has ids left, every slot is filled once and for all, or its record was under construction when
a request failed. Without such a slot the table is frozen, and with one it is not; a pass never freezes a table
with one. -/
theorem slot_discipline (host : Host) (settings : Settings) (requests : List Request)
    (hn : (Session.progress host settings requests).registry.issued < 2 ^ 32) :
    SlotDiscipline host settings requests ∧
      ∀ depth global modules e q, Walk.runFrom .start (Walk.bundle host settings depth global modules) = (.error e, q) →
        q.registry.issued < 2 ^ 32 → ∀ id, e ≠ .failed (.incompleteRecord id) := by
  have hn' := Nat.le_of_lt hn
  obtain ⟨⟨tasks, h⟩, hp⟩ := Session.orderly host settings requests
  have hleft : ∀ id, (Session.progress host settings requests).table.slot? id = some none ↔
      Session.LeftByFailure host settings requests id := by
    intro id
    rw [Session.underConstruction_iff hn']
    refine ⟨Session.leftByFailure hn', ?_⟩
    rintro ⟨r, earlier, hsuffix, -, -, hid⟩
    exact Session.underConstruction_stays hn' hsuffix hid
  have hfilled : ∀ id record, (Session.progress host settings requests).table.slot? id = some (some record) ↔
      .ended record ∈ Session.journal host settings requests ∧ record.id = id := by
    rw [← hp]
    exact (Session.slotTally h hn').filled
  refine ⟨?_, fun _ _ _ _ _ hrun hq => bundle_isEarly hrun (Nat.le_of_lt hq)⟩
  constructor
  · exact hp
  · exact hfilled
  · exact (Session.slotTally h hn').once
  · intro past later hpast _
    exact extends_of_suffix hpast
  · exact hleft
  · intro earlier hsuffix id hid
    exact Session.underConstruction_stays hn' hsuffix hid
  · intro hok
    have hnone : ∀ id, (Session.progress host settings requests).table.slot? id ≠ some none := by
      intro id hempty
      obtain ⟨r, earlier, hsuffix, ⟨e, he⟩, -⟩ := (hleft id).1 hempty
      obtain ⟨a, ha⟩ := hok r earlier hsuffix
      rw [he] at ha
      cases ha
    obtain ⟨records, hfreeze⟩ := RecordTable.exists_freeze hnone
    refine ⟨records, by rw [Walk.freeze_apply, hfreeze], fun record => ?_⟩
    rw [RecordTable.mem_of_freeze hfreeze (fun id other hother => ((hfilled id other).1 hother).2),
      RecordTable.get?_eq_some, hfilled]
    exact and_iff_left rfl
  · intro id hempty
    cases hf : (Session.progress host settings requests).table.freeze with
    | ok records => exact absurd hempty (RecordTable.slot?_of_freeze hf id)
    | error first => exact ⟨first, by rw [Walk.freeze_apply, hf], RecordTable.freeze_eq_error.1 hf⟩

/-- The global scope of a snapshot with an interface that is refused, and then the interface itself: the second
request succeeds, and the records that the first was in the middle of are left. A pass over the snapshot fails,
and not for these records. -/
theorem slot_discipline_missingDeclaration : ∃ l first e q, Sample.missingDeclaration.loaded? = some l ∧
    SlotDiscipline l.host default [⟨⟨2⟩, l.depth⟩, ⟨⟨0⟩, l.depth⟩] ∧
      (Session.progress l.host default [⟨⟨2⟩, l.depth⟩, ⟨⟨0⟩, l.depth⟩]).table.freeze = .error first ∧
      Walk.runFrom .start (Walk.bundle l.host default l.depth l.global []) = (.error e, q) ∧
      ∀ id, e ≠ .failed (.incompleteRecord id) := by
  have hsession : (Sample.missingDeclaration.loaded?.any fun l =>
      let q := Session.progress l.host default [⟨⟨2⟩, l.depth⟩, ⟨⟨0⟩, l.depth⟩]
      let r := Walk.runFrom .start (Walk.bundle l.host default l.depth l.global [])
      q.registry.issued < 2 ^ 32 && !q.table.freeze.toBool && (r.2.registry.issued < 2 ^ 32 && !r.1.toBool)) = true := by
    decide +kernel
  obtain ⟨l, hl, hcheck⟩ := (Option.any_eq_true _ _).1 hsession
  simp only [Bool.and_eq_true, decide_eq_true_eq, Bool.not_eq_true'] at hcheck
  obtain ⟨⟨hn, hfreeze⟩, hq, hpass⟩ := hcheck
  obtain ⟨hdiscipline, hearly⟩ := slot_discipline l.host default [⟨⟨2⟩, l.depth⟩, ⟨⟨0⟩, l.depth⟩] hn
  cases hf : (Session.progress l.host default [⟨⟨2⟩, l.depth⟩, ⟨⟨0⟩, l.depth⟩]).table.freeze with
  | ok records =>
    rw [hf] at hfreeze
    cases hfreeze
  | error first =>
    cases hr : Walk.runFrom .start (Walk.bundle l.host default l.depth l.global []) with
    | mk answer q =>
      rw [hr] at hq hpass
      cases answer with
      | ok b => cases hpass
      | error e => exact ⟨l, first, e, q, hl, hdiscipline, hf, hr, hearly _ _ _ e q hr hq⟩

end TypeBundle
