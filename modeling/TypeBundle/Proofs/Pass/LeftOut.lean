import TypeBundle.Proofs.Pass.FailFast
import TypeBundle.Proofs.Pass.Opaque
import TypeBundle.Proofs.Settings
import TypeBundle.Proofs.Walk.Akin
/-!
# Members that are left out

A member that the settings leave out becomes `any`, so its type is not asked for: two hosts that say different things
about the types of such members give the same bundle, or fail alike (`bundle_of_types_leftOut`). Its declarations are
asked for all the same, before the settings are: where they differ too, the passes can differ in whether such members
are assigned, and a pass fails if it meets one that is data and declared nowhere (`bundle_of_members_leftOut`).
-/

namespace TypeBundle

namespace Host

/-- The symbols are parameters of no signature, and members only of types that leave them out, whichever owner gives
the members of the type their names. -/
structure LeavesOut (host : Host) (settings : Settings) (Out : SymbolId → Prop) : Prop where
  member : ∀ t owner?, host.IsOwner t owner? → ∀ s ∈ Walk.selectedMembers settings (host.type t), Out s →
    settings.excludes (host.ownerName owner?) (host.symbol s).name = true
  parameter : ∀ g, ∀ s ∈ (host.signature g).parameters, ¬Out s

/-- The hosts say the same, except about the types and the declarations of these symbols. -/
structure SameBut (Out : SymbolId → Prop) (host host' : Host) : Prop where
  type : host'.type = host.type
  signature : host'.signature = host.signature
  symbol : ∀ s, host'.symbol s = { host.symbol s with
    type? := (host'.symbol s).type?
    declarations := (host'.symbol s).declarations }
  others : ∀ s, ¬Out s → host'.symbol s = host.symbol s

/-- The host with another symbol under this id. -/
def withSymbol (host : Host) (s : SymbolId) (symbol : HostSymbol) : Host :=
  { host with symbol := fun other => if other = s then symbol else host.symbol other }

theorem sameBut_withSymbol (host : Host) (s : SymbolId) (type? : Option TypeId) (declarations : List Declaration) :
    host.SameBut (· = s) (host.withSymbol s { host.symbol s with type?, declarations }) := by
  refine ⟨rfl, rfl, fun other => ?_, fun other hother => if_neg hother⟩
  by_cases h : other = s
  · subst h
    simp [withSymbol]
  · simp [withSymbol, h]

section

variable {settings : Settings} {Out : SymbolId → Prop} {host host' : Host}

/-- The leeway of passes that may find the members declared or not. -/
def declarationLeeway (host host' : Host) (Out : SymbolId → Prop) (hidden : String → Bool) : Leeway where
  hidden := hidden
  first e := ∃ s, Out s ∧ (host.symbol s).isUndeclared = true ∧ e = .failed (.missingDeclaration (host.symbol s).name)
  second e := ∃ s, Out s ∧ (host'.symbol s).isUndeclared = true ∧ e = .failed (.missingDeclaration (host.symbol s).name)

/-- Hosts that differ in symbols that are left out are alike, given that members of the symbols are. -/
theorem SameBut.akin {y : Leeway} (h : host.SameBut Out host') (hout : host.LeavesOut settings Out)
    (hfiles : ∀ t s, (host.type t).alias? = some s ∨ (host.type t).symbol? = some s →
      (host'.symbol s).originFiles = (host.symbol s).originFiles)
    (hmember : ∀ owner? s, (Out s → settings.excludes owner? (host.symbol s).name = true) →
      (host.symbol s).Akin y settings owner? (host'.symbol s)) :
    host.Akin y settings (fun _ => True) host' where
  signature := h.signature
  type t _ := by rw [h.type]
  alias? t := by rw [h.type]
  aliasArguments t := by rw [h.type]
  seen_bare _ _ := trivial
  seen_declared _ _ _ _ := trivial
  seen_target _ _ _ _ := trivial
  seen_parameter _ _ := trivial
  symbol := h.symbol
  alias_files t s hs := hfiles t s (.inl hs)
  symbol_files t s _ hs := hfiles t s (.inr hs)
  parameter g s hs := by rw [h.others s (hout.parameter g s hs)]
  member t owner? _ howner s hs := hmember _ s (hout.member t owner? howner s hs)

end

end Host

/-! ## A global scope that contains itself -/

namespace Snapshot

/-- A global scope with itself as a member. -/
def circular : Snapshot where
  types := [⟨⟨1⟩, { flags := TypeFlags.object, objectFlags := ObjectFlags.anonymous, members := [⟨1⟩] }⟩]
  symbols := [
    ⟨⟨0⟩, { name := "global", type? := some ⟨1⟩ }⟩,
    ⟨⟨1⟩, { name := "globalThis", flags := SymbolFlags.variable_, type? := some ⟨1⟩,
            declarations := [⟨"globals.d.ts", .empty⟩] }⟩]
  signatures := []
  global? := some ⟨0⟩
  ambientModules := []

section

variable {l : Loaded} (h : circular.load = .ok l)
include h

theorem circular_name : (l.host.symbol ⟨1⟩).name = "globalThis" :=
  congrArg HostSymbol.name (host_symbol_of_mem h (List.mem_cons_of_mem _ List.mem_cons_self))

theorem circular_global : l.global = ⟨0⟩ := by
  have hglobal : (circular.load.toOption.any fun l => decide (l.global = ⟨0⟩)) = true := by decide +kernel
  simpa [h, Except.toOption] using hglobal

/-- The member is left out by its name, whoever owns it. -/
theorem circular_leavesOut : l.host.LeavesOut default (· = ⟨1⟩) := by
  have hparameters : ∀ g, (l.host.signature g).parameters = [] :=
    forall_signature h (P := fun _ x => x.parameters = []) (fun _ _ => rfl) (by simp [circular])
  refine ⟨?_, fun g s hs => by simp [hparameters] at hs⟩
  rintro t owner? - s - rfl
  rw [circular_name h]
  exact (Settings.excludes_iff _).2 ⟨by decide, .inl (by simp [default, Settings.default])⟩

theorem circular_names {t : TypeId} {s : SymbolId}
    (hs : (l.host.type t).alias? = some s ∨ (l.host.type t).symbol? = some s) : s ≠ ⟨1⟩ := by
  have hnone : (l.host.type t).alias? = none ∧ (l.host.type t).symbol? = none :=
    forall_type h (P := fun _ x => x.alias? = none ∧ x.symbol? = none) (fun _ => ⟨rfl, rfl⟩) (by simp [circular]) t
  simp [hnone] at hs

end

theorem exists_circular : ∃ l b, circular.load = .ok l ∧
    Walk.answer (Walk.bundle l.host default l.depth l.global []) = .ok b := by
  have hruns : (circular.load.toOption.any fun l =>
      (Walk.answer (Walk.bundle l.host default l.depth l.global [])).toOption.any fun _ => true) = true := by
    decide +kernel
  obtain ⟨l, hl, hruns⟩ := exists_ok_of_any hruns
  obtain ⟨b, hb, -⟩ := exists_ok_of_any hruns
  exact ⟨l, b, hl, hb⟩

end Snapshot

/-! ## What is left out makes no difference -/

section

variable {host host' : Host} {settings : Settings} {Out : SymbolId → Prop} {depth : Nat} {global : SymbolId}
variable {modules : List SymbolId}

/-- The types of members that are left out make no difference to a pass. -/
theorem bundle_of_types_leftOut (hout : host.LeavesOut settings Out) (h : host.SameBut Out host')
    (hdeclarations : ∀ s, (host'.symbol s).declarations = (host.symbol s).declarations) (hglobal : ¬Out global)
    (hmodules : ∀ s ∈ modules, ¬Out s) :
    Walk.answer (Walk.bundle host' settings depth global modules) =
      Walk.answer (Walk.bundle host settings depth global modules) := by
  have hflags : ∀ s, (host'.symbol s).flags = (host.symbol s).flags := fun s => by rw [h.symbol]
  have hundeclared : ∀ s, (host'.symbol s).isUndeclared = (host.symbol s).isUndeclared := fun s => by
    simp only [HostSymbol.isUndeclared, HostSymbol.isFixed, hflags, hdeclarations]
  have hakin : host.Akin .none settings (fun _ => True) host' := by
    refine h.akin hout (fun t s _ => by simp only [HostSymbol.originFiles, hdeclarations]) fun owner? s hs => ?_
    -- What one host finds undeclared the other does too, so no walk stops alone.
    refine ⟨fun hs hs' => ?_, fun hs hs' => ?_, fun _ => ?_, fun hkept => ?_⟩
    · rw [hundeclared, hs] at hs'
      cases hs'
    · rw [hundeclared, hs] at hs'
      cases hs'
    · simp only [HostSymbol.isReadonly, HostSymbol.isFixed, hflags, hdeclarations]
    · rw [h.others s fun hs' => by simp [hs hs'] at hkept]
  exact (Walk.bundle_akin hakin depth (by rw [h.others _ hglobal])
    fun s hs => by rw [h.others s (hmodules s hs)]).answer_eq

end

/-- The member of a global scope that contains itself may have no type. -/
theorem bundle_of_types_leftOut_circular : ∃ l b, Snapshot.circular.load = .ok l ∧
    Walk.answer (Walk.bundle l.host default l.depth l.global []) = .ok b ∧
      Walk.answer (Walk.bundle (l.host.withSymbol ⟨1⟩ { l.host.symbol ⟨1⟩ with type? := none }) default l.depth
        l.global []) = .ok b := by
  obtain ⟨l, b, hl, hb⟩ := Snapshot.exists_circular
  refine ⟨l, b, hl, hb, Eq.trans ?_ hb⟩
  refine bundle_of_types_leftOut (Snapshot.circular_leavesOut hl)
    (l.host.sameBut_withSymbol ⟨1⟩ none (l.host.symbol ⟨1⟩).declarations) (fun s => ?_) ?_ (by simp)
  · simp only [Host.withSymbol]
    split
    · rename_i hs
      rw [hs]
    · rfl
  · simp [Snapshot.circular_global hl]

/-! ## Declarations are asked for -/

section

variable {host host' : Host} {settings : Settings} {Out : SymbolId → Prop} {depth : Nat} {global : SymbolId}
variable {modules : List SymbolId}

/-- A pass that succeeds still does if types and declarations of members that are left out are others, and its bundle
differs at most in whether such members are assigned; unless one of them is data that is now declared nowhere, which is
then what the pass fails for. -/
theorem bundle_of_members_leftOut (hout : host.LeavesOut settings Out) (h : host.SameBut Out host')
    (hmember : ∀ t s, (host.type t).alias? = some s ∨ (host.type t).symbol? = some s → ¬Out s) (hglobal : ¬Out global)
    (hmodules : ∀ s ∈ modules, ¬Out s) (hidden : String → Bool)
    (hhidden : ∀ s, Out s → hidden (host.symbol s).name = true) {b : Bundle}
    (hb : Walk.answer (Walk.bundle host settings depth global modules) = .ok b) :
    (∃ b', Walk.answer (Walk.bundle host' settings depth global modules) = .ok b' ∧ b'.unmark hidden = b.unmark hidden) ∨
      ∃ s, Out s ∧ (host'.symbol s).isUndeclared = true ∧
        Walk.answer (Walk.bundle host' settings depth global modules) =
          .error (.failed (.missingDeclaration (host.symbol s).name)) := by
  have hakin : host.Akin (host.declarationLeeway host' Out hidden) settings (fun _ => True) host' := by
    refine h.akin hout (fun t s hs => by rw [h.others s (hmember t s hs)]) fun owner? s hs => ?_
    by_cases hout' : Out s
    · refine ⟨fun hs _ => ⟨s, hout', hs, rfl⟩, fun _ hs' => ⟨s, hout', hs', rfl⟩, fun hshown => ?_, fun hkept => ?_⟩
      · cases (hhidden s hout').symm.trans hshown
      · rw [hs hout'] at hkept
        cases hkept
    · rw [h.others s hout']
      exact .refl _
  have hbundle := Walk.bundle_akin hakin depth (by rw [h.others _ hglobal])
    fun s hs => by rw [h.others s (hmodules s hs)]
  -- The first pass succeeds, so if one of the two stops it is the second.
  rcases hbundle.answer with ⟨b₁, b', hb₁, hb', hsame⟩ | ⟨e, he, -⟩ | ⟨e, he, -⟩ | ⟨e, he, s, hs, hundeclared, rfl⟩
  · obtain rfl : b₁ = b := Except.ok.inj (hb₁.symm.trans hb)
    exact .inl ⟨b', hb', hsame⟩
  · cases hb.symm.trans he
  · cases hb.symm.trans he
  · exact .inr ⟨s, hs, hundeclared, he⟩

end

/-- The member of a global scope that contains itself may have no type and be declared elsewhere. -/
theorem bundle_of_members_leftOut_circular : ∃ l b b', Snapshot.circular.load = .ok l ∧
    Walk.answer (Walk.bundle l.host default l.depth l.global []) = .ok b ∧
      Walk.answer (Walk.bundle (l.host.withSymbol ⟨1⟩ { l.host.symbol ⟨1⟩ with
        type? := none, declarations := [⟨"lib.d.ts", ModifierFlags.readonly⟩] }) default l.depth l.global []) = .ok b' ∧
        b'.unmark (· == "globalThis") = b.unmark (· == "globalThis") := by
  obtain ⟨l, b, hl, hb⟩ := Snapshot.exists_circular
  have hglobal : l.global ≠ ⟨1⟩ := by simp [Snapshot.circular_global hl]
  obtain ⟨b', hb', hsame⟩ | ⟨s, rfl, hundeclared, -⟩ :=
    bundle_of_members_leftOut (Snapshot.circular_leavesOut hl)
      (l.host.sameBut_withSymbol ⟨1⟩ none [⟨"lib.d.ts", ModifierFlags.readonly⟩])
      (fun t s hs => Snapshot.circular_names hl hs) hglobal (by simp) (· == "globalThis")
      (by rintro s rfl; simp [Snapshot.circular_name hl]) hb
  · exact ⟨l, b, b', hl, hb, hb', hsame⟩
  · simp [Host.withSymbol, HostSymbol.isUndeclared] at hundeclared

namespace Snapshot

/-- A member that is left out and declared nowhere ends a pass that succeeds where the member is declared. -/
theorem bundle_fails_undeclared : ∃ l b, circular.load = .ok l ∧ l.host.LeavesOut default (· = ⟨1⟩) ∧
    (∀ t s, (l.host.type t).alias? = some s ∨ (l.host.type t).symbol? = some s → s ≠ ⟨1⟩) ∧ l.global ≠ ⟨1⟩ ∧
    Walk.answer (Walk.bundle l.host default l.depth l.global []) = .ok b ∧
      l.host.SameBut (· = ⟨1⟩) (l.host.withSymbol ⟨1⟩ { l.host.symbol ⟨1⟩ with declarations := [] }) ∧
        Walk.answer (Walk.bundle (l.host.withSymbol ⟨1⟩ { l.host.symbol ⟨1⟩ with declarations := [] }) default l.depth
          l.global []) = .error (.failed (.missingDeclaration "globalThis")) := by
  obtain ⟨l, b, hl, hb⟩ := exists_circular
  have hfails : (circular.load.toOption.any fun l =>
      decide (stop? (Walk.answer (Walk.bundle (l.host.withSymbol ⟨1⟩ { l.host.symbol ⟨1⟩ with declarations := [] })
        default l.depth l.global [])) = some (.failed (.missingDeclaration "globalThis")))) = true := by
    decide +kernel
  simp only [hl, Except.toOption, Option.any_some, decide_eq_true_eq] at hfails
  exact ⟨l, b, hl, circular_leavesOut hl, fun t s hs => circular_names hl hs, by simp [circular_global hl], hb,
    l.host.sameBut_withSymbol ⟨1⟩ _ [], eq_error_of_stop? hfails⟩

end Snapshot

end TypeBundle
