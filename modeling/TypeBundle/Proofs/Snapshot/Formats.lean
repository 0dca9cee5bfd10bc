import TypeBundle.Proofs.Pass.FailFast
import TypeBundle.Proofs.Snapshot.Handle
import TypeBundle.Proofs.Snapshot.Json
import TypeBundle.Proofs.Snapshot.Yaml
/-!
# Does the format of a snapshot matter?

A snapshot that loads does so from its JSON and from its YAML as well, as a host that has some literals as the format
has them (`load_reread`). Where it is read like this, a pass gives what it gives without a text, unless it comes to a
literal type whose number JSON does not keep (`bundle_of_formats`): one that is not finite is left out there, and some
that are finite are read as a number next to them. Then the formats do not give the same (`bundle_of_formats_fails`).
-/

namespace TypeBundle

/-! ## Loading -/

/-- The type with its literal as it is read again. -/
def HostType.reread (reread : Literal → Option Literal) (t : HostType) : HostType :=
  { t with literal? := t.literal?.bind reread }

/-- The host with its literals as they are read again. -/
def Host.reread (reread : Literal → Option Literal) (host : Host) : Host :=
  host.revise (fun t => (host.type t).flags) fun t => (host.type t).literal?.bind reread

namespace Snapshot

section Index

variable {ι α β : Type} {word : ι → UInt64}

/-- If the index so far has the images of the other, so has the whole. -/
theorem go_map (f : α → β) {es : List (Entry ι α)} {index found : Index α} {index' : Index β}
    (h : indexOf.go word index es = .ok found) (hindex : ∀ w : UInt64, index'[w]? = index[w]?.map f) :
    ∃ found', indexOf.go word index' (es.map fun e => ⟨e.id, f e.facts⟩) = .ok found' ∧
      ∀ w : UInt64, found'[w]? = found[w]?.map f := by
  induction es generalizing index index' with
  | nil =>
    cases h
    exact ⟨index', rfl, hindex⟩
  | cons e es ih =>
    have hcontains : index'.contains (word e.id) = index.contains (word e.id) := by
      rw [← Std.TreeMap.isSome_getElem?_eq_contains, ← Std.TreeMap.isSome_getElem?_eq_contains, hindex,
        Option.isSome_map]
    simp only [List.map_cons, indexOf.go, hcontains] at h ⊢
    split at h
    · cases h
    · rename_i hnew
      rw [if_neg hnew]
      refine ih h fun w => ?_
      rw [Std.TreeMap.getElem?_insert, Std.TreeMap.getElem?_insert, hindex]
      split <;> rfl

theorem getElem?_empty_map (f : α → β) (w : UInt64) : (∅ : Index β)[w]? = (∅ : Index α)[w]?.map f := by simp

end Index

variable {s : Snapshot} {l : Loaded} {reread : Literal → Option Literal}

theorem mentions_reread (s : Snapshot) : (s.reread reread).mentions = s.mentions := by
  rw [mentions, mentions, Snapshot.reread, List.flatMap_map]
  rfl

theorem has_reread (m : Mention) : (s.reread reread).Has m ↔ s.Has m := by
  have htypes : (s.types.map (rereadType reread)).map (·.id) = s.types.map (·.id) := by
    rw [List.map_map]
    rfl
  cases m with
  | type id => rw [Has, Snapshot.reread, htypes, Has]
  | symbol id | signature id => exact Iff.rfl

theorem exists_load_reread (h : s.load = .ok l) (reread : Literal → Option Literal) :
    ∃ l', (s.reread reread).load = .ok l' := by
  obtain ⟨-, htypes, hsymbols, hsignatures, -⟩ := load_spec h
  obtain ⟨types, htypes', -⟩ := go_map (HostType.reread reread) htypes (getElem?_empty_map _)
  obtain ⟨hmentions, global, hglobal, hhas⟩ := (exists_load htypes hsymbols hsignatures).1 ⟨l, h⟩
  refine (exists_load (s := s.reread reread) htypes' hsymbols hsignatures).2 ⟨fun m hm => ?_, global, hglobal, ?_⟩
  · rw [mentions_reread] at hm
    exact (has_reread _).2 (hmentions m hm)
  · exact (has_reread _).2 hhas

/-- A snapshot loads with its literals as they are read again. -/
theorem load_reread (h : s.load = .ok l) (reread : Literal → Option Literal) : ∃ l', (s.reread reread).load = .ok l' ∧
    l'.host = l.host.reread reread ∧ l'.global = l.global ∧ l'.snapshot = s.reread reread := by
  obtain ⟨l', h'⟩ := exists_load_reread h reread
  obtain ⟨-, htypes, hsymbols, hsignatures, -⟩ := load_spec h
  obtain ⟨hsnapshot, htypes', hsymbols', hsignatures', -⟩ := load_spec h'
  have hglobal : l'.global = l.global :=
    Option.some.inj ((global_of_load h').symm.trans (show s.global? = _ from global_of_load h))
  obtain ⟨types, hgo, hmap⟩ := go_map (HostType.reread reread) htypes (getElem?_empty_map _)
  obtain rfl : l'.types = types := Except.ok.inj (htypes'.symm.trans hgo)
  have hsymbol : l'.symbols = l.symbols := Except.ok.inj (hsymbols'.symm.trans hsymbols)
  have hsignature : l'.signatures = l.signatures := Except.ok.inj (hsignatures'.symm.trans hsignatures)
  have htype : ∀ t, l'.host.type t = (l.host.reread reread).type t := fun t => by
    simp only [Loaded.host, Host.reread, Host.revise, hmap]
    cases l.types[t.val]? <;> rfl
  have hhost : l'.host = l.host.reread reread := by
    refine (Host.mk.injEq ..).mpr ⟨funext htype, ?_, ?_⟩
    · rw [hsymbol]
      rfl
    · rw [hsignature]
      rfl
  exact ⟨l', h', hhost, hglobal, hsnapshot⟩

end Snapshot

/-! ## Which literals are kept -/

/-- A literal that JSON keeps is kept by YAML as well. -/
theorem Snapshot.rereadYaml_of_rereadJson {v : Literal} (h : rereadJson v = some v) : rereadYaml v = some v := by
  cases v with
  | boolean b => rfl
  | string s => rfl
  | number x =>
    cases hnan : x.isNaN with
    | false => simp [rereadYaml, Yaml.rereadNumber, hnan]
    | true =>
      have hfinite : x.isFinite = false := Binary64.isFinite_eq_false_iff.2 (.inl hnan)
      simp [rereadJson, Json.Number.ofFloat?, hfinite] at h

namespace Host

variable {host : Host} {settings : Settings} {depth : Nat} {global : SymbolId} {modules : List SymbolId}

/-- A literal type whose literal is read as another from JSON, or as none: a number that is not finite, or that is not
read from its own text. -/
def LosesLiteral (host : Host) (t : TypeId) : Prop :=
  (host.type t).isLiteral = true ∧ (host.type t).literal?.bind Snapshot.rereadJson ≠ (host.type t).literal?

instance (host : Host) : DecidablePred host.LosesLiteral := fun _ => inferInstanceAs (Decidable (_ ∧ _))

/-- A pass resolves the type at whose trap it stops. -/
theorem resolves_of_trap {bad : TypeId → Prop} [DecidablePred bad] {t : TypeId} (ht : bad t)
    (h : Walk.answer (Walk.bundle (host.trap bad) settings depth global modules) =
      .error (.failed (.unsupported (.conditional t)))) : host.Resolves settings depth global modules t := by
  have hrevises : (host.trap bad).Revises (Walk.AtTrap fun u => bad u ∧ u ≠ t)
      (fun u => ((host.trap (· = t)).type u).flags) fun u => ((host.trap (· = t)).type u).literal? := by
    refine ⟨fun u => ?_, fun u => ?_⟩
    · rw [isObjectLiteral_trap]
      exact isObjectLiteral_trap u
    · by_cases hu : u = t
      · subst hu
        exact .inl ⟨by simp [trap, revise, ht], fun _ => by simp [trap, revise, ht]⟩
      · by_cases hbad : bad u
        · exact .inr ⟨_, typeFlaw?_trap hbad, u, ⟨hbad, hu⟩, rfl⟩
        · have hother : (host.trap (· = t)).type u = host.type u := trap_of_not hu
          rw [trap_of_not hbad, hother]
          exact .inl ⟨rfl, fun _ => rfl⟩
  -- without the other traps the pass goes on to the same one
  have hsame : Walk.Unless (Walk.AtTrap fun u => bad u ∧ u ≠ t)
      (Walk.bundle (host.trap bad) settings depth global modules)
      (Walk.bundle (host.trap (· = t)) settings depth global modules) :=
    Walk.bundle_revise hrevises depth global modules
  rcases hsame.answer with ⟨e, ⟨u, ⟨-, hne⟩, rfl⟩, herror⟩ | heq
  · rw [h] at herror
    cases herror
    exact absurd rfl hne
  · exact heq.trans h

end Host

namespace Walk

variable {host : Host}

/-- A pass over the host with other literals stops at a trap for those that JSON loses, or is a pass over the host. -/
theorem bundle_of_lost {reread : Literal → Option Literal}
    (hreread : ∀ v, Snapshot.rereadJson v = some v → reread v = some v) (settings : Settings) (depth : Nat)
    (global : SymbolId) (modules : List SymbolId) :
    Unless (AtTrap host.LosesLiteral) (bundle (host.trap host.LosesLiteral) settings depth global modules)
      (bundle (host.reread reread) settings depth global modules) := by
  have hback : (host.trap host.LosesLiteral).revise (fun t => (host.type t).flags)
      (fun t => (host.type t).literal?.bind reread) = host.reread reread := rfl
  rw [← hback]
  refine bundle_revise ⟨fun t => ?_, fun t => ?_⟩ depth global modules
  · rw [Host.isObjectLiteral_trap]
    rfl
  · by_cases ht : host.LosesLiteral t
    · exact .inr ⟨_, Host.typeFlaw?_trap ht, t, ht, rfl⟩
    · rw [Host.trap_of_not ht]
      refine .inl ⟨rfl, fun hliteral => ?_⟩
      have hkept : (host.type t).literal?.bind Snapshot.rereadJson = (host.type t).literal? :=
        not_not.1 fun hne => ht ⟨hliteral, hne⟩
      cases hv : (host.type t).literal? with
      | none => rfl
      | some v =>
        rw [hv] at hkept
        exact hreread v hkept

/-- A pass over the host with other literals gives the same, or a pass resolves a type whose literal JSON loses. -/
theorem answer_reread {reread : Literal → Option Literal}
    (hreread : ∀ v, Snapshot.rereadJson v = some v → reread v = some v) (settings : Settings) (depth : Nat)
    (global : SymbolId) (modules : List SymbolId) :
    answer (bundle (host.reread reread) settings depth global modules) =
        answer (bundle host settings depth global modules) ∨
      ∃ t, host.LosesLiteral t ∧ host.Resolves settings depth global modules t := by
  rcases (bundle_of_lost hreread settings depth global modules).answer with ⟨e, ⟨t, ht, rfl⟩, herror⟩ | heq
  · exact .inr ⟨t, ht, Host.resolves_of_trap ht herror⟩
  · have htrap : Unless (AtTrap host.LosesLiteral) _ (bundle host settings depth global modules) :=
      bundle_of_trap settings depth global modules
    rcases htrap.answer with ⟨e, ⟨t, ht, rfl⟩, herror⟩ | heq'
    · exact .inr ⟨t, ht, Host.resolves_of_trap ht herror⟩
    · exact .inl (heq.trans heq'.symm)

end Walk

/-! ## Both formats -/

namespace Snapshot

variable {s : Snapshot} {l : Loaded}

/-- The snapshot loads with other literals and gives the same, or a pass resolves a type whose literal JSON loses. -/
theorem bundle_reread_literals (h : s.load = .ok l) {reread : Literal → Option Literal}
    (hreread : ∀ v, rereadJson v = some v → reread v = some v) (settings : Settings) :
    ∃ l', (s.reread reread).load = .ok l' ∧ (l'.bundle settings = l.bundle settings ∨
      ∃ t, l.host.LosesLiteral t ∧ l.host.Resolves settings l.depth l.global l.snapshot.ambientModules t) := by
  obtain ⟨l', hl', hhost, hglobal, hsnapshot⟩ := load_reread h reread
  have hdepth : l'.depth = l.depth := by
    simp [Loaded.depth, hsnapshot, (load_spec h).1, Snapshot.reread]
  have hmodules : l'.snapshot.ambientModules = l.snapshot.ambientModules := by
    rw [hsnapshot, (load_spec h).1]
    rfl
  refine ⟨l', hl', ?_⟩
  rw [Loaded.bundle, Loaded.bundleOf, hhost, hglobal, hdepth, hmodules]
  exact Walk.answer_reread hreread settings l.depth l.global l.snapshot.ambientModules

/-- What JSON keeps of every entry it keeps of every type. -/
theorem not_losesLiteral (h : s.load = .ok l)
    (hkept : ∀ e ∈ s.types, e.facts.isLiteral = true → e.facts.literal?.bind rereadJson = e.facts.literal?)
    (t : TypeId) : ¬l.host.LosesLiteral t := fun ⟨hliteral, hlost⟩ =>
  hlost (forall_type (P := fun _ a => a.isLiteral = true → a.literal?.bind rereadJson = a.literal?) h (fun _ _ => rfl)
    hkept t hliteral)

/-- A snapshot that loads does so from its JSON and from its YAML. The bundles or failures are those of the snapshot
itself, unless the pass resolves a literal type whose number JSON does not keep. -/
theorem bundle_of_formats (h : s.load = .ok l) (settings : Settings) (pretty : Bool) :
    ∃ sj sy lj ly, readJson? (s.writeJson pretty) = some sj ∧ sj.load = .ok lj ∧
      readYaml? s.writeYaml = some sy ∧ sy.load = .ok ly ∧
        (lj.bundle settings = l.bundle settings ∧ ly.bundle settings = l.bundle settings ∨
          ∃ t, l.host.LosesLiteral t ∧ l.host.Resolves settings l.depth l.global l.snapshot.ambientModules t) := by
  obtain ⟨lj, hlj, hjson⟩ := bundle_reread_literals h (fun _ hv => hv) settings
  obtain ⟨ly, hly, hyaml⟩ := bundle_reread_literals h (fun _ => rereadYaml_of_rereadJson) settings
  refine ⟨_, _, lj, ly, readJson?_writeJson_reread pretty s, hlj, readYaml?_writeYaml s, hly, ?_⟩
  rcases hjson with hjson | hlost
  · exact hyaml.imp_left fun hyaml => ⟨hjson, hyaml⟩
  · exact .inr hlost

/-- A union of literals, and of a type that is asked for no literal and has one that JSON leaves out. -/
def literals : Snapshot where
  types := [
    ⟨⟨1⟩, { flags := TypeFlags.union, constituents := [⟨2⟩, ⟨3⟩, ⟨4⟩, ⟨5⟩] }⟩,
    ⟨⟨2⟩, { flags := TypeFlags.numberLiteral, literal? := some (.number ⟨0x3FF8000000000000⟩) }⟩,
    ⟨⟨3⟩, { flags := TypeFlags.stringLiteral, literal? := some (.string "1.5") }⟩,
    ⟨⟨4⟩, { flags := TypeFlags.booleanLiteral, literal? := some (.boolean true) }⟩,
    ⟨⟨5⟩, { flags := TypeFlags.string, literal? := some (.number (.nan false)) }⟩]
  symbols := [⟨⟨0⟩, { name := "globalThis", type? := some ⟨1⟩ }⟩]
  signatures := []
  global? := some ⟨0⟩
  ambientModules := []

theorem bundle_of_formats_literals : ∃ l, literals.load = .ok l ∧ ∀ settings pretty, ∃ sj sy lj ly,
    readJson? (literals.writeJson pretty) = some sj ∧ sj.load = .ok lj ∧ readYaml? literals.writeYaml = some sy ∧
      sy.load = .ok ly ∧ lj.bundle settings = l.bundle settings ∧ ly.bundle settings = l.bundle settings := by
  have hload : literals.load.toOption.any (fun _ => true) = true := by decide +kernel
  obtain ⟨l, hl, -⟩ := exists_ok_of_any hload
  have hkept : ∀ e ∈ literals.types, e.facts.isLiteral = true →
      e.facts.literal?.bind rereadJson = e.facts.literal? := by decide +kernel
  refine ⟨l, hl, fun settings pretty => ?_⟩
  obtain ⟨sj, sy, lj, ly, hsj, hlj, hsy, hly, hsame | ⟨t, ht, -⟩⟩ := bundle_of_formats hl settings pretty
  · exact ⟨sj, sy, lj, ly, hsj, hlj, hsy, hly, hsame⟩
  · exact absurd ht (not_losesLiteral hl hkept t)

/-- The greatest integer that all doubles up to it keep apart, as the literal of the type of the global scope. -/
def greatInteger : Snapshot where
  types := [⟨⟨1⟩, { flags := TypeFlags.numberLiteral, literal? := some (.number ⟨0x433FFFFFFFFFFFFF⟩) }⟩]
  symbols := [⟨⟨0⟩, { name := "globalThis", type? := some ⟨1⟩ }⟩]
  signatures := []
  global? := some ⟨0⟩
  ambientModules := []

/-- From its JSON and from its YAML a snapshot can give different bundles. -/
theorem bundle_of_formats_fails : ∃ sj sy l lj ly b b', greatInteger.load = .ok l ∧
    readJson? (greatInteger.writeJson false) = some sj ∧ sj.load = .ok lj ∧ lj.bundle default = .ok b ∧
      readYaml? greatInteger.writeYaml = some sy ∧ sy.load = .ok ly ∧ ly.bundle default = .ok b' ∧ b ≠ b' := by
  have hrun : (greatInteger.load.toOption.any fun _ =>
      (greatInteger.reread rereadJson).load.toOption.any fun lj =>
        (greatInteger.reread rereadYaml).load.toOption.any fun ly =>
          (lj.bundle default).toOption.any fun b => (ly.bundle default).toOption.any fun b' =>
            decide (b.globalType.encode ≠ b'.globalType.encode)) = true := by
    decide +kernel
  obtain ⟨l, hl, hrun⟩ := exists_ok_of_any hrun
  obtain ⟨lj, hlj, hrun⟩ := exists_ok_of_any hrun
  obtain ⟨ly, hly, hrun⟩ := exists_ok_of_any hrun
  obtain ⟨b, hb, hrun⟩ := exists_ok_of_any hrun
  obtain ⟨b', hb', hrun⟩ := exists_ok_of_any hrun
  have hne : b ≠ b' := fun heq => of_decide_eq_true hrun (by rw [heq])
  exact ⟨_, _, l, lj, ly, b, b', hl, readJson?_writeJson_reread false greatInteger, hlj, hb,
    readYaml?_writeYaml greatInteger, hly, hb', hne⟩

end Snapshot

end TypeBundle
