import TypeBundle.Proofs.Draft.Effective
import TypeBundle.Proofs.Text
/-!
# Names of a history

What a history calls its ambient modules and the members of its classes and interfaces, and what the draft calls them
then: a symbol keeps only what stands after the last point of the name that it is given (`lastSegment`). Steps add
entries, names and members to a draft and change none that are there (`Adds`), so the names of a draft can be read off
the history from which it comes (`names_of_history`).
-/

namespace TypeBundle

namespace Draft

/-! ## What a history names -/

/-- The name of the ambient module that a step declares, in quotes. -/
def Operation.moduleName? : Operation → Option String
  | .ambientModule name => some ("\"" ++ name ++ "\"")
  | _ => none

/-- The name of the member that a step adds to the type. -/
def Operation.memberName? (t : TypeId) : Operation → Option String
  | .member owner spec => if owner = t then some spec.name else none
  | _ => none

/-- The class or interface that a step declares with this answer. -/
def Operation.declared? : Operation → Answer → Option TypeId
  | .interface _, .type id | .class_ _, .type id => some id
  | .genericInterface _ _, .typeWith id _ | .genericClass _ _, .typeWith id _ => some id
  | _, _ => none

def moduleNames (history : List Operation) : List String := history.filterMap Operation.moduleName?

def memberNames (t : TypeId) (history : List Operation) : List String := history.filterMap (Operation.memberName? t)

/-- The classes and interfaces that are declared from a draft on. -/
def declaredFrom : Draft → List Operation → List TypeId
  | _, [] => []
  | d, o :: history =>
    match (perform o).run d with
    | some (answer, d') => (o.declared? answer).toList ++ declaredFrom d' history
    | none => []

/-- The classes and interfaces that a history declares. -/
def declared (history : List Operation) : List TypeId := declaredFrom empty history

/-- A name is kept as it is just if it has no point. -/
theorem lastSegment_eq_self_iff (name : String) : lastSegment name = name ↔ '.' ∉ name.toList := by
  rw [← Text.cutLast?_eq_none_iff, lastSegment]
  cases hcut : Text.cutLast? '.' name.toList with
  | none => simp
  | some parts =>
    obtain ⟨before, after⟩ := parts
    simp only [reduceCtorEq, iff_false]
    intro hname
    -- The last segment would be as long as the name of which it is the end.
    have hlist := Text.eq_of_cutLast? hcut
    rw [← hname, String.toList_ofList] at hlist
    have hlength := congrArg List.length hlist
    simp only [List.length_append, List.length_cons] at hlength
    omega

/-- Symbols that have names have one each. -/
theorem exists_name {d : Draft} {m : SymbolId} {ms : List SymbolId} {names : List String}
    (hnames : d.names ms = names.map some) (hm : m ∈ ms) : ∃ name, d.name? m = some name := by
  have hmem : d.name? m ∈ names.map some := hnames ▸ List.mem_map_of_mem hm
  obtain ⟨name, -, hname⟩ := List.mem_map.1 hmem
  exact ⟨name, hname.symm⟩

/-! ## Drafts that grow -/

/-- The later draft has what the earlier one has, and more: these members of types that tell theirs apart, and these
ambient modules. -/
structure Adds (members : TypeId → List SymbolId) (modules : List SymbolId) (d d' : Draft) : Prop where
  types : d.types.size ≤ d'.types.size
  symbols : d.symbols.size ≤ d'.symbols.size
  declaredMembers? : ∀ t x, d.type? t = some x →
    ∃ x', d'.type? t = some x' ∧ x'.declaredMembers? = x.declaredMembers?.map (· ++ members t)
  name? : ∀ s name, d.name? s = some name → d'.name? s = some name
  ambientModules : d'.ambientModules.toList = d.ambientModules.toList ++ modules

namespace Adds

variable {members members' : TypeId → List SymbolId} {modules modules' : List SymbolId} {d d' d'' : Draft}

theorem refl (d : Draft) : Adds (fun _ => []) [] d d :=
  ⟨Nat.le_refl _, Nat.le_refl _, fun _ x hx => ⟨x, hx, by simp⟩, fun _ _ h => h, by simp⟩

theorem trans (h : Adds members modules d d') (h' : Adds members' modules' d' d'') :
    Adds (fun t => members t ++ members' t) (modules ++ modules') d d'' where
  types := Nat.le_trans h.types h'.types
  symbols := Nat.le_trans h.symbols h'.symbols
  declaredMembers? t x hx := by
    obtain ⟨x', hx', hmembers⟩ := h.declaredMembers? t x hx
    obtain ⟨x'', hx'', hmembers'⟩ := h'.declaredMembers? t x' hx'
    exact ⟨x'', hx'', by rw [hmembers', hmembers, Option.map_map]; simp [Function.comp_def]⟩
  name? s name hname := h'.name? s name (h.name? s name hname)
  ambientModules := by rw [h'.ambientModules, h.ambientModules, List.append_assoc]

/-- Names stay. -/
theorem names (h : Adds members modules d d') {ms : List SymbolId} {names : List String}
    (hnames : d.names ms = names.map some) : d'.names ms = names.map some := by
  rw [← hnames]
  refine List.map_congr_left fun m hm => ?_
  obtain ⟨name, hname⟩ := exists_name hnames hm
  rw [hname, h.name? m name hname]

/-- What is not there later was not there. -/
theorem type?_eq_none (h : Adds members modules d d') {t : TypeId} (ht : d'.type? t = none) : d.type? t = none := by
  cases hx : d.type? t with
  | none => rfl
  | some x =>
    obtain ⟨x', hx', -⟩ := h.declaredMembers? t x hx
    cases ht.symm.trans hx'

end Adds

/-- The action adds entries only. -/
def Steady {α : Type} (w : Drafting α) : Prop := ∀ d a d', w d = some (a, d') → Adds (fun _ => []) [] d d'

theorem bind_eq_some {α β : Type} {w : Drafting α} {f : α → Drafting β} {d d'' : Draft} {b : β} :
    (w >>= f) d = some (b, d'') ↔ ∃ a d', w d = some (a, d') ∧ f a d' = some (b, d'') := by
  change (w d).bind (fun p => f p.1 p.2) = _ ↔ _
  simp [Option.bind_eq_some_iff]

theorem map_eq_some {α β : Type} {w : Drafting α} {f : α → β} {d d' : Draft} {b : β} :
    (f <$> w) d = some (b, d') ↔ ∃ a, w d = some (a, d') ∧ f a = b := by
  rw [map_eq_pure_bind, bind_eq_some]
  constructor
  · rintro ⟨a, d₁, hw, hpure⟩
    cases hpure
    exact ⟨a, hw, rfl⟩
  · rintro ⟨a, hw, rfl⟩
    exact ⟨a, d', hw, rfl⟩

theorem getElem?_push_of_some {α : Type} {as : Array α} {a b : α} {i : Nat} (h : as[i]? = some a) :
    (as.push b)[i]? = some a := by
  obtain ⟨hi, rfl⟩ := Array.getElem?_eq_some_iff.1 h
  exact Array.getElem?_push_lt hi

/-- Changing an entry can add members to its type. -/
theorem changeType_adds {id : TypeId} {change : HostType → HostType} {added : List SymbolId} {d d' : Draft}
    (h : changeType id change d = some ((), d'))
    (hchange : ∀ x, (change x).declaredMembers? = x.declaredMembers?.map (· ++ added)) :
    Adds (fun t => if t = id then added else []) [] d d' := by
  unfold changeType at h
  split at h
  · cases h
    refine ⟨by simp, Nat.le_refl _, fun t x hx => ?_, fun _ _ hs => hs, by simp⟩
    have hget : Draft.type? { d with types := d.types.modify id.val.toNat change } t =
        some (if t = id then change x else x) := by
      have hx : d.types[t.val.toNat]? = some x := hx
      -- The entry is found by a position, and different ids have different positions.
      have hid : id.val.toNat = t.val.toNat ↔ t = id := by
        rw [UInt64.toNat_inj]
        exact ⟨fun h => by cases t; cases id; simp_all, fun h => h ▸ rfl⟩
      simp only [Draft.type?, Array.getElem?_modify, hx, hid]
      split <;> rfl
    refine ⟨_, hget, ?_⟩
    split
    · exact hchange x
    · simp
  · cases h

namespace Steady

variable {α β : Type} {w : Drafting α}

theorem pure (a : α) : Steady (Pure.pure a) := by
  rintro d _ d' ⟨⟩
  exact .refl d

theorem bind {f : α → Drafting β} (hw : Steady w) (hf : ∀ a, Steady (f a)) : Steady (w >>= f) := by
  intro d b d'' h
  obtain ⟨a, d', hw', hf'⟩ := bind_eq_some.1 h
  exact (hw d a d' hw').trans (hf a d' b d'' hf')

theorem map {f : α → β} (hw : Steady w) : Steady (f <$> w) := by
  rw [map_eq_pure_bind]
  exact bind hw fun a => pure (f a)

theorem mapM {γ : Type} {f : γ → Drafting α} {cs : List γ} (h : ∀ c, Steady (f c)) : Steady (cs.mapM f) := by
  induction cs with
  | nil => exact pure []
  | cons c cs ih =>
    rw [List.mapM_cons]
    exact bind (h c) fun _ => bind ih fun _ => pure _

/-- Looking changes nothing. -/
theorem of_reads (h : ∀ d a d', w d = some (a, d') → d' = d) : Steady w := by
  intro d a d' hw
  rw [h d a d' hw]
  exact .refl d

theorem typeEntry (id : TypeId) : Steady (typeEntry id) := of_reads fun d a d' h => by
  obtain ⟨x, -, hx⟩ := Option.map_eq_some_iff.1 h
  cases hx
  rfl

theorem symbolEntry (id : SymbolId) : Steady (symbolEntry id) := of_reads fun d a d' h => by
  obtain ⟨x, -, hx⟩ := Option.map_eq_some_iff.1 h
  cases hx
  rfl

theorem declarationHere : Steady declarationHere := of_reads fun d a d' h => by
  cases h
  rfl

theorem addType (x : HostType) : Steady (addType x) := by
  rintro d _ d' ⟨⟩
  exact ⟨by simp, Nat.le_refl _, fun t y hy => ⟨y, getElem?_push_of_some hy, by simp⟩, fun _ _ h => h, by simp⟩

theorem addSymbol (x : HostSymbol) : Steady (addSymbol x) := by
  rintro d _ d' ⟨⟩
  refine ⟨Nat.le_refl _, by simp, fun t y hy => ⟨y, hy, by simp⟩, fun s name hname => ?_, by simp⟩
  obtain ⟨y, hy, rfl⟩ := Option.map_eq_some_iff.1 hname
  exact Option.map_eq_some_iff.2 ⟨y, getElem?_push_of_some hy, rfl⟩

theorem addSignature (x : HostSignature) : Steady (addSignature x) := by
  rintro d _ d' ⟨⟩
  exact ⟨Nat.le_refl _, Nat.le_refl _, fun t y hy => ⟨y, hy, by simp⟩, fun _ _ h => h, by simp⟩

theorem changeType {id : TypeId} {change : HostType → HostType}
    (hchange : ∀ x, (change x).declaredMembers? = x.declaredMembers?) : Steady (changeType id change) := by
  intro d _ d' h
  have hchange' : ∀ x, (change x).declaredMembers? = x.declaredMembers?.map (· ++ []) := by simp [hchange]
  simpa using changeType_adds h hchange'

theorem changeSymbol {id : SymbolId} {change : HostSymbol → HostSymbol} (hchange : ∀ x, (change x).name = x.name) :
    Steady (changeSymbol id change) := by
  intro d _ d' h
  unfold Draft.changeSymbol at h
  split at h
  · cases h
    refine ⟨Nat.le_refl _, by simp, fun t y hy => ⟨y, hy, by simp⟩, fun s name hname => ?_, by simp⟩
    obtain ⟨y, hy, rfl⟩ := Option.map_eq_some_iff.1 hname
    have hy : d.symbols[s.val.toNat]? = some y := hy
    simp only [Draft.name?, Draft.symbol?, Array.getElem?_modify, hy]
    split <;> simp [hchange]
  · cases h

/-- What else a draft knows does not matter. -/
theorem modify {change : Draft → Draft} (htypes : ∀ d, (change d).types = d.types)
    (hsymbols : ∀ d, (change d).symbols = d.symbols) (hmodules : ∀ d, (change d).ambientModules = d.ambientModules) :
    Steady (modify change) := by
  rintro d _ d' ⟨⟩
  refine ⟨by rw [htypes], by rw [hsymbols], fun t y hy => ⟨y, ?_, by simp⟩, fun s name hname => ?_, by simp [hmodules]⟩
  · rwa [Draft.type?, htypes]
  · rwa [Draft.name?, Draft.symbol?, hsymbols]

end Steady

theorem changeSymbol_adds {id : SymbolId} {change : HostSymbol → HostSymbol} {d d' : Draft}
    (h : changeSymbol id change d = some ((), d')) (hchange : ∀ x, (change x).name = x.name) :
    Adds (fun _ => []) [] d d' :=
  Steady.changeSymbol hchange d () d' h

/-! ## Steps -/

theorem symbol_steady (qualified : String) (flags : SymbolFlags) : Steady (symbol qualified flags) :=
  .bind .declarationHere fun _ => .addSymbol _

theorem nominal_steady (qualified : String) (symbolFlags : SymbolFlags) (objectFlags : ObjectFlags) :
    Steady (nominal qualified symbolFlags objectFlags) :=
  .bind (symbol_steady _ _) fun _ => .bind (.addType _) fun _ => .bind (.changeSymbol fun _ => rfl) fun _ => .pure _

theorem typeParameter_steady (name : String) : Steady (typeParameter name) :=
  .bind (symbol_steady _ _) fun _ => .addType _

theorem makeGeneric_steady (id : TypeId) (parameters : List String) : Steady (makeGeneric id parameters) :=
  .bind (.mapM typeParameter_steady) fun _ => .bind (.changeType fun _ => rfl) fun _ => .pure _

theorem objectLiteral_steady : Steady objectLiteral := .bind (symbol_steady _ _) fun _ => .addType _

theorem signature_steady (ts : List TypeId) (ps : List ParameterSpec) (returnType : TypeId) :
    Steady (signature ts ps returnType) :=
  .bind (.mapM fun _ => .bind (symbol_steady _ _) fun _ => .bind (.changeSymbol fun _ => rfl) fun _ => .pure _)
    fun _ => .addSignature _

theorem scope_steady (name : String) : Steady (scope name) :=
  .bind (symbol_steady _ _) fun _ => .bind (.addType _) fun _ => .bind (.changeSymbol fun _ => rfl) fun _ => .pure _

theorem global_steady : Steady global := by
  refine .bind (.of_reads fun d a d' h => by cases h; rfl) fun d => ?_
  cases d.globalType? with
  | some id => exact .pure id
  | none =>
    exact .bind (scope_steady _) fun _ => .bind (.modify (fun _ => rfl) (fun _ => rfl) fun _ => rfl) fun _ => .pure _

theorem aliasInstance_steady (s : SymbolId) (args : List TypeId) : Steady (aliasInstance s args) := by
  refine .bind (.symbolEntry s) fun x => ?_
  cases x.declaredType? with
  | some id => exact .bind (.typeEntry id) fun _ => .addType _
  | none => exact .bind (.pure _) fun _ => .addType _

/-- All steps but those that declare a member or an ambient module add entries only. -/
theorem perform_steady {o : Operation} (hmember : ∀ owner spec, o ≠ .member owner spec)
    (hmodule : ∀ name, o ≠ .ambientModule name) : Steady (perform o) := by
  cases o
  case member owner spec => exact absurd rfl (hmember owner spec)
  case ambientModule name => exact absurd rfl (hmodule name)
  case inFile => exact .map (.modify (fun _ => rfl) (fun _ => rfl) fun _ => rfl)
  case raw => exact .map (.addType _)
  case literal => exact .map (.addType _)
  case boolean => exact .map (.addType _)
  case symbol => exact .map (symbol_steady _ _)
  case redeclare => exact .map (.bind .declarationHere fun _ => .changeSymbol fun _ => rfl)
  case symbolOf => exact .map (.bind (.typeEntry _) fun _ => .pure _)
  case interface => exact .map (nominal_steady _ _ _)
  case class_ => exact .map (nominal_steady _ _ _)
  case genericInterface => exact .map (.bind (nominal_steady _ _ _) fun _ => makeGeneric_steady _ _)
  case genericClass => exact .map (.bind (nominal_steady _ _ _) fun _ => makeGeneric_steady _ _)
  case typeParameter => exact .map (typeParameter_steady _)
  case constrain => exact .map (.changeType fun _ => rfl)
  case instantiate => exact .map (.bind (.typeEntry _) fun _ => .addType _)
  case tuple => exact .map (.bind (.addType _) fun _ => .addType _)
  case objectLiteral => exact .map objectLiteral_steady
  case union => exact .map (.addType _)
  case intersection => exact .map (.addType _)
  case keyOf => exact .map (.addType _)
  case indexedAccess => exact .map (.addType _)
  case enumeration => exact .map (.bind (symbol_steady _ _) fun _ => .bind (.mapM fun _ => .addType _) fun _ => .addType _)
  case extend => exact .map (.changeType fun _ => rfl)
  case signature => exact .map (signature_steady _ _ _)
  case callSignature => exact .map (.changeType fun _ => rfl)
  case constructSignature => exact .map (.changeType fun _ => rfl)
  case function =>
    exact .map (.bind objectLiteral_steady fun _ => .bind (signature_steady _ _ _) fun _ =>
      .bind (.changeType fun _ => rfl) fun _ => .pure _)
  case typeAlias =>
    exact .map (.bind (symbol_steady _ _) fun _ => .bind (.mapM typeParameter_steady) fun _ =>
      .bind (.changeSymbol fun _ => rfl) fun _ => .pure _)
  case aliasBody =>
    exact .map (.bind (.symbolEntry _) fun _ => .bind (.changeSymbol fun _ => rfl) fun _ => .changeType fun _ => rfl)
  case aliasTarget => exact .map (.changeSymbol fun _ => rfl)
  case aliasInstance => exact .map (aliasInstance_steady _ _)
  case global => exact .map global_steady

/-! ## Symbols and types that are new -/

section Steps

variable {d d' : Draft}

/-- A new symbol has the last segment of the name that it was given. -/
theorem name?_of_symbol {qualified : String} {flags : SymbolFlags} {s : SymbolId}
    (h : symbol qualified flags d = some (s, d')) (hsize : d'.symbols.size ≤ UInt64.size) :
    d'.name? s = some (lastSegment qualified) := by
  obtain ⟨here, d₁, hhere, hadd⟩ := bind_eq_some.1 h
  cases hhere
  cases hadd
  have hlt : d.symbols.size < d.symbols.size + 1 := Nat.lt_succ_self _
  have hword := toNat_toUInt64_of_lt hlt (by simpa using hsize)
  simp [Draft.name?, Draft.symbol?, hword]

/-- A new type stands behind those that are there. -/
theorem type?_of_addType {x : HostType} {id : TypeId} (h : addType x d = some (id, d'))
    (hsize : d'.types.size ≤ UInt64.size) : d.type? id = none ∧ d'.type? id = some x := by
  cases h
  have hlt : d.types.size < d.types.size + 1 := Nat.lt_succ_self _
  have hword := toNat_toUInt64_of_lt hlt (by simpa using hsize)
  constructor <;> simp [Draft.type?, hword]

/-- A member is added to a type that is there, and has the last segment of its name. -/
theorem member_adds {owner : TypeId} {spec : MemberSpec} {s : SymbolId} (h : member owner spec d = some (s, d'))
    (hsize : d'.symbols.size ≤ UInt64.size) :
    Adds (fun t => if t = owner then [s] else []) [] d d' ∧ d'.name? s = some (lastSegment spec.name) := by
  obtain ⟨here, d₁, hhere, h⟩ := bind_eq_some.1 h
  obtain ⟨s', d₂, hsymbol, h⟩ := bind_eq_some.1 h
  obtain ⟨⟨⟩, d₃, hdescribe, h⟩ := bind_eq_some.1 h
  obtain ⟨⟨⟩, d₄, howner, hpure⟩ := bind_eq_some.1 h
  cases hpure
  cases hhere
  have hdescribed := changeSymbol_adds hdescribe fun _ => rfl
  have howned : Adds (fun t => if t = owner then [s] else []) [] d₃ d' := changeType_adds howner fun _ => rfl
  -- What follows the new symbol changes no name.
  have hrest := hdescribed.trans howned
  have hname := name?_of_symbol hsymbol (Nat.le_trans hrest.symbols hsize)
  exact ⟨(symbol_steady _ _ _ _ _ hsymbol).trans hrest, hrest.name? _ _ hname⟩

/-- The owner of a member is a type that is there. -/
theorem owner_lt {owner : TypeId} {spec : MemberSpec} {s : SymbolId} (h : member owner spec d = some (s, d')) :
    owner.val.toNat < d'.types.size := by
  obtain ⟨here, d₁, -, h⟩ := bind_eq_some.1 h
  obtain ⟨s', d₂, -, h⟩ := bind_eq_some.1 h
  obtain ⟨⟨⟩, d₃, -, h⟩ := bind_eq_some.1 h
  obtain ⟨⟨⟩, d₄, howner, hpure⟩ := bind_eq_some.1 h
  cases hpure
  unfold changeType at howner
  split at howner
  · rename_i hlt
    cases howner
    simpa using hlt
  · cases howner

theorem name?_of_scope {name : String} {s : SymbolId} {id : TypeId} (h : scope name d = some ((s, id), d'))
    (hsize : d'.symbols.size ≤ UInt64.size) : d'.name? s = some (lastSegment name) := by
  obtain ⟨s', d₁, hsymbol, h⟩ := bind_eq_some.1 h
  obtain ⟨id', d₂, htype, h⟩ := bind_eq_some.1 h
  obtain ⟨⟨⟩, d₃, hchange, hpure⟩ := bind_eq_some.1 h
  cases hpure
  have hchanged := changeSymbol_adds hchange fun _ => rfl
  have hrest := (Steady.addType _ _ _ _ htype).trans hchanged
  exact hrest.name? _ _ (name?_of_symbol hsymbol (Nat.le_trans hrest.symbols hsize))

/-- An ambient module has the last segment of its name in quotes. -/
theorem ambientModule_adds {name : String} {id : TypeId} (h : ambientModule name d = some (id, d'))
    (hsize : d'.symbols.size ≤ UInt64.size) :
    ∃ s, Adds (fun _ => []) [s] d d' ∧ d'.name? s = some (lastSegment ("\"" ++ name ++ "\"")) := by
  obtain ⟨⟨s, t⟩, d₁, hscope, h⟩ := bind_eq_some.1 h
  obtain ⟨⟨⟩, d₂, hpush, hpure⟩ := bind_eq_some.1 h
  cases hpure
  cases hpush
  have hmodule : Adds (fun _ => []) [s] d₁ { d₁ with ambientModules := d₁.ambientModules.push s } :=
    ⟨Nat.le_refl _, Nat.le_refl _, fun _ x hx => ⟨x, hx, by simp⟩, fun _ _ h => h, by simp⟩
  exact ⟨s, (scope_steady _ _ _ _ hscope).trans hmodule, hmodule.name? _ _ (name?_of_scope hscope hsize)⟩

/-- A new class or interface has no members. -/
theorem nominal_new {qualified : String} {symbolFlags : SymbolFlags} {objectFlags : ObjectFlags} {id : TypeId}
    (h : nominal qualified symbolFlags objectFlags d = some (id, d')) (hsize : d'.types.size ≤ UInt64.size) :
    d.type? id = none ∧ ∃ x, d'.type? id = some x ∧ x.declaredMembers? = some [] := by
  obtain ⟨s, d₁, hsymbol, h⟩ := bind_eq_some.1 h
  obtain ⟨id', d₂, htype, h⟩ := bind_eq_some.1 h
  obtain ⟨⟨⟩, d₃, hchange, hpure⟩ := bind_eq_some.1 h
  cases hpure
  have hchanged := changeSymbol_adds hchange fun _ => rfl
  obtain ⟨hnone, hnew⟩ := type?_of_addType htype (Nat.le_trans hchanged.types hsize)
  obtain ⟨x, hx, hmembers⟩ := hchanged.declaredMembers? _ _ hnew
  refine ⟨(symbol_steady _ _ _ _ _ hsymbol).type?_eq_none hnone, x, hx, by simpa using hmembers⟩

theorem generic_new {qualified : String} {symbolFlags : SymbolFlags} {objectFlags : ObjectFlags} {ps : List String}
    {id : TypeId} {ids : List TypeId}
    (h : (nominal qualified symbolFlags objectFlags >>= fun id => makeGeneric id ps) d = some ((id, ids), d'))
    (hsize : d'.types.size ≤ UInt64.size) :
    d.type? id = none ∧ ∃ x, d'.type? id = some x ∧ x.declaredMembers? = some [] := by
  obtain ⟨id', d₁, hnominal, hmake⟩ := bind_eq_some.1 h
  -- The parameters are added behind the type, and its members stay none.
  have hadds := makeGeneric_steady _ _ _ _ _ hmake
  obtain ⟨hnone, x, hx, hmembers⟩ := nominal_new hnominal (Nat.le_trans hadds.types hsize)
  obtain ⟨ids', d₂, -, hmake⟩ := bind_eq_some.1 hmake
  obtain ⟨⟨⟩, d₃, -, hpure⟩ := bind_eq_some.1 hmake
  cases hpure
  obtain ⟨x', hx', hmembers'⟩ := hadds.declaredMembers? _ _ hx
  exact ⟨hnone, x', hx', by simpa [hmembers] using hmembers'⟩

/-- What a step declares was not there before, and has no members yet. -/
theorem declared_new {o : Operation} {answer : Answer} {t : TypeId} (h : perform o d = some (answer, d'))
    (hsize : d'.types.size ≤ UInt64.size) (ht : o.declared? answer = some t) :
    d.type? t = none ∧ ∃ x, d'.type? t = some x ∧ x.declaredMembers? = some [] := by
  cases o with
  | interface | class_ =>
    obtain ⟨id, hrun, rfl⟩ := map_eq_some.1 h
    obtain rfl := Option.some.inj ht
    exact nominal_new hrun hsize
  | genericInterface | genericClass =>
    obtain ⟨⟨id, ids⟩, hrun, rfl⟩ := map_eq_some.1 h
    obtain rfl := Option.some.inj ht
    exact generic_new hrun hsize
  | _ => simp [Operation.declared?] at ht

/-- A step adds no member to a type that it declares, or that is not there after it. -/
theorem memberName?_eq_none {o : Operation} {answer : Answer} {t : TypeId} (h : perform o d = some (answer, d'))
    (ht : o.declared? answer = some t ∨ d'.type? t = none) : o.memberName? t = none := by
  cases o with
  | member owner spec =>
    by_cases howner : owner = t
    · subst howner
      obtain ⟨s, hrun, rfl⟩ := map_eq_some.1 h
      rcases ht with ht | ht
      · cases ht
      · exact absurd (owner_lt hrun) (Nat.not_lt.2 (Array.getElem?_eq_none_iff.1 ht))
    · simp [Operation.memberName?, howner]
  | _ => rfl

/-- What a step adds to a draft has the last segment of the name that the step gives. -/
theorem perform_adds {o : Operation} {answer : Answer} (h : perform o d = some (answer, d'))
    (hsize : d'.symbols.size ≤ UInt64.size) : ∃ members modules, Adds members modules d d' ∧
      (∀ t, d'.names (members t) = ((o.memberName? t).toList.map lastSegment).map some) ∧
        d'.names modules = (o.moduleName?.toList.map lastSegment).map some := by
  by_cases hmember : ∃ owner spec, o = .member owner spec
  · obtain ⟨owner, spec, rfl⟩ := hmember
    obtain ⟨s, hrun, -⟩ := map_eq_some.1 h
    obtain ⟨hadds, hname⟩ := member_adds hrun hsize
    refine ⟨_, [], hadds, fun t => ?_, rfl⟩
    by_cases ht : t = owner
    · simp [ht, Operation.memberName?, names, hname]
    · simp [ht, Ne.symm ht, Operation.memberName?, names]
  by_cases hmodule : ∃ name, o = .ambientModule name
  · obtain ⟨name, rfl⟩ := hmodule
    obtain ⟨id, hrun, -⟩ := map_eq_some.1 h
    obtain ⟨s, hadds, hname⟩ := ambientModule_adds hrun hsize
    exact ⟨_, [s], hadds, fun t => rfl, by simp [Operation.moduleName?, names, hname]⟩
  · have hsteady : Steady (perform o) :=
      perform_steady (fun owner spec ho => hmember ⟨owner, spec, ho⟩) fun name ho => hmodule ⟨name, ho⟩
    refine ⟨_, [], hsteady _ _ _ h, fun t => ?_, ?_⟩
    · cases o with
      | member owner spec => exact absurd ⟨owner, spec, rfl⟩ hmember
      | _ => rfl
    · cases o with
      | ambientModule name => exact absurd ⟨name, rfl⟩ hmodule
      | _ => rfl

end Steps

/-! ## Histories -/

section Histories

variable {history : List Operation} {d d' : Draft}

/-- The draft after a history, from any draft. -/
def after (d : Draft) (history : List Operation) : Option Draft :=
  history.foldlM (fun d o => ((perform o).run d).map (·.2)) d

theorem after_cons {o : Operation} (h : after d (o :: history) = some d') :
    ∃ answer d₁, perform o d = some (answer, d₁) ∧ after d₁ history = some d' := by
  simp only [after, List.foldlM_cons, Option.bind_eq_bind, Option.bind_eq_some_iff, Option.map_eq_some_iff] at h
  obtain ⟨d₁, ⟨⟨answer, d₂⟩, hperform, rfl⟩, hrest⟩ := h
  exact ⟨answer, d₂, hperform, hrest⟩

/-- Induction on the history: what a step adds stays, and its name too. -/
theorem after_adds (h : after d history = some d') (hsize : d'.symbols.size ≤ UInt64.size) :
    ∃ members modules, Adds members modules d d' ∧
      (∀ t, d'.names (members t) = ((memberNames t history).map lastSegment).map some) ∧
        d'.names modules = ((moduleNames history).map lastSegment).map some := by
  induction history generalizing d with
  | nil =>
    cases h
    exact ⟨_, _, .refl d', fun _ => rfl, rfl⟩
  | cons o history ih =>
    obtain ⟨answer, d₁, hperform, hrest⟩ := after_cons h
    obtain ⟨members', modules', hadds', hmembers', hmodules'⟩ := ih hrest
    obtain ⟨members, modules, hadds, hmembers, hmodules⟩ :=
      perform_adds hperform (Nat.le_trans hadds'.symbols hsize)
    refine ⟨_, _, hadds.trans hadds', fun t => ?_, ?_⟩
    · have happend : memberNames t (o :: history) = (o.memberName? t).toList ++ memberNames t history := by
        simp only [memberNames, List.filterMap_cons]
        cases o.memberName? t <;> rfl
      rw [happend, List.map_append, List.map_append, ← hmembers', ← hadds'.names (hmembers t), names, List.map_append]
      rfl
    · have happend : moduleNames (o :: history) = o.moduleName?.toList ++ moduleNames history := by
        simp only [moduleNames, List.filterMap_cons]
        cases o.moduleName? <;> rfl
      rw [happend, List.map_append, List.map_append, ← hmodules', ← hadds'.names hmodules, names, List.map_append]
      rfl

/-- What is declared later is not there yet. -/
theorem type?_of_declaredFrom {t : TypeId} (h : after d history = some d') (hsymbols : d'.symbols.size ≤ UInt64.size)
    (htypes : d'.types.size ≤ UInt64.size) (ht : t ∈ declaredFrom d history) : d.type? t = none := by
  induction history generalizing d with
  | nil => cases ht
  | cons o history ih =>
    obtain ⟨answer, d₁, hperform, hrest⟩ := after_cons h
    have hrun : (perform o).run d = some (answer, d₁) := hperform
    simp only [declaredFrom, hrun, List.mem_append, Option.mem_toList] at ht
    obtain ⟨members', modules', hadds', -, -⟩ := after_adds hrest hsymbols
    obtain ⟨members, modules, hadds, -, -⟩ := perform_adds hperform (Nat.le_trans hadds'.symbols hsymbols)
    rcases ht with ht | ht
    · exact (declared_new hperform (Nat.le_trans hadds'.types htypes) ht).1
    · exact hadds.type?_eq_none (ih hrest ht)

/-- A class or interface that is declared from a draft on has the members that steps of the history add to it. -/
theorem members_of_declaredFrom {t : TypeId} (h : after d history = some d')
    (hsymbols : d'.symbols.size ≤ UInt64.size) (htypes : d'.types.size ≤ UInt64.size)
    (ht : t ∈ declaredFrom d history) : ∃ x ms, d'.type? t = some x ∧ x.declaredMembers? = some ms ∧
      d'.names ms = ((memberNames t history).map lastSegment).map some := by
  induction history generalizing d with
  | nil => cases ht
  | cons o history ih =>
    obtain ⟨answer, d₁, hperform, hrest⟩ := after_cons h
    have hrun : (perform o).run d = some (answer, d₁) := hperform
    have hin := ht
    simp only [declaredFrom, hrun, List.mem_append, Option.mem_toList] at hin
    obtain ⟨members, modules, hadds, hmembers, -⟩ := after_adds hrest hsymbols
    -- No step gives members to a type before it is declared, so the first step names none of them.
    have hother : o.memberName? t = none :=
      memberName?_eq_none hperform (hin.imp_right (type?_of_declaredFrom hrest hsymbols htypes))
    have hnames : memberNames t (o :: history) = memberNames t history := by simp [memberNames, hother]
    rw [hnames]
    rcases hin with hnew | hlater
    · obtain ⟨-, x, hx, hnone⟩ := declared_new hperform (Nat.le_trans hadds.types htypes) hnew
      obtain ⟨x', hx', hmembers'⟩ := hadds.declaredMembers? t x hx
      exact ⟨x', members t, hx', by simpa [hnone] using hmembers', hmembers t⟩
    · exact ih hrest hlater

/-- The names of a draft are the last segments of those in its history. -/
theorem names_of_history (h : ofHistory? history = some d) (hsymbols : d.symbols.size ≤ UInt64.size)
    (htypes : d.types.size ≤ UInt64.size) :
    d.names d.ambientModules.toList = ((moduleNames history).map lastSegment).map some ∧
      ∀ t ∈ declared history, ∃ x ms, d.type? t = some x ∧ x.declaredMembers? = some ms ∧
        d.names ms = ((memberNames t history).map lastSegment).map some := by
  obtain ⟨members, modules, hadds, -, hmodules⟩ := after_adds (d := empty) h hsymbols
  refine ⟨?_, fun t ht => members_of_declaredFrom h hsymbols htypes ht⟩
  -- The empty draft has no modules, so all of them are added.
  rw [hadds.ambientModules]
  simpa [empty] using hmodules

end Histories

end Draft

end TypeBundle
