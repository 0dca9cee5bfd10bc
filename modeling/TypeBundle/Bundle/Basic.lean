import TypeBundle.TypeExpr.Wire
/-!
# Bundles

A bundle holds the type of the global scope, the ambient modules with their types, and the records
that the type expressions name by id. A bundle is sound if no two records have one id and every
record that is named anywhere is there; `Bundle.check` looks for the first fault.
-/

namespace TypeBundle

/-- A named type, or an object literal that is kept so that others can name it. -/
structure Record where
  id : BundleId
  name? : Option String
  qualifiedName? : Option String
  /-- The files that declare the type. -/
  originFiles? : Option (List String)
  isAlias : Bool
  aliasTypeParameters? : Option (List (Generic TypeExpr))
  typeParameters? : Option (List (Generic TypeExpr))
  body : TypeExpr

namespace Record

/-- A record without a name. -/
def anonymous (id : BundleId) (body : TypeExpr) : Record :=
  ⟨id, none, none, none, false, none, none, body⟩

/-- The name under which a record is shown. -/
def displayName (r : Record) : String :=
  (r.qualifiedName? <|> r.name?).getD ("<anonymous " ++ r.id.text ++ ">")

end Record

/-- A module that is declared without a file of its own. -/
structure AmbientModule where
  name : String
  type : TypeExpr

/-- What a pass over a host leaves. -/
structure Bundle where
  globalType : TypeExpr
  ambientModules : List AmbientModule
  records : List Record

namespace Bundle

/-- The first record with the id. -/
def record? (b : Bundle) (id : BundleId) : Option Record := b.records.find? (·.id = id)

/-- The first record with the name. -/
def recordNamed? (b : Bundle) (name : String) : Option Record :=
  b.records.find? (·.name? = some name)

/-- The first module with the name. -/
def module? (b : Bundle) (name : String) : Option AmbientModule :=
  b.ambientModules.find? (·.name = name)

/-- The expressions at the top of the bundle: the global type, the types of the modules and the bodies
of the records. -/
def roots (b : Bundle) : List TypeExpr :=
  b.globalType :: (b.ambientModules.map (·.type) ++ b.records.map (·.body))

/-- The ids of the records, in order. -/
def ids (b : Bundle) : List BundleId := b.records.map (·.id)

/-! ## Soundness -/

/-- What can be wrong with a bundle. -/
inductive Fault where
  | duplicateRecord (id : BundleId)
  | danglingReference (id : BundleId)
deriving DecidableEq, Repr

/-- The wording of a fault. -/
def Fault.message : Fault → String
  | duplicateRecord id => "Duplicate record for " ++ id.text
  | danglingReference id => "Reference to " ++ id.text ++ " has no record in the bundle"

/-- The first id of a list that has occurred before. -/
def firstRepeated? {α : Type} [DecidableEq α] : List α → Option α
  | [] => none
  | a :: as => go [a] as
where
  /-- The first of the rest that is among those seen. -/
  go (seen : List α) : List α → Option α
    | [] => none
    | a :: as => if a ∈ seen then some a else go (a :: seen) as

/-- The first fault of a bundle: a repeated id, else a reference from a root to a record that is not
there. -/
def check (b : Bundle) : Except Fault Unit :=
  match firstRepeated? b.ids with
  | some id => .error (.duplicateRecord id)
  | none =>
    match (b.roots.flatMap (·.references)).find? (· ∉ b.ids) with
    | some id => .error (.danglingReference id)
    | none => .ok ()

end Bundle

end TypeBundle
