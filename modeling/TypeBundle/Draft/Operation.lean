import TypeBundle.Draft.Build
/-!
# Operations on drafts

The steps of drafting as data, so that a history can be written down, and what each one answers.
-/

namespace TypeBundle.Draft

/-- A step of drafting. -/
inductive Operation where
  | inFile (file : String)
  | raw (flags : TypeFlags) (objectFlags : ObjectFlags)
  | literal (value : Literal)
  | boolean
  | symbol (qualified : String) (flags : SymbolFlags)
  | redeclare (symbol : SymbolId)
  | symbolOf (type : TypeId)
  | interface (qualified : String)
  | class_ (qualified : String)
  | genericInterface (qualified : String) (parameters : List String)
  | genericClass (qualified : String) (parameters : List String)
  | typeParameter (name : String)
  | constrain (type constraint : TypeId)
  | instantiate (target : TypeId) (arguments : List TypeId)
  | tuple (elements : List TypeId)
  | objectLiteral
  | union (members : List TypeId)
  | intersection (members : List TypeId)
  | keyOf (operand : TypeId)
  | indexedAccess (object index : TypeId)
  | enumeration (qualified : String) (values : List Binary64)
  | extend (type base : TypeId)
  | member (owner : TypeId) (spec : MemberSpec)
  | signature (typeParameters : List TypeId) (parameters : List ParameterSpec) (returnType : TypeId)
  | callSignature (owner : TypeId) (signature : SignatureId)
  | constructSignature (owner : TypeId) (signature : SignatureId)
  | function (parameters : List ParameterSpec) (returnType : TypeId)
  | typeAlias (qualified : String) (parameters : List String)
  | aliasBody (alias_ : SymbolId) (body : TypeId)
  | aliasTarget (alias_ : SymbolId) (type : TypeId)
  | aliasInstance (alias_ : SymbolId) (arguments : List TypeId)
  | global
  | ambientModule (name : String)
deriving DecidableEq, Repr

/-- What a step answers. -/
inductive Answer where
  | nothing
  | type (id : TypeId)
  | symbol (id : SymbolId)
  | symbolOption (id? : Option SymbolId)
  | signature (id : SignatureId)
  | typeWith (id : TypeId) (parameters : List TypeId)
  | aliasWith (id : SymbolId) (parameters : List TypeId)
deriving DecidableEq, Repr

/-- The flags of the type of a literal. -/
def literalFlags : Literal → TypeFlags
  | .boolean _ => TypeFlags.booleanLiteral
  | .number _ => TypeFlags.numberLiteral
  | .string _ => TypeFlags.stringLiteral

/-- Takes a step. -/
def perform : Operation → Drafting Answer
  | .inFile file => (fun _ => .nothing) <$> inFile file
  | .raw flags objectFlags => .type <$> raw flags objectFlags
  | .literal value => .type <$> literal (literalFlags value) value
  | .boolean => .type <$> boolean
  | .symbol qualified flags => .symbol <$> symbol qualified flags
  | .redeclare s => (fun _ => .nothing) <$> redeclare s
  | .symbolOf id => .symbolOption <$> symbolOf id
  | .interface qualified => .type <$> interface qualified
  | .class_ qualified => .type <$> class_ qualified
  | .genericInterface qualified ps => (fun (id, ps) => .typeWith id ps) <$> genericInterface qualified ps
  | .genericClass qualified ps => (fun (id, ps) => .typeWith id ps) <$> genericClass qualified ps
  | .typeParameter name => .type <$> typeParameter name
  | .constrain id constraint => (fun _ => .nothing) <$> constrain id constraint
  | .instantiate target args => .type <$> instantiate target args
  | .tuple elements => .type <$> tuple elements
  | .objectLiteral => .type <$> objectLiteral
  | .union members => .type <$> union members
  | .intersection members => .type <$> intersection members
  | .keyOf operand => .type <$> keyOf operand
  | .indexedAccess object index => .type <$> indexedAccess object index
  | .enumeration qualified values => .type <$> enumeration qualified values
  | .extend id base => (fun _ => .nothing) <$> extend id base
  | .member owner spec => .symbol <$> member owner spec
  | .signature ts ps returnType => .signature <$> signature ts ps returnType
  | .callSignature owner s => (fun _ => .nothing) <$> callSignature owner s
  | .constructSignature owner s => (fun _ => .nothing) <$> constructSignature owner s
  | .function ps returnType => .type <$> function ps returnType
  | .typeAlias qualified ps => (fun (id, ps) => .aliasWith id ps) <$> typeAlias qualified ps
  | .aliasBody a body => (fun _ => .nothing) <$> aliasBody a body
  | .aliasTarget a id => (fun _ => .nothing) <$> aliasTarget a id
  | .aliasInstance a args => .type <$> aliasInstance a args
  | .global => .type <$> global
  | .ambientModule name => .type <$> ambientModule name

/-- The draft after a history, from the empty one. -/
def ofHistory? (history : List Operation) : Option Draft :=
  history.foldlM (fun d o => ((perform o).run d).map (·.2)) empty

end TypeBundle.Draft
