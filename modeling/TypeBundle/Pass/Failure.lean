import TypeBundle.Flags.Text
import TypeBundle.Host.Kind
import TypeBundle.Text.Quoted
import TypeBundle.TypeExpr.Basic
/-!
# Why a pass fails

The first failure ends a pass. `Failure.message` is its wording.
-/

namespace TypeBundle

/-- A construct that bundles have no form for. -/
inductive Unsupported where
  | conditional (type : TypeId)
  /-- An enum, by its name or else its identity. -/
  | enum (name : String)
deriving DecidableEq, Repr

/-- Something that a host should not say. -/
inductive Unexpected where
  | noKind (fault : KindFault)
  /-- A literal type whose value is missing or of another type than its flags say. -/
  | literal (type : TypeId) (expected : String) (found? : Option Literal)
  | numberWithoutText (type : TypeId) (value : Binary64)
  | keyOfNothing (type : TypeId)
  | accessWithoutParts (type : TypeId)
  | instantiationWithoutTarget (type : TypeId)
  | aliasWithoutType (name : String)
  | memberWithoutType (name : String)
  | parameterWithoutType (name : String)
  | globalWithoutType (name : String)
  | moduleWithoutType (name : String)
deriving DecidableEq, Repr

/-- Why a pass fails. -/
inductive Failure where
  | unsupported (construct : Unsupported)
  | unexpected (what : Unexpected)
  /-- A data member of this name without a place of declaration. -/
  | missingDeclaration (name : String)
  /-- A record that was begun and not finished. -/
  | incompleteRecord (id : BundleId)
deriving DecidableEq, Repr

namespace Literal

/-- A literal in a message. -/
def show_ : Literal → String
  | boolean b => "Boolean(" ++ (if b then "true" else "false") ++ ")"
  | number x => "Number(" ++ String.ofList (NumberLayout.message.write x) ++ ")"
  | string s => "String(" ++ Text.quoted s ++ ")"

/-- A literal in a message, if there is one. -/
def showOption : Option Literal → String
  | none => "None"
  | some l => "Some(" ++ l.show_ ++ ")"

end Literal

namespace Unsupported

def message : Unsupported → String
  | conditional type => "conditional type (" ++ type.text ++ ")"
  | enum name => "enum type '" ++ name ++ "'"

end Unsupported

def KindFault.message : KindFault → String
  | unknownObject flags objectFlags =>
    "object type with flags " ++ flags.debug ++ " and object flags " ++ objectFlags.debug
  | unknownType flags => "type flags " ++ flags.debug ++ " match no known kind"

namespace Unexpected

def message : Unexpected → String
  | noKind fault => fault.message
  | literal type expected found? =>
    expected ++ " literal type (" ++ type.text ++ ") carries " ++ Literal.showOption found?
  | numberWithoutText type value =>
    "number literal " ++ String.ofList (NumberLayout.message.write value) ++ " has no JSON form (" ++
      type.text ++ ")"
  | keyOfNothing type => "keyof type without an operand (" ++ type.text ++ ")"
  | accessWithoutParts type =>
    "indexed access without object and index types (" ++ type.text ++ ")"
  | instantiationWithoutTarget type => "instantiation without a target (" ++ type.text ++ ")"
  | aliasWithoutType name => "type alias '" ++ name ++ "' has no declared type"
  | memberWithoutType name => "member '" ++ name ++ "' has no type"
  | parameterWithoutType name => "parameter '" ++ name ++ "' has no type"
  | globalWithoutType name => "global symbol '" ++ name ++ "' has no type"
  | moduleWithoutType name => "ambient module " ++ name ++ " has no type"

end Unexpected

/-- The wording of a failure. -/
def Failure.message : Failure → String
  | unsupported construct => "Unsupported construct: " ++ construct.message
  | unexpected what => "Unexpected representation: " ++ what.message
  | missingDeclaration name => "Missing declaration for symbol '" ++ name ++ "'"
  | incompleteRecord id => "Record " ++ id.text ++ " was reserved but never completed"

end TypeBundle
