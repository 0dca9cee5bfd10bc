import TypeBundle.Settings
import TypeBundle.Toml.Read
/-!
# Configuration

A configuration holds the settings of a pass and how its bundle is written. It is read from TOML: the
section `resolver` has the settings `excluded_members` and `member_set`, the section `output` has
`pretty`. What is missing has its default, and what is not known is ignored. An entry of the exclusion
list must name a member: it is neither empty nor ends with a point.
-/

namespace TypeBundle

structure Config where
  settings : Settings
  /-- Whether bundles are written for people to read. -/
  pretty : Bool
deriving DecidableEq, Repr

namespace Config

def default : Config := ⟨.default, false⟩

instance : Inhabited Config := ⟨default⟩

/-- Why a configuration is refused. -/
inductive Fault where
  /-- The text is not TOML, or a setting has a value of another kind. -/
  | unreadable
  | namesNoMember (entry : String)
deriving DecidableEq, Repr

/-- The wording of a fault, if it has one. -/
def Fault.message? : Fault → Option String
  | unreadable => none
  | namesNoMember entry =>
    some ("Invalid configuration: excluded member entry '" ++ entry ++ "' names no member")

/-! ## Values of settings -/

open Toml (Value)

/-- The value of a setting, if the section has one. A section may also be an array of the values of its
settings in order, and a date stands for a section without settings. -/
def setting? (position : Nat) (name : String) (v : Value) : Option (Option Value) :=
  match v with
  | .table _ fields => some (Toml.Fields.get? fields name)
  | .array items => some items[position]?
  | .moment => some none
  | _ => none

def string? : Value → Option String
  | .string s => some s
  | _ => none

def strings? : Value → Option (List String)
  | .array items => items.mapM string?
  | _ => none

def bool? : Value → Option Bool
  | .boolean b => some b
  | _ => none

def isEmpty : Value → Bool
  | .table _ [] => true
  | .array [] => true
  | _ => false

/-- A name, alone or as the only key of a table, with nothing as its value. -/
def memberSet? : Value → Option MemberSet
  | .string name => MemberSet.ofName? name
  | .table _ [(name, v)] => if isEmpty v then MemberSet.ofName? name else none
  | _ => none

/-- The value of a setting, read, or its default. -/
def settingOr {α : Type} (default : α) (read? : Value → Option α) (position : Nat) (name : String)
    (v : Value) : Option α := do
  match ← setting? position name v with
  | some w => read? w
  | none => return default

def settings? (v : Value) : Option Settings := do
  return {
    excludedMembers := ← settingOr Settings.default.excludedMembers strings? 0 "excluded_members" v
    memberSet := ← settingOr Settings.default.memberSet memberSet? 1 "member_set" v }

def pretty? (v : Value) : Option Bool := settingOr false bool? 0 "pretty" v

/-- The configuration that a table describes. -/
def ofTable? (fields : Toml.Fields) : Option Config := do
  let table : Value := .table .header fields
  return {
    settings := ← settingOr .default settings? 0 "resolver" table
    pretty := ← settingOr false pretty? 1 "output" table }

/-! ## Reading -/

/-- Whether an entry of the exclusion list names a member. -/
def namesMember (entry : String) : Bool :=
  match entry.toList.getLast? with
  | none => false
  | some c => c != '.'

/-- The configuration, if all entries of its exclusion list name a member. -/
def check (c : Config) : Except Fault Config :=
  match c.settings.excludedMembers.find? (!namesMember ·) with
  | some entry => .error (.namesNoMember entry)
  | none => .ok c

/-- Reads a configuration. -/
def read (text : String) : Except Fault Config :=
  match (Toml.read? text).bind ofTable? with
  | some c => c.check
  | none => .error .unreadable

end Config

end TypeBundle
