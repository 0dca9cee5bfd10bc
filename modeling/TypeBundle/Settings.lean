import TypeBundle.Text.Blank
/-!
# Settings of a pass

Some members are not worth following, such as those through which the global scope contains itself.
An entry of the exclusion list names a member, or a member of one owner as `Owner.member`; the last
point of an entry separates the two.
-/

namespace TypeBundle

/-- Which members of a type a pass reads. -/
inductive MemberSet where
  /-- Those declared on the type itself, if the host tells them apart. -/
  | declared
  /-- Those it has, the inherited ones included. -/
  | effective
deriving DecidableEq, Repr

namespace MemberSet

def name : MemberSet → String
  | declared => "declared"
  | effective => "effective"

/-- The set with this name. -/
def ofName? (name : String) : Option MemberSet :=
  [declared, effective].find? (·.name == name)

end MemberSet

/-- What a pass leaves out. -/
structure Settings where
  /-- Members that become `any` instead of being followed. -/
  excludedMembers : List String
  memberSet : MemberSet
deriving DecidableEq, Repr

namespace Settings

/-- By default the members that lead back to the global scope are left out. -/
def default : Settings := ⟨["global", "globalThis"], .declared⟩

instance : Inhabited Settings := ⟨default⟩

/-- Whether an entry of the list names the member of the owner. -/
def entryNames (owner? : Option String) (member entry : String) : Bool :=
  match Text.cutLast? '.' entry.toList with
  | some (owner, name) => String.ofList name == member && owner? == some (String.ofList owner)
  | none => entry == member

/-- Whether the member is left out where its owner has this name. -/
def excludes (s : Settings) (owner? : Option String) (member : String) : Bool :=
  s.excludedMembers.any (entryNames owner? member)

end Settings

end TypeBundle
