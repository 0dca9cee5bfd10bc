import TypeBundle.Config
import TypeBundle.Proofs.Text
/-!
# What an exclusion list leaves out

An entry is written for a member of any owner, as the member's name, or for a member of one owner, with a point between
the two (`Settings.entryFor`). It is read at its last point, so it names the member for which it is written just if the
name of this member has no point (`entryNames_entryFor`). Such a member is left out as the list says, and a member with
a point in its name never is (`Settings.excludes_iff`).
-/

namespace TypeBundle

namespace Settings

variable {owner? owner'? : Option String} {member member' : String}

/-! ## Entries -/

/-- The entry that is written for a member, of any owner or of this one. -/
def entryFor (owner? : Option String) (member : String) : String :=
  match owner? with
  | none => member
  | some owner => owner ++ "." ++ member

theorem toList_entryFor (owner member : String) :
    (entryFor (some owner) member).toList = owner.toList ++ '.' :: member.toList := by
  simp [entryFor]

theorem cutLast?_entryFor (h : '.' ∉ member.toList) :
    Text.cutLast? '.' (entryFor owner? member).toList = owner?.map fun owner => (owner.toList, member.toList) := by
  cases owner? with
  | none => exact Text.cutLast?_eq_none_iff.2 h
  | some owner => rw [toList_entryFor, Text.cutLast?_append h, Option.map_some]

/-- Every entry is written for some member: with a point for a member of an owner, else for a member of any. -/
theorem exists_entryFor (entry : String) :
    ∃ owner? member, '.' ∉ member.toList ∧ entry = entryFor owner? member := by
  cases hcut : Text.cutLast? '.' entry.toList with
  | none => exact ⟨none, entry, Text.cutLast?_eq_none_iff.1 hcut, rfl⟩
  | some parts =>
    obtain ⟨owner, name⟩ := parts
    obtain ⟨hentry, hname⟩ := Text.cutLast?_eq_some_iff.1 hcut
    refine ⟨some (String.ofList owner), String.ofList name, by simpa using hname, ?_⟩
    rw [← String.toList_inj, toList_entryFor, hentry, String.toList_ofList, String.toList_ofList]

/-- No entry is written for two members without points in their names. -/
theorem entryFor_inj (h : '.' ∉ member.toList) (h' : '.' ∉ member'.toList)
    (heq : entryFor owner? member = entryFor owner'? member') : owner? = owner'? ∧ member = member' := by
  have hcut := congrArg (fun entry => Text.cutLast? '.' entry.toList) heq
  simp only [cutLast?_entryFor h, cutLast?_entryFor h'] at hcut
  cases owner? <;> cases owner'? <;> simp_all [entryFor, String.toList_inj]

/-- An entry names the member for which it is written, of any owner if it tells none. -/
theorem entryNames_entryFor (h : '.' ∉ member.toList) : entryNames owner'? member' (entryFor owner? member) = true ↔
    member = member' ∧ (owner? = none ∨ owner? = owner'?) := by
  rw [entryNames, cutLast?_entryFor h]
  cases owner? with
  | none => simp [entryFor]
  | some owner => simp [eq_comm (a := owner'?)]

/-! ## Members that are left out -/

/-- A member is left out just if its name has no point and the list has it, alone or behind the name of the owner. -/
theorem excludes_iff (s : Settings) : s.excludes owner? member = true ↔ '.' ∉ member.toList ∧
    (member ∈ s.excludedMembers ∨ ∃ owner, owner? = some owner ∧ owner ++ "." ++ member ∈ s.excludedMembers) := by
  rw [excludes, List.any_eq_true]
  constructor
  · rintro ⟨entry, hentry, hnames⟩
    obtain ⟨owner'?, name, hname, rfl⟩ := exists_entryFor entry
    obtain ⟨rfl, rfl | rfl⟩ := (entryNames_entryFor hname).1 hnames
    · exact ⟨hname, .inl hentry⟩
    · cases owner'? with
      | none => exact ⟨hname, .inl hentry⟩
      | some owner => exact ⟨hname, .inr ⟨owner, rfl, hentry⟩⟩
  · rintro ⟨hmember, hentry | ⟨owner, rfl, hentry⟩⟩
    · exact ⟨entryFor none member, hentry, (entryNames_entryFor hmember).2 ⟨rfl, .inl rfl⟩⟩
    · exact ⟨entryFor (some owner) member, hentry, (entryNames_entryFor hmember).2 ⟨rfl, .inr rfl⟩⟩

end Settings

namespace Config

open Settings (entryFor)

/-! ## Entries that are accepted -/

theorem namesMember_entryFor {owner? : Option String} {member : String} (h : '.' ∉ member.toList) :
    namesMember (entryFor owner? member) = true ↔ member ≠ "" := by
  have hlast : ∀ c ∈ member.toList.getLast?, c ≠ '.' := fun c hc heq => h (heq ▸ List.mem_of_mem_getLast? hc)
  have hempty : member.toList.getLast? = none ↔ member = "" := by simp
  cases owner? with
  | none =>
    rw [namesMember, entryFor]
    cases hc : member.toList.getLast? <;> simp_all
  | some owner =>
    rw [namesMember, Settings.toList_entryFor, List.getLast?_append, List.getLast?_cons]
    cases hc : member.toList.getLast? <;> simp_all

/-- An entry names a member just if there is one, and no other, for which it is written. -/
theorem namesMember_iff (entry : String) : namesMember entry = true ↔
    ∃! m : Option String × String, (m.2 ≠ "" ∧ '.' ∉ m.2.toList) ∧ entry = entryFor m.1 m.2 := by
  constructor
  · intro hentry
    obtain ⟨owner?, member, hmember, rfl⟩ := Settings.exists_entryFor entry
    refine ⟨(owner?, member), ⟨⟨(namesMember_entryFor hmember).1 hentry, hmember⟩, rfl⟩, ?_⟩
    rintro ⟨owner'?, member'⟩ ⟨⟨-, hmember'⟩, heq⟩
    obtain ⟨rfl, rfl⟩ := Settings.entryFor_inj hmember hmember' heq
    rfl
  · rintro ⟨⟨owner?, member⟩, ⟨⟨hne, hmember⟩, rfl⟩, -⟩
    exact (namesMember_entryFor hmember).2 hne

theorem check_eq_ok_iff (c : Config) :
    c.check = .ok c ↔ ∀ entry ∈ c.settings.excludedMembers, namesMember entry = true := by
  have hnone : c.settings.excludedMembers.find? (!namesMember ·) = none ↔
      ∀ entry ∈ c.settings.excludedMembers, namesMember entry = true := by
    simp [List.find?_eq_none]
  rw [← hnone, check]
  split <;> simp_all

/-- A configuration is accepted just if each entry of its list is written for one member, and no other, whose name is not
empty and has no point. Of members without points in their names the list leaves out those that it has, alone or behind
the name of the owner; a member with a point in its name is never left out. -/
theorem excludes_exact (c : Config) :
    (c.check = .ok c ↔ ∀ entry ∈ c.settings.excludedMembers,
      ∃! m : Option String × String, (m.2 ≠ "" ∧ '.' ∉ m.2.toList) ∧ entry = entryFor m.1 m.2) ∧
    ∀ owner? member, c.settings.excludes owner? member = true ↔ '.' ∉ member.toList ∧
      (member ∈ c.settings.excludedMembers ∨
        ∃ owner, owner? = some owner ∧ owner ++ "." ++ member ∈ c.settings.excludedMembers) :=
  ⟨(check_eq_ok_iff c).trans (forall₂_congr fun entry _ => namesMember_iff entry),
    fun _ _ => c.settings.excludes_iff⟩

/-- A configuration whose list has two members with points in their names, one of any owner and one of `Headers`. -/
def pointed : Config := { default with
  settings := { Settings.default with excludedMembers := ["content.type", "Headers.content.length"] } }

/-- Members whose names have a point are not left out, although the list has them. -/
theorem pointed_overlooked :
    read "[resolver]\nexcluded_members = [\"content.type\", \"Headers.content.length\"]\n" = .ok pointed ∧
    pointed.check = .ok pointed ∧
    ("content.type" ∈ pointed.settings.excludedMembers ∧ pointed.settings.excludes none "content.type" = false) ∧
    ("Headers" ++ "." ++ "content.length" ∈ pointed.settings.excludedMembers ∧
      pointed.settings.excludes (some "Headers") "content.length" = false) := by
  decide +kernel

end Config

end TypeBundle
