import Nut.Common.CString

set_option autoImplicit false

namespace Nut

-- `ulist_t`
structure User where
  username : CString
  password : Option CString
  firstcmd : List CString
  firstaction : List CString
  deriving DecidableEq, Repr

def isCommand (arg : CString) (word : String) : Bool :=
  strcasecmp arg (cstr word) == .eq

def userMatchinstcmd (user : User) (cmd : CString) : Bool :=
  user.firstcmd.any fun item => strcasecmp item cmd == .eq || isCommand item "all"

def userMatchaction (user : User) (action : String) : Bool :=
  user.firstaction.any fun item => isCommand item action

-- The first entry with a password and this name decides.
def userCheck (matches_ : User -> Bool) (un pw : CString) : List User -> Bool
  | [] => false
  | tmp :: rest =>
    match tmp.password with
    | none => userCheck matches_ un pw rest
    | some password =>
      if tmp.username ≠ un then userCheck matches_ un pw rest
      else if password ≠ pw then false
      else matches_ tmp

def userCheckinstcmd (users : List User) (un pw : Option CString) (cmd : CString) : Bool :=
  match un, pw with
  | some un, some pw => userCheck (userMatchinstcmd · cmd) un pw users
  | _, _ => false

def userCheckaction (users : List User) (un pw : Option CString) (action : String) : Bool :=
  match un, pw with
  | some un, some pw => userCheck (userMatchaction · action) un pw users
  | _, _ => false

theorem userCheck_entry {matches_ : User -> Bool} {un pw : CString} {users : List User}
    (passed : userCheck matches_ un pw users = true) :
    ∃ user ∈ users, user.username = un ∧ user.password = some pw ∧ matches_ user = true := by
  induction users with
  | nil => cases passed
  | cons tmp rest ih =>
    have later (passed : userCheck matches_ un pw rest = true) :
        ∃ user ∈ tmp :: rest, user.username = un ∧ user.password = some pw ∧ matches_ user = true := by
      obtain ⟨user, member, found⟩ := ih passed
      exact ⟨user, by simp [member], found⟩
    cases password : tmp.password with
    | none =>
      simp only [userCheck, password] at passed
      exact later passed
    | some known =>
      simp only [userCheck, password] at passed
      split_ifs at passed with other wrong
      · exact later passed
      · exact ⟨tmp, by simp, by simpa using other, by simpa [password] using wrong, passed⟩

def Grants (table : List User) (un pw : Option CString) (granted : User -> Prop) : Prop :=
  ∃ user ∈ table, un = some user.username ∧ pw = user.password ∧ pw ≠ none ∧ granted user

def GrantsAction (action : String) (user : User) : Prop :=
  ∃ item ∈ user.firstaction, strcasecmp item (cstr action) = .eq

def GrantsInstcmd (cmd : CString) (user : User) : Prop :=
  ∃ item ∈ user.firstcmd, strcasecmp item cmd = .eq ∨ strcasecmp item (cstr "all") = .eq

theorem userCheckaction_grants {users : List User} {un pw : Option CString} {action : String}
    (passed : userCheckaction users un pw action = true) : Grants users un pw (GrantsAction action) := by
  cases un with
  | none => cases passed
  | some un =>
    cases pw with
    | none => cases passed
    | some pw =>
      obtain ⟨user, member, name, password, matched⟩ := userCheck_entry passed
      obtain ⟨item, inside, same⟩ := List.any_eq_true.mp matched
      exact ⟨user, member, by rw [name], password.symm, by simp, item, inside, by
        simpa [isCommand] using same⟩

theorem userCheckinstcmd_grants {users : List User} {un pw : Option CString} {cmd : CString}
    (passed : userCheckinstcmd users un pw cmd = true) : Grants users un pw (GrantsInstcmd cmd) := by
  cases un with
  | none => cases passed
  | some un =>
    cases pw with
    | none => cases passed
    | some pw =>
      obtain ⟨user, member, name, password, matched⟩ := userCheck_entry passed
      obtain ⟨item, inside, same⟩ := List.any_eq_true.mp matched
      exact ⟨user, member, by rw [name], password.symm, by simp, item, inside, by
        simpa [isCommand] using same⟩

end Nut
