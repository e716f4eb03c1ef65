/-
# Every token and every username belongs to one principal

The directory knows principals by number, by username and by token. A principal
enters it only if all three are new, which is checked before anything is stored, so
that a refused entry leaves the directory as it was.

Key definitions: `Directory`, `Directory.insert`, `Directory.ofEntries`,
`Directory.authenticate`, `Directory.lookup?`, `Directory.findByUsername?`.
-/
import DeviceRelay.Config

namespace DeviceRelay

/-- The known principals, and the number of the one that a token or a username names. -/
structure Directory where
  principals : List (PrincipalId × Principal) := []
  tokens : List (String × PrincipalId) := []
  usernames : List (String × PrincipalId) := []
  deriving Repr, Inhabited

namespace Directory

/-- The principal with a number. -/
def lookup? (d : Directory) (id : PrincipalId) : Option Principal := d.principals.lookup id

/-- The principal with a username. -/
def findByUsername? (d : Directory) (username : String) : Option Principal :=
  (d.usernames.lookup username).bind d.lookup?

/-- The principal whose token is presented. -/
def authenticate (d : Directory) (token : String) : Except Error Principal :=
  match (d.tokens.lookup token).bind d.lookup? with
  | some p => .ok p
  | none => .error .unauthorized

def size (d : Directory) : Nat := d.principals.length

/-- Why an entry may not enter, if so. -/
def refusal? (d : Directory) (entry : PrincipalEntry) : Option String :=
  if (d.principals.lookup entry.principal.id).isSome then
    some s!"duplicate principal id {entry.principal.id}"
  else if (d.usernames.lookup entry.principal.username).isSome then
    some s!"duplicate username {Text.quoted entry.principal.username}"
  else if (d.tokens.lookup entry.token).isSome then
    some s!"duplicate token for principal {entry.principal.id}"
  else none

/-- The directory with one more principal. -/
def insert (d : Directory) (entry : PrincipalEntry) : Except ConfigError Directory :=
  match d.refusal? entry with
  | some reason => .error (.invalid reason)
  | none =>
    let p := entry.principal
    .ok { principals := d.principals ++ [(p.id, p)]
          tokens := d.tokens ++ [(entry.token, p.id)]
          usernames := d.usernames ++ [(p.username, p.id)] }

/-- The directory of the entries of a configuration. -/
def ofEntries (entries : List PrincipalEntry) : Except ConfigError Directory :=
  entries.foldlM insert {}

end Directory
end DeviceRelay
