import SanitizeGen.Rendering
import SanitizeGen.Table

/-!
# The accounts package

A debug package with two tagged structs in its module `user`, and one struct without a tag.
-/

namespace SanitizeGen.Demo.Accounts

open Text (Structured)

/-- The structs of the package. -/
inductive Code where
  | account
  | session
  | untagged
  deriving DecidableEq

/-- An account, by number and mail address. -/
structure Account where
  id : Nat
  email : String

/-- A session, by its token and the seconds it has left. -/
structure Session where
  token : String
  ttl : Option Nat

/-- A note that no function was generated for. -/
structure Untagged where
  note : String

instance : TypeCode Code where
  El
    | .account => Account
    | .session => Session
    | .untagged => Untagged
  typeName
    | .account => "mrclean_demo_accounts::user::Account"
    | .session => "mrclean_demo_accounts::user::Session"
    | .untagged => "mrclean_demo_accounts::user::Untagged"
  view
    | .account, x =>
      .record "Account" [("id", .atom (toString x.id)), ("email", .ofString x.email)]
    | .session, x =>
      .tuple "Session" [.ofString x.token, .ofOption (x.ttl.map fun n => .atom (toString n))]
    | .untagged, x => .record "Untagged" [("note", .ofString x.note)]

/-- The target for accounts. -/
def accountTarget : Target := ⟨"user::Account", [.ofLabel "id", .ofLabel "email"], {}⟩

/-- The target for sessions, whose second field is printed for developers. -/
def sessionTarget : Target :=
  ⟨"user::Session", [.ofLabel "0", ⟨"1", "1", .debug, none⟩], {}⟩

/-- The texts of an account's fields. -/
def Account.texts (x : Account) : List FieldText :=
  [⟨toString x.id, toString x.id⟩, ⟨x.email, Text.quoteString x.email⟩]

/-- The texts of a session's fields; the second has no display text. -/
def Session.texts (x : Session) : List FieldText :=
  [⟨x.token, Text.quoteString x.token⟩,
    ⟨"", (Structured.ofOption (x.ttl.map fun n => .atom (toString n))).compact⟩]

/-- The generated function for accounts. -/
def Account.sanitized (x : Live Account) : String :=
  accountTarget.rendered .debug x.identityHash x.value.texts

/-- The generated function for sessions. -/
def Session.sanitized (x : Live Session) : String :=
  sessionTarget.rendered .debug x.identityHash x.value.texts

/-- The table with the package's generated functions. -/
def table : Table Code :=
  ((Table.empty .debug).register .account Account.sanitized).register .session Session.sanitized

end SanitizeGen.Demo.Accounts
