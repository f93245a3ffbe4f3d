import SanitizeGen.Rendering
import SanitizeGen.Table

/-!
# The vault package

A release package: its generated functions never show a field. Two of its structs are tagged, one is
not.
-/

namespace SanitizeGen.Demo.Vault

open Text (Structured)

/-- The structs of the package. -/
inductive Code where
  | credential
  | apiKey
  | auditNote
  deriving DecidableEq

/-- A user's secret. -/
structure Credential where
  user : String
  secret : String

/-- A key and what it may be used for. -/
structure ApiKey where
  key : String
  scopes : List String

/-- A note that no function was generated for. -/
structure AuditNote where
  text : String

instance : TypeCode Code where
  El
    | .credential => Credential
    | .apiKey => ApiKey
    | .auditNote => AuditNote
  typeName
    | .credential => "mrclean_demo_vault::vault::Credential"
    | .apiKey => "mrclean_demo_vault::vault::ApiKey"
    | .auditNote => "mrclean_demo_vault::vault::AuditNote"
  view
    | .credential, x =>
      .record "Credential" [("user", .ofString x.user), ("secret", .ofString x.secret)]
    | .apiKey, x => .tuple "ApiKey" [.ofString x.key, .list (x.scopes.map .ofString)]
    | .auditNote, x => .record "AuditNote" [("text", .ofString x.text)]

/-- The target for credentials. -/
def credentialTarget : Target := ⟨"vault::Credential", [.ofLabel "user", .ofLabel "secret"], {}⟩

/-- The target for keys, whose second field would be printed for developers. -/
def apiKeyTarget : Target := ⟨"vault::ApiKey", [.ofLabel "0", ⟨"1", "1", .debug, none⟩], {}⟩

/-- The texts of a credential's fields. -/
def Credential.texts (x : Credential) : List FieldText :=
  [⟨x.user, Text.quoteString x.user⟩, ⟨x.secret, Text.quoteString x.secret⟩]

/-- The texts of a key's fields; the second has no display text. -/
def ApiKey.texts (x : ApiKey) : List FieldText :=
  [⟨x.key, Text.quoteString x.key⟩,
    ⟨"", (Structured.list (x.scopes.map Structured.ofString)).compact⟩]

/-- The generated function for credentials. -/
def Credential.sanitized (x : Live Credential) : String :=
  credentialTarget.rendered .release x.identityHash x.value.texts

/-- The generated function for keys. -/
def ApiKey.sanitized (x : Live ApiKey) : String :=
  apiKeyTarget.rendered .release x.identityHash x.value.texts

/-- The table with the package's generated functions. -/
def table : Table Code :=
  ((Table.empty .release).register .credential Credential.sanitized).register .apiKey
    ApiKey.sanitized

end SanitizeGen.Demo.Vault
