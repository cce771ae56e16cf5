import Rehome.Migration.Remote
import Rehome.Request

/-! # Clients of an installation

The requests that an installation is asked with. There is no network behind a client: every request is
refused as a failure of the transport. -/

namespace Rehome

structure Client where
  baseUrl : String
  sessionToken : Option String
deriving DecidableEq, Repr

namespace Client

def new (url : String) (sessionToken : Option String) : Client := ⟨trimSlashes url, sessionToken⟩

/-- The address of an entity. -/
def url (c : Client) (entity : Entity) : String :=
  s!"{c.baseUrl}/api/{entity.kind.name}/{entity.id.toNat}"

/-- The header that carries the session token. -/
def headers (c : Client) : List (String × String) :=
  (c.sessionToken.map fun token => ("X-Metabase-Session", token)).toList

def fetchRequest (c : Client) (entity : Entity) : Request := ⟨"GET", c.url entity, c.headers, none⟩

def pushRequest (c : Client) (entity : Entity) (document : Json) : Request :=
  ⟨"PUT", c.url entity, c.headers, some document⟩

end Client

instance : Remote Client where
  fetch _ c := (.error .http, c)
  push _ _ c := (.error .http, c)

end Rehome
