import Rehome.Request
import Rehome.Translator.Provider

/-! # Clients of a provider

The requests that a provider is asked with. There is no network behind a client: every request is
refused as a failure of the transport. -/

namespace Rehome

structure ProviderClient where
  baseUrl : String
  apiKey : Option String
deriving DecidableEq, Repr

namespace ProviderClient

def new (url : String) (apiKey : Option String) : ProviderClient := ⟨trimSlashes url, apiKey⟩

/-- A request that posts members to a path, with the key if there is one. -/
def post (c : ProviderClient) (path : String) (members : List (String × Json)) : Request where
  method := "POST"
  url := s!"{c.baseUrl}/{path}"
  headers := []
  body := some (.obj (members ++ (c.apiKey.map fun key => ("api_key", Json.str key)).toList))

def detectRequest (c : ProviderClient) (text : String) : Request :=
  c.post "detect" [("q", .str text)]

def translateRequest (c : ProviderClient) (text : String) (source target : Language) : Request :=
  c.post "translate"
    [("q", .str text), ("source", .str source.code), ("target", .str target.code),
     ("format", .str "text")]

end ProviderClient

instance : Provider ProviderClient where
  detect _ c := (.error .http, c)
  translate _ _ _ c := (.error .http, c)

end Rehome
