import Rehome.Json.Basic

/-! # Requests to a service

What is sent to a service that is known by its base URL. -/

namespace Rehome

structure Request where
  method : String
  url : String
  headers : List (String × String)
  body : Option Json
deriving DecidableEq, Repr

/-- A base URL without the slashes at its end. -/
def trimSlashes (url : String) : String :=
  String.ofList (url.toList.reverse.dropWhile (· == '/')).reverse

end Rehome
