import Opnsense.Wire

namespace Opnsense

structure EndpointConfig where
  base : String
  payloadKey : String
  entitySuffix : Option String := none
  applyEndpoint : Option String := none
  updateAction : String := "set"

/-- `str.capitalize` on the ASCII letters of a payload key. -/
def capitalize (s : String) : String :=
  match s.toList with
  | [] => ""
  | c :: cs => String.ofList (c.toUpper :: cs.map Char.toLower)

namespace EndpointConfig

variable (config : EndpointConfig)

def suffix : String := config.entitySuffix.getD (capitalize config.payloadKey)

def search : String := config.base ++ "/search" ++ config.suffix

/-- The item of `uuid`, or the schema when there is none. -/
def get (uuid : Json) : Endpoint :=
  { action := config.base ++ "/get" ++ config.suffix
    ident := if uuid.truthy then some (pyStr uuid) else none }

def add : String := config.base ++ "/add" ++ config.suffix

def set : String := config.base ++ "/" ++ config.updateAction ++ config.suffix

def delete : String := config.base ++ "/del" ++ config.suffix

def apply : Option String := config.applyEndpoint

theorem get_str {u : String} (h : u ≠ "") :
    config.get (.str u) =
      { action := config.base ++ "/get" ++ config.suffix, ident := some u } := by
  simp [get, Json.truthy, h]

end EndpointConfig
end Opnsense
