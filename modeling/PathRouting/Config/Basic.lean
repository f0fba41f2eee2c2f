import PathRouting.Registry

/-! The configuration of a program that routes requests: a policy, the routes in their
order, and how much is logged. -/

namespace PathRouting

/-- A route as it is configured. -/
structure RouteEntry where
  kind : Kind
  path : Text
  handler : String
  roles : Roles := []
  deriving DecidableEq

/-- A configuration. -/
structure Config where
  policy : Policy := {}
  routes : List RouteEntry := []
  logLevel : String := "info"
  deriving DecidableEq

namespace Config

def register (reg : Registry) : List RouteEntry → Except RouteError Registry
  | [] => .ok reg
  | e :: es => do
    let reg ← reg.addPath e.kind e.path e.handler e.roles
    register reg es

/-- The registry of the configured routes. -/
def build (c : Config) : Except RouteError Registry := register { policy := c.policy } c.routes

end Config

end PathRouting
