import PathRouting.Config.Basic

/-! The rules that a configuration has to meet beyond its form. All violations are
reported, route by route, the log level last. -/

namespace PathRouting

/-- A field that breaks a rule. -/
structure Problem where
  field : String
  reason : String
  deriving DecidableEq

namespace Problem

def text (p : Problem) : String := p.field ++ ": " ++ p.reason

def textAll (ps : List Problem) : String := ", ".intercalate (ps.map text)

end Problem

namespace Config

def logLevels : List String := ["trace", "debug", "info", "warn", "error"]

/-- The name of a field of the route at an index. -/
def routeField (i : Nat) (field : String) : String :=
  "routes[" ++ toString i ++ "]." ++ field

/-- What is wrong with a path: it has to be a lone star or begin with a slash. -/
def pathProblem? (path : Text) : Option String :=
  if path.isEmpty then some "must not be empty"
  else if path ≠ ['*'] ∧ path.head? ≠ some '/' then
    some (RouteError.quoted path ++ " must start with '/' or be '*'")
  else none

/-- What is wrong with the name of a handler: it has to have a character that is not white
space. -/
def handlerProblem? (handler : String) : Option String :=
  if (Text.trim handler.toList).isEmpty then some "must not be empty" else none

/-- What is wrong with a log level: it has to be a known one, up to the case of its
letters. -/
def logLevelProblem? (level : String) : Option String :=
  if logLevels.contains (Text.lowerAscii level.toList).toString then none
  else some (RouteError.quoted level.toList ++ " is not one of " ++ ", ".intercalate logLevels)

def routeProblems (i : Nat) (e : RouteEntry) : List Problem :=
  ((pathProblem? e.path).map (Problem.mk (routeField i "path"))).toList ++
    ((handlerProblem? e.handler).map (Problem.mk (routeField i "handler"))).toList

/-- The problems of routes, the first of which has the index `i`. -/
def routesProblems (i : Nat) : List RouteEntry → List Problem
  | [] => []
  | e :: es => routeProblems i e ++ routesProblems (i + 1) es

def problems (c : Config) : List Problem :=
  routesProblems 0 c.routes ++
    ((logLevelProblem? c.logLevel).map (Problem.mk "observability.log_level")).toList

end Config

/-- The directive that selects what is logged at a level. -/
def logDirective (level : String) : String :=
  "route_matcher=" ++ (Text.lowerAscii level.toList).toString

end PathRouting
