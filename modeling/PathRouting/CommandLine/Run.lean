import PathRouting.CommandLine.Arguments
import PathRouting.CommandLine.Directory
import PathRouting.Json.Kind
import PathRouting.Resolution

/-! What the program prints. The configuration is loaded and its routes are registered
whatever the command is, so a faulty configuration fails all commands alike. -/

namespace PathRouting.CommandLine

def jsonStrings (xs : List String) : Json := .array (xs.map .string)

/-- Inserts a field at its place in the order of the names. -/
def insertField (f : Text × Text) : List (Text × Text) → List (Text × Text)
  | [] => [f]
  | g :: gs => if Text.precedes f.1 g.1 then f :: g :: gs else g :: insertField f gs

/-- The values of parameters as a JSON value, in the order of the names. -/
def jsonParams (ps : List (Text × Text)) : Json :=
  .object ((ps.foldr insertField []).map fun (name, value) =>
    (name.toString, .string value.toString))

def jsonRoute (r : Route) : Json :=
  .object
    [("method", r.kind.toJson), ("path", .string r.path.toString),
      ("params", jsonStrings (r.template.names.map Text.toString)),
      ("handler", .string r.handler), ("roles", jsonStrings r.roles)]

/-- The outcome of a request as it is printed. The methods allowed are left out if there
are none. -/
def jsonResolution (r : Resolution) : Json :=
  .object
    ([("status", .number (toString r.status)), ("before", jsonStrings r.before),
        ("endpoint", (r.endpoint.map Json.string).getD .null), ("params", jsonParams r.params),
        ("after", jsonStrings r.after)] ++
      if r.allow.isEmpty then [] else [("allow", .array (r.allow.map Kind.toJson))])

/-- Why the program fails once its arguments are understood. -/
inductive Failure where
  | load (e : LoadError)
  | route (e : RouteError)
  deriving DecidableEq

def Failure.message : Failure → String
  | load e => e.message
  | route e => e.message

/-- What a command prints about registered routes. -/
def report (config : Text) (reg : Registry) : Command → Text
  | .check => config ++ ": ".toList ++ (toString reg.size).toList ++ " routes OK".toList
  | .routes => (Json.array (reg.all.map jsonRoute)).pretty
  | .resolve method path => (jsonResolution (reg.resolve method path)).pretty

/-- What an invocation prints, its configuration being in a file. -/
def run (inv : Invocation) (file : File) : Except Failure Text :=
  match Config.load file with
  | .error e => .error (.load e)
  | .ok config =>
    match config.build with
    | .error e => .error (.route e)
    | .ok reg => .ok (report inv.config reg inv.command ++ ['\n'])

/-- What the program leaves behind: its exit code, what it has printed, and what it has said
about a failure. -/
structure Outcome where
  exit : UInt32
  out : Text
  err : Text
  deriving DecidableEq

/-- How an invocation ends, its configuration being in a file. If it fails nothing is
printed. -/
def outcome (inv : Invocation) (file : File) : Outcome :=
  match run inv file with
  | .ok out => ⟨0, out, []⟩
  | .error e => ⟨1, [], "Error: ".toList ++ e.message.toList ++ ['\n']⟩

end PathRouting.CommandLine
