import PathRouting.Config.Reading
import PathRouting.Text.Utf8

/-! Loading a configuration from the contents of a file. Each stage has its own error, and
a stage is reached only if all stages before it succeed: reading the file, reading the
text, the rules of validation, and the compilation of the routes. -/

namespace PathRouting

/-- Why the text of a file cannot be had. -/
inductive FileError where
  | missing
  | notDirectory
  | isDirectory
  | notText
  deriving DecidableEq

def FileError.message : FileError → String
  | missing => "No such file or directory (os error 2)"
  | notDirectory => "Not a directory (os error 20)"
  | isDirectory => "Is a directory (os error 21)"
  | notText => "stream did not contain valid UTF-8"

/-- The bytes of a file, or why they cannot be read. -/
abbrev File := Except FileError (List UInt8)

/-- Why a configuration cannot be loaded. -/
inductive LoadError where
  | file (e : FileError)
  /-- The text is not TOML, or not a configuration. -/
  | form
  | invalid (problems : List Problem)
  | routing (e : RouteError)
  deriving DecidableEq

/-- The parts of the wording of the error. Of a text that has not the right form the reader of TOML
says more, in words of its own that are left out here. -/
def LoadError.words : LoadError → List String
  | file e => ["IO error: ", e.message]
  | form => ["Parse error"]
  | invalid problems => ["Validation failed: ", Problem.textAll problems]
  | routing e => ["Route compilation failed: ", e.message]

def LoadError.message (e : LoadError) : String := String.join e.words

def File.text (f : File) : Except FileError Text :=
  match f with
  | .error e => .error e
  | .ok bytes =>
    match Utf8.decode? bytes with
    | none => .error .notText
    | some t => .ok t

namespace Config

/-- The configuration that a text writes, if it meets the rules. -/
def parse (t : Text) : Except LoadError Config :=
  match (Toml.document? t).bind ofRows? with
  | none => .error .form
  | some c => if c.problems.isEmpty then .ok c else .error (.invalid c.problems)

def load (f : File) : Except LoadError Config :=
  match f.text with
  | .error e => .error (.file e)
  | .ok t => parse t

/-- The configuration in a file with the registry of its routes. -/
def loadRegistry (f : File) : Except LoadError (Config × Registry) := do
  let c ← load f
  match c.build with
  | .error e => .error (.routing e)
  | .ok reg => return (c, reg)

end Config

end PathRouting
