/-! The policy under which request paths are compared with templates. -/

namespace PathRouting

/-- How exactly a request path has to follow a template. -/
structure Policy where
  /-- A request path may end in one more slash than the template. -/
  ignoreTrailingSlashes : Bool := true
  /-- A run of slashes in a request path counts as one slash. -/
  mergeSlashes : Bool := false
  /-- Upper and lower case are the same. -/
  caseless : Bool := false
  /-- The literal text of templates is a pattern of its own. -/
  rawLiterals : Bool := false
  deriving DecidableEq, Inhabited

end PathRouting
