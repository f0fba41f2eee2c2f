import PathRouting.Policy
import PathRouting.RouteError
import PathRouting.Regex.Reader
import PathRouting.Regex.Search
import PathRouting.Template.Segment

/-! The patterns of a template: the fragments of its segments with a slash before each of
them and the suffix of the path behind, between the ends of the text. Each pattern comes in
two forms, one to decide and one with a group for every parameter to tell the values. -/

namespace PathRouting

/-- A pattern with the text that writes it. -/
structure Pattern where
  text : Text
  regex : Regex

/-- A way to follow a template, as a pattern in both forms. -/
structure Variant where
  matching : Pattern
  capturing : Pattern

namespace Template

def separator (policy : Policy) : Text := if policy.mergeSlashes then ['/', '+'] else ['/']

/-- The pattern of what may follow the last chunk of a path. -/
def suffix (policy : Policy) (path : Text) : Text :=
  if path = ['/'] then []
  else if path.getLast? = some '/' then separator policy
  else if policy.ignoreTrailingSlashes then
    if policy.mergeSlashes then ['/', '*'] else ['/', '?']
  else []

def patternText (policy : Policy) (path : Text) (g : Grouping) (segments : List Segment) :
    Text :=
  '^' :: separator policy ++ Text.join (separator policy) (segments.map (Segment.fragment g)) ++
    suffix policy path ++ ['$']

/-- The ways to follow segments; with `subPaths` the path may go on below them. -/
def ways (subPaths : Bool) (segments : List Segment) : List (List Segment) :=
  if subPaths then [segments, segments ++ [.element .wildcard]] else [segments]

def pattern (policy : Policy) (path : Text) (g : Grouping) (segments : List Segment) :
    Except RouteError Pattern :=
  let text := patternText policy path g segments
  match Regex.read policy.caseless text with
  | .ok regex => .ok ⟨text, regex⟩
  | .error _ => .error (.invalidPattern path)

def variant (policy : Policy) (path : Text) (segments : List Segment) :
    Except RouteError Variant :=
  match pattern policy path .plain segments, pattern policy path .capturing segments with
  | .ok matching, .ok capturing => .ok ⟨matching, capturing⟩
  | .error e, _ => .error e
  | _, .error e => .error e

/-- The variants of a template, the plain one first. -/
def compile (policy : Policy) (path : Text) (subPaths : Bool) (segments : List Segment) :
    Except RouteError (List Variant) :=
  (ways subPaths segments).mapM (variant policy path)

end Template

end PathRouting
