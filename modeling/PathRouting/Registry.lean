import PathRouting.Roles
import PathRouting.Template.Basic

/-! The registry of routes. It keeps them by kind, those of one kind in the order in which
they were registered. -/

namespace PathRouting

/-- A registered route. -/
structure Route where
  kind : Kind
  template : Template
  handler : String
  roles : Roles

namespace Route

/-- The path as it was written. -/
def path (r : Route) : Text := r.template.path

/-- Whether the route answers a request path. A lone star answers every path, and a path
answers itself; otherwise the template decides. -/
def accepts (r : Route) (uri : Text) : Bool :=
  r.path == ['*'] || r.path == uri || r.template.accepts uri

/-- The values of the parameters in a request path. -/
def params (r : Route) (uri : Text) : List (Text × Text) := r.template.params uri

end Route

/-- The routes registered under a policy. A kind has a bucket from the time on when a route
was offered for it. -/
structure Registry where
  policy : Policy := {}
  bucket? : Kind → Option (List Route) := fun _ => none

namespace Registry

/-- The routes of one kind in the order of registration. -/
def ofKind (reg : Registry) (k : Kind) : List Route := (reg.bucket? k).getD []

/-- The registry with a bucket for a kind, in the place of an earlier one. -/
def withBucket (reg : Registry) (k : Kind) (routes : List Route) : Registry :=
  { reg with bucket? := fun k' => if k' = k then some routes else reg.bucket? k' }

/-- The registry with the bucket of a kind, an empty one if there was none. -/
def opened (reg : Registry) (k : Kind) : Registry := reg.withBucket k (reg.ofKind k)

def put (reg : Registry) (r : Route) : Registry :=
  reg.withBucket r.kind (reg.ofKind r.kind ++ [r])

/-- Whether a route would be the second of an HTTP method with its path. -/
def isDuplicate (reg : Registry) (r : Route) : Bool :=
  r.kind.isHttp && (reg.ofKind r.kind).any fun other => other.path == r.path

/-- Offers a route whose template has been read already. There is a bucket for its kind
afterwards, also if the route is turned down. -/
def offer (reg : Registry) (r : Route) : Registry × Except RouteError Unit :=
  let reg := reg.opened r.kind
  if reg.isDuplicate r then (reg, .error (.duplicateRoute r.kind r.path))
  else (reg.put r, .ok ())

/-- Reads a path under the policy of the registry and offers the route. -/
def offerPath (reg : Registry) (kind : Kind) (path : Text) (handler : String) (roles : Roles) :
    Registry × Except RouteError Unit :=
  match Template.ofPath reg.policy path with
  | .error e => (reg, .error e)
  | .ok template => reg.offer { kind, template, handler, roles }

/-- The registry after an offer that has to succeed. -/
def accepted (outcome : Registry × Except RouteError Unit) : Except RouteError Registry :=
  outcome.2.map fun _ => outcome.1

def add (reg : Registry) (r : Route) : Except RouteError Registry := accepted (reg.offer r)

/-- Reads a path under the policy of the registry and registers the route. -/
def addPath (reg : Registry) (kind : Kind) (path : Text) (handler : String) (roles : Roles) :
    Except RouteError Registry :=
  accepted (reg.offerPath kind path handler roles)

def find (reg : Registry) (k : Kind) (uri : Text) : List Route :=
  (reg.ofKind k).filter fun r => r.accepts uri

def has (reg : Registry) (k : Kind) (uri : Text) : Bool :=
  (reg.ofKind k).any fun r => r.accepts uri

/-- All routes, kind by kind as far as there are buckets. -/
def all (reg : Registry) : List Route :=
  (Kind.all.filter fun k => (reg.bucket? k).isSome).flatMap reg.ofKind

/-- The HTTP methods with a route that answers a request path. -/
def allowed (reg : Registry) (uri : Text) : List Kind :=
  Kind.httpMethods.filter fun k => reg.has k uri

/-- The number of routes in all buckets. -/
def size (reg : Registry) : Nat :=
  ((Kind.all.filterMap reg.bucket?).map List.length).foldr (· + ·) 0

end Registry

end PathRouting
