/-! Sets of role names, kept sorted and without repetition. -/

namespace PathRouting

/-- The roles that a route asks for, in increasing order. -/
abbrev Roles := List String

namespace Roles

/-- Adds a role at its place in the order, unless it is there already. -/
def insert (role : String) : Roles → Roles
  | [] => [role]
  | r :: rs =>
    if role < r then role :: r :: rs
    else if role = r then r :: rs
    else r :: insert role rs

def ofList (roles : List String) : Roles := roles.foldr insert []

end Roles

end PathRouting
