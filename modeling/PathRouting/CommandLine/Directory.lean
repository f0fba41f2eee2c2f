import PathRouting.Config.Loading

/-! The files beside which the program runs, found by the path that an argument gives. -/

namespace PathRouting.CommandLine

/-- The files of a directory by their names. -/
abbrev Directory := List (Text × List UInt8)

namespace Directory

/-- The parts of a path without those that stay where they are. -/
def parts (path : Text) : List Text :=
  (Text.pieces '/' path).filter fun p => p ≠ [] ∧ p ≠ ['.']

/-- Whether a path asks for what it leads to to be a directory. -/
def wantsDirectory (path : Text) : Bool :=
  match (Text.pieces '/' path).getLast? with
  | some last => last == [] || last == ['.']
  | none => false

/-- The file at a path. Outside of the directory nothing is found but the directories that
hold it. -/
def file (d : Directory) (path : Text) : File :=
  if path = [] then .error .missing
  else if (parts path).all (· = ['.', '.']) then .error .isDirectory
  else if path.head? = some '/' then .error .missing
  else
    match parts path with
    | [] => .error .isDirectory
    | [name] =>
      match d.lookup name with
      | none => .error .missing
      | some bytes => if wantsDirectory path then .error .notDirectory else .ok bytes
    | name :: _ => if (d.lookup name).isSome then .error .notDirectory else .error .missing

end Directory

end PathRouting.CommandLine
