import PathRouting.Regex.Escape

/-! The model of one chunk of a path template, that is, of what stands between two
slashes, and the fragment of a pattern that each part of it contributes. -/

namespace PathRouting

/-- How far the value of a parameter may reach. -/
inductive Reach where
  /-- Up to the next slash. -/
  | chunk
  /-- Across slashes. -/
  | path
  deriving DecidableEq

/-- An undivided part of a template. -/
inductive Element where
  /-- Fixed text. `raw` text is already a pattern. -/
  | literal (text : Text) (raw : Bool)
  /-- A named value. -/
  | parameter (name : Text) (reach : Reach)
  /-- Any text, slashes included. -/
  | wildcard
  deriving DecidableEq, Inhabited

/-- What stands between two slashes: one element, or several parts one after another. -/
inductive Segment where
  | element (e : Element)
  | composite (parts : List Segment)
  deriving Inhabited

/-- Whether the parameters of a pattern are groups that remember their text. -/
inductive Grouping where
  | plain
  | capturing
  deriving DecidableEq

namespace Reach

/-- The pattern of the values that a parameter takes: one character or more, as few as
possible, without a slash or without a line break. -/
def body : Reach → Text
  | chunk => ['[', '^', '/', ']', '+', '?']
  | path => ['.', '+', '?']

end Reach

namespace Element

/-- The pattern of a wildcard: any characters but line breaks, as few as possible. -/
def wildcardBody : Text := ['.', '*', '?']

def fragment (g : Grouping) : Element → Text
  | literal text raw => if raw then text else Regex.escape text
  | parameter _ reach =>
    match g with
    | .plain => reach.body
    | .capturing => '(' :: reach.body ++ [')']
  | wildcard => wildcardBody

def names : Element → List Text
  | parameter name _ => [name]
  | _ => []

end Element

namespace Segment

mutual

def elements : Segment → List Element
  | element e => [e]
  | composite parts => elementsAll parts

def elementsAll : List Segment → List Element
  | [] => []
  | s :: ss => s.elements ++ elementsAll ss

end

mutual

def fragment (g : Grouping) : Segment → Text
  | element e => e.fragment g
  | composite parts => fragmentAll g parts

def fragmentAll (g : Grouping) : List Segment → Text
  | [] => []
  | s :: ss => s.fragment g ++ fragmentAll g ss

end

mutual

/-- The names of the parameters from left to right. -/
def names : Segment → List Text
  | element e => e.names
  | composite parts => namesAll parts

def namesAll : List Segment → List Text
  | [] => []
  | s :: ss => s.names ++ namesAll ss

end

end Segment

end PathRouting
