import PathRouting.Unicode.CaseFold
import PathRouting.Unicode.Property

/-! Sets of characters as a pattern writes them. A set stays the expression that was
written, and membership is evaluated on it. -/

namespace PathRouting

open Unicode

/-- A set of characters. -/
inductive CharSet where
  /-- The characters between two bounds, both included. -/
  | range (low high : Char)
  /-- The characters that are `c` up to case. -/
  | caseless (c : Char)
  /-- The characters with a property. -/
  | property (p : Property)
  | union (a b : CharSet)
  | inter (a b : CharSet)
  | compl (a : CharSet)
  /-- The characters that are up to case some member of `a`. -/
  | folded (a : CharSet)
  /-- The set without members. -/
  | none
  deriving DecidableEq

namespace CharSet

def contains : CharSet → Char → Bool
  | range low high, c => low.toNat ≤ c.toNat && c.toNat ≤ high.toNat
  | caseless d, c => sameFold d c
  | property p, c => p.holds c
  | union a b, c => a.contains c || b.contains c
  | inter a b, c => a.contains c && b.contains c
  | compl a, c => !a.contains c
  | folded a, c => (caseVariants c).any fun d => a.contains d
  | none, _ => false

def single (c : Char) : CharSet := range c c

def diff (a b : CharSet) : CharSet := inter a (compl b)

def symmDiff (a b : CharSet) : CharSet := union (diff a b) (diff b a)

def unions : List CharSet → CharSet
  | [] => none
  | [a] => a
  | a :: as => union a (unions as)

/-- The set, closed under change of case if `caseless` is set. -/
def foldedIf (caseless : Bool) (a : CharSet) : CharSet := if caseless then folded a else a

/-- The complement if `negated` is set, else the set itself. -/
def complIf (negated : Bool) (a : CharSet) : CharSet := if negated then compl a else a

def digits : CharSet := property (.category ["Nd"])

def blanks : CharSet := property (.binary "whitespace")

/-- The characters of words: letters and what behaves like them, marks, decimal digits,
connecting punctuation and the joiners. -/
def wordChars : CharSet :=
  unions [property (.binary "alphabetic"), property (.category ["Mn", "Mc", "Me", "Nd", "Pc"]),
    property (.binary "joincontrol")]

def asciiDigits : CharSet := range '0' '9'

def asciiBlanks : CharSet := union (range '\t' '\r') (single ' ')

def asciiWordChars : CharSet :=
  unions [range '0' '9', range 'A' 'Z', single '_', range 'a' 'z']

/-- The classes of ASCII characters that have a name of their own inside brackets. -/
def asciiClass? (name : Text) : Option CharSet :=
  [("alnum", unions [range '0' '9', range 'A' 'Z', range 'a' 'z']),
    ("alpha", unions [range 'A' 'Z', range 'a' 'z']),
    ("ascii", range '\x00' '\x7F'),
    ("blank", unions [single '\t', single ' ']),
    ("cntrl", unions [range '\x00' '\x1F', single '\x7F']),
    ("digit", asciiDigits),
    ("graph", range '!' '~'),
    ("lower", range 'a' 'z'),
    ("print", range ' ' '~'),
    ("punct", unions [range '!' '/', range ':' '@', range '[' '\x60', range '\x7B' '~']),
    ("space", asciiBlanks),
    ("upper", range 'A' 'Z'),
    ("word", asciiWordChars),
    ("xdigit", unions [range '0' '9', range 'A' 'F', range 'a' 'f'])].lookup (String.ofList name)

end CharSet

end PathRouting
