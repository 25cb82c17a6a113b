import PortGraph.Port

/-!
# Links

A link leads from an output to an input of the same data type.  Its id is drawn when it is made
and stays with it.
-/

set_option autoImplicit false

namespace PortGraph

/-- What a link is known by.  No link has the number zero. -/
structure LinkId where
  /-- The number that tells it from the others. -/
  number : Nat
  deriving DecidableEq, Repr

namespace LinkId

/-- The id that no link has. -/
def nil : LinkId := ⟨0⟩

/-- The last `count` hexadecimal digits of a natural. -/
def lastDigits (count n : Nat) : List Char :=
  match count with
  | 0 => []
  | count + 1 => lastDigits count (n / 16) ++ [Nat.digitChar (n % 16)]

/-- The text of an id: thirty-two hexadecimal digits in five groups. -/
def text (id : LinkId) : String :=
  let digits := lastDigits 32 id.number
  let group (start count : Nat) : String := String.ofList ((digits.drop start).take count)
  String.intercalate "-" [group 0 8, group 8 4, group 12 4, group 16 4, group 20 12]

end LinkId

/-- A link between two ports of a graph. -/
structure Link where
  /-- What it is known by. -/
  id : LinkId
  /-- The output it starts at. -/
  source : Endpoint
  /-- The input it ends at. -/
  target : Endpoint
  /-- What both ends carry. -/
  dataType : DataType
  deriving DecidableEq, Repr

namespace Link

/-- Whether one of the ends lies on a node. -/
def touches (l : Link) (node : String) : Bool := l.source.node = node || l.target.node = node

/-- The link with a node renamed at both ends. -/
def rename (l : Link) (old new : String) : Link :=
  { l with source := l.source.rename old new, target := l.target.rename old new }

end Link

end PortGraph
