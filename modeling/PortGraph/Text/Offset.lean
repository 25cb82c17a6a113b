/-!
# Cutting text at byte offsets

Places in a text counted in bytes of its UTF-8 encoding.  A text can be cut only where a character
ends, so cutting may fail.
-/

set_option autoImplicit false

namespace PortGraph

/-- The number of bytes of a text. -/
def byteSize : List Char → Nat
  | [] => 0
  | c :: cs => c.utf8Size + byteSize cs

/-- Cut a text behind the given number of bytes. -/
def splitBytes? : Nat → List Char → Option (List Char × List Char)
  | 0, cs => some ([], cs)
  | _ + 1, [] => none
  | n + 1, c :: cs =>
    if c.utf8Size ≤ n + 1 then
      (splitBytes? (n + 1 - c.utf8Size) cs).map fun r ↦ (c :: r.1, r.2)
    else none

/-- The part of a text from one offset to another one. -/
def sliceBytes? (start stop : Nat) (cs : List Char) : Option (List Char) :=
  match splitBytes? stop cs with
  | some (front, _) => (splitBytes? start front).map Prod.snd
  | none => none

end PortGraph
