import PortGraph.Value.Kind

/-!
# Values

A `Value` carries its kind with it, so that ports of any type can hold it.  A `Packet` is a value
as it was published: copies of a packet along links share its stamp, and a value that is computed
anew gets a new one, so that two equal values can still be told apart.
-/

set_option autoImplicit false

namespace PortGraph

/-- A value together with its kind. -/
structure Value where
  /-- The kind of the value. -/
  kind : Kind
  /-- The value itself. -/
  datum : kind.Carrier

namespace Value

/-- The data type of a value. -/
def dataType (v : Value) : DataType := v.kind.dataType

/-- The value, if it is of the kind asked for. -/
def as? (v : Value) (k : Kind) : Option k.Carrier :=
  if h : v.kind = k then some (h ▸ v.datum) else none

/-- How a value is shown. -/
def shown (v : Value) : String := v.kind.showValue v.datum

@[simp] theorem as?_self (k : Kind) (x : k.Carrier) : (Value.mk k x).as? k = some x := by
  simp [as?]

theorem as?_eq_some_iff {v : Value} {k : Kind} {x : k.Carrier} :
    v.as? k = some x ↔ v = ⟨k, x⟩ := by
  cases v with
  | mk l y =>
    constructor
    · intro h
      unfold as? at h
      split at h
      · next hk => cases hk; cases h; rfl
      · cases h
    · rintro h
      cases h
      exact as?_self k x

theorem isSome_as?_iff {v : Value} {k : Kind} : (v.as? k).isSome ↔ v.kind = k := by
  unfold as?
  split <;> simp_all

end Value

/-- A published value. -/
structure Packet where
  /-- What was published. -/
  value : Value
  /-- Which publication it was. -/
  stamp : Nat

namespace Packet

/-- The data type of a published value. -/
def dataType (p : Packet) : DataType := p.value.dataType

/-- Whether two packets are copies of one publication. -/
def sameOrigin (p q : Packet) : Bool := p.stamp = q.stamp

end Packet

end PortGraph
