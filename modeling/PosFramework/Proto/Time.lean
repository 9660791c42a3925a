import PosFramework.Proto.Ids

set_option autoImplicit false

/-! # Instants in range -/

namespace PosFramework

/-- The instants a `Timestamp` can name, from the year -9999 to 9999. -/
def Timestamp.InRange (t : Timestamp) : Prop :=
  -377705023201000 ≤ t.epochMs ∧ t.epochMs ≤ 253402207200999

instance (t : Timestamp) : Decidable t.InRange := inferInstanceAs (Decidable (_ ∧ _))

/-- The instant so many milliseconds after the epoch, where there is one. -/
def Timestamp.fromMillisecondsSinceEpoch (millis : Int) : Option Timestamp :=
  if Timestamp.InRange ⟨millis⟩ then some ⟨millis⟩ else none

/-- A 64-bit signed integer at the end it runs over. -/
def i64Saturate (n : Int) : Int := max (-9223372036854775808) (min n 9223372036854775807)

end PosFramework
