/-!
The ranges of numbers of a fixed number of bits.
-/

namespace StartupLatency.Word

abbrev limit16 : Nat := 0x10000

abbrev limit32 : Nat := 0x100000000

abbrev limit64 : Nat := 0x10000000000000000

abbrev half32 : Nat := 0x80000000

abbrev half64 : Nat := 0x8000000000000000

/-- The most permits that a semaphore, and so the most places that a channel, can be made with. -/
def mostPermits : Nat := (limit64 - 1) / 8

def Signed64 (value : Int) : Prop := -(half64 : Int) ≤ value ∧ value < half64

instance (value : Int) : Decidable (Signed64 value) := inferInstanceAs (Decidable (_ ∧ _))

end StartupLatency.Word
