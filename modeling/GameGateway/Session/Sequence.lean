/-!
# Sequence numbers

Sequence numbers count modulo `2 ^ 16`. They are compared by the signed distance of the shorter way
round, so that a comparison is right while the numbers in use span less than half the circle.
-/

namespace GameGateway.Sequence

/-- The signed distance from one number to another, from -32768 to 32767. -/
def distance (start target : UInt16) : Int :=
  let ahead := (target - start).toNat
  if ahead < 32768 then ahead else ahead - 65536

theorem distance_self (n : UInt16) : distance n n = 0 := by
  simp [distance]

theorem distance_bounds (start target : UInt16) :
    -32768 ≤ distance start target ∧ distance start target ≤ 32767 := by
  have h := (target - start).toNat_lt
  simp only [distance]
  split <;> omega

end GameGateway.Sequence
