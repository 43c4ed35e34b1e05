/-
Powers of ten, the scales of decimal numbers.
-/
namespace PolicyClient

/-- Ten to the power `n`. -/
def tenPow (n : Nat) : Nat :=
  Nat.pow 10 n

end PolicyClient
