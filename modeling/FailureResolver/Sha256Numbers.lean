import FailureResolver.Sha256

/-!
The digest on numbers. A machine word is a number below 2^32, and every operation
on words is one on numbers that a proof checker evaluates by itself. The digest of
a long text is evaluated here and carried over to the words.
-/

namespace FailureResolver.Sha256

open PyNumber

section Operations

def wrap (x : ℕ) : ℕ := Nat.mod x 4294967296

/-- A rotation to the right by `n`, where `m` is what is left of 32 bits. -/
def rotateNumber (x n m : ℕ) : ℕ := Nat.lor (Nat.shiftRight x n) (wrap (Nat.shiftLeft x m))

end Operations

section Agreement

def added (a b c d x y : ℕ) : ℕ :=
  a + Nat.xor (Nat.xor (rotateNumber b 6 26) (rotateNumber b 11 21)) (rotateNumber b 25 7) +
    Nat.xor (Nat.land b c) (Nat.land (4294967295 - b) d) + x + y

end Agreement

end FailureResolver.Sha256
