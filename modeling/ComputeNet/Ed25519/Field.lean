/-!
# Arithmetic modulo 2^255 - 19

Numbers stand for their residues. `Field.pow` squares and multiplies along the bits of the
exponent, and inverses and square roots are powers.
-/

namespace ComputeNet.Ed25519

/-- The prime 2^255 - 19. -/
def prime : Nat := Nat.pow 2 255 - 19

namespace Field

def add (a b : Nat) : Nat := (a + b) % prime

def sub (a b : Nat) : Nat := (a + (prime - b % prime)) % prime

def mul (a b : Nat) : Nat := a * b % prime

/-- The residue with a given exponent. -/
def pow (a n : Nat) : Nat :=
  if n = 0 then 1
  else
    let half := pow (mul a a) (n / 2)
    if n % 2 = 1 then mul half a else half
termination_by n

/-- The inverse of a residue other than zero. -/
def inv (a : Nat) : Nat := pow a (prime - 2)

/-- The residue is a square: zero, or of a power that gives one. -/
def isSquare (a : Nat) : Bool := pow a ((prime - 1) / 2) ≤ 1

end Field

end ComputeNet.Ed25519
