import ComputeNet.Bytes
import ComputeNet.Ed25519.Field

/-!
# The curve of Ed25519

Points of the twisted Edwards curve `-x² + y² = 1 + d x² y²`, in coordinates `X : Y : Z : T` with
`x = X / Z`, `y = Y / Z` and `x y = T / Z`, in which one formula adds any two points. A point is
encoded by `y` with the lowest bit of `x` on top. `isEncoding` tells whether 32 bytes are the
encoding of a point: whether some `x` belongs to their `y`.
-/

namespace ComputeNet.Ed25519

/-- The constant of the curve, -121665 / 121666. -/
def curveD : Nat := Field.mul (Field.sub 0 121665) (Field.inv 121666)

structure Point where
  x : Nat
  y : Nat
  z : Nat
  t : Nat

namespace Point

def ofAffine (x y : Nat) : Point := ⟨x, y, 1, Field.mul x y⟩

def zero : Point := ofAffine 0 1

/-- The base point. -/
def base : Point :=
  ofAffine 15112221349535400772501151409588531511454012693041857206046113283949847762202
    46316835694926478169428394003475163141307993866256225615783033603165251855960

def add (p q : Point) : Point :=
  let a := Field.mul (Field.sub p.y p.x) (Field.sub q.y q.x)
  let b := Field.mul (Field.add p.y p.x) (Field.add q.y q.x)
  let c := Field.mul (Field.mul p.t q.t) (Field.mul 2 curveD)
  let d := Field.mul (Field.mul p.z q.z) 2
  let e := Field.sub b a
  let f := Field.sub d c
  let g := Field.add d c
  let h := Field.add b a
  ⟨Field.mul e f, Field.mul g h, Field.mul f g, Field.mul e h⟩

/-- The `n`-fold sum of a point. -/
def smul (n : Nat) (p : Point) : Point :=
  if n = 0 then zero
  else
    let half := smul (n / 2) (p.add p)
    if n % 2 = 1 then half.add p else half
termination_by n

/-- The 32 bytes of a point. -/
def encode (p : Point) : FixedBytes 32 :=
  let scale := Field.inv p.z
  let x := Field.mul p.x scale
  let y := Field.mul p.y scale
  FixedBytes.ofNat 32 (y + x % 2 * Nat.pow 2 255)

end Point

/-- The bytes are the encoding of a point. The top bit, which only picks one of two points, does
not matter: `x² = (y² - 1) / (d y² + 1)` has a solution, and a quotient is a square exactly when
the product is. -/
def isEncoding (bytes : FixedBytes 32) : Bool :=
  let y := ofLittleEndian bytes.toList % Nat.pow 2 255 % prime
  let yy := Field.mul y y
  Field.isSquare (Field.mul (Field.sub yy 1) (Field.add (Field.mul curveD yy) 1))

end ComputeNet.Ed25519
