import Flotilla.Digest.Sha512

/-!
# Ed25519

The curve of RFC 8032, as far as it is needed to tell which public key belongs to a secret seed.
-/

namespace Flotilla.Ed25519

/-- The prime of the field. -/
def prime : Nat := Nat.pow 2 255 - 19

/-- The power `b ^ e` in the field, by the lowest `bits` bits of `e`. -/
def power (b e : Nat) : Nat → Nat
  | 0 => 1
  | bits + 1 =>
    let rest := power (b * b % prime) (e / 2) bits
    if e % 2 = 0 then rest else b * rest % prime

/-- The inverse of a field element other than zero. -/
def inverse (a : Nat) : Nat := power a (prime - 2) 255

/-- The difference of two field elements. -/
def sub (a b : Nat) : Nat := (a + (prime - b)) % prime

/-- The constant of the curve equation. -/
def curveConstant : Nat := (prime - 121665) * inverse 121666 % prime

/-- A point: its coordinates and their product, each times `z`. -/
structure Point where
  x : Nat
  y : Nat
  z : Nat
  t : Nat

/-- The sum of two points. -/
def Point.add (p q : Point) : Point :=
  let a := sub p.y p.x * sub q.y q.x % prime
  let b := (p.y + p.x) * (q.y + q.x) % prime
  let c := 2 * p.t * q.t * curveConstant % prime
  let d := 2 * p.z * q.z % prime
  let e := sub b a
  let f := sub d c
  let g := (d + c) % prime
  let h := (b + a) % prime
  ⟨e * f % prime, g * h % prime, f * g % prime, e * h % prime⟩

/-- The neutral point. -/
def Point.zero : Point := ⟨0, 1, 1, 0⟩

/-- The base point. -/
def Point.base : Point :=
  let x := 15112221349535400772501151409588531511454012693041857206046113283949847762202
  let y := 4 * inverse 5 % prime
  ⟨x, y, 1, x * y % prime⟩

/-- A multiple of a point, by the lowest `bits` bits of the factor. -/
def Point.times (p : Point) (n : Nat) : Nat → Point
  | 0 => .zero
  | bits + 1 =>
    let rest := (p.add p).times (n / 2) bits
    if n % 2 = 0 then rest else p.add rest

/-- The bytes of a point. -/
def Point.bytes (p : Point) : Bytes :=
  let z := inverse p.z
  let x := p.x * z % prime
  let y := p.y * z % prime
  (bigEndian 32 (y + x % 2 * Nat.pow 2 255)).reverse

/-- The factor that a seed stands for. -/
def secretFactor (seed : Bytes) : Nat :=
  let n := ofBigEndian ((Sha512.digest seed).take 32).reverse
  n % Nat.pow 2 254 / 8 * 8 + Nat.pow 2 254

/-- The public key that belongs to a seed. -/
def publicKey (seed : Bytes) : Bytes := (Point.base.times (secretFactor seed) 255).bytes

end Flotilla.Ed25519
