/-!
# Binary expansions

Hash functions and ciphers take their constants from the binary expansions of well-known numbers,
so that nobody could choose them: here, roots of primes and the circle constant.
-/

namespace Flotilla.Expansion

/-- The largest number below `2 ^ bits` whose power `k` is at most `n`, above the part `found`. -/
def rootFrom (k n found : Nat) : Nat → Nat
  | 0 => found
  | bits + 1 =>
    let next := found + Nat.pow 2 bits
    rootFrom k n (if Nat.pow next k ≤ n then next else found) bits

/-- The first `bits` bits behind the point of the root `k` of `n`. -/
def ofRoot (k n bits : Nat) : Nat :=
  rootFrom k (n * Nat.pow 2 (k * bits)) 0 (bits + n.log2 + 1) % Nat.pow 2 bits

/-- The first `count` primes from `n` on, at most `fuel` numbers further. -/
def primesFrom (fuel count n : Nat) : List Nat :=
  match fuel, count with
  | 0, _ | _, 0 => []
  | fuel + 1, count + 1 =>
    if (List.range n).all fun d => d < 2 || n % d ≠ 0 then n :: primesFrom fuel count (n + 1)
    else primesFrom fuel (count + 1) (n + 1)

/-- The first `count` primes. -/
def primes (count : Nat) : List Nat := primesFrom (count * count + 2) count 2

/-- The sum of the series of the arc tangent of `1 / x` from term `k` on, of which `power` is what
is left of `scale / x ^ (2 * k + 1)`.  The terms with even and odd numbers are summed apart. -/
def arcTangentFrom (fuel x k power even odd : Nat) : Nat × Nat :=
  match fuel with
  | 0 => (even, odd)
  | fuel + 1 =>
    let term := power / (2 * k + 1)
    let power := power / (x * x)
    if k % 2 = 0 then arcTangentFrom fuel x (k + 1) power (even + term) odd
    else arcTangentFrom fuel x (k + 1) power even (odd + term)

/-- The arc tangent of `1 / x` times `scale`, by as many terms as `scale` has bits. -/
def arcTangent (scale x : Nat) : Nat :=
  let (even, odd) := arcTangentFrom (scale.log2 / 2) x 0 (scale / x) 0 0
  even - odd

/-- The first `bits` bits behind the point of the circle constant, by the formula
`π / 4 = 4 arctan (1 / 5) - arctan (1 / 239)`. -/
def ofPi (bits : Nat) : Nat :=
  let guard := 64
  let scale := Nat.pow 2 (bits + guard)
  (16 * arcTangent scale 5 - 4 * arcTangent scale 239) / Nat.pow 2 guard % Nat.pow 2 bits

end Flotilla.Expansion
