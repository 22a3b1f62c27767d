import PacketRelay.Hash.Sha256

/-!
# The curve secp256k1

Points of `y² = x³ + 7` over a prime field, and deterministic ECDSA signatures over a digest: the
nonce comes from RFC 6979 with SHA-256, and of the two forms of a signature the one with the lower
second half is taken.
-/

namespace PacketRelay.Key.Secp256k1

/-- The size of the field. -/
def fieldSize : Nat := 1 <<< 256 - 1 <<< 32 - 977

/-- The number of points. -/
def groupOrder : Nat := 0xFFFFFFFFFFFFFFFFFFFFFFFFFFFFFFFEBAAEDCE6AF48A03BBFD25E8CD0364141

/-- A point in Jacobian coordinates `(x / z², y / z³)`; `z = 0` is the point at infinity. -/
structure Point where
  x : Nat
  y : Nat
  z : Nat

def Point.infinity : Point := ⟨1, 1, 0⟩

def Point.generator : Point :=
  ⟨0x79BE667EF9DCBBAC55A06295CE870B07029BFCDB2DCE28D959F2815B16F81798,
    0x483ADA7726A3C4655DA4FBFC0E1108A8FD17B448A68554199C47D08FFB10D4B8, 1⟩

/-- `base ^ exponent` modulo `modulus`, by squaring. -/
def powMod (modulus base exponent : Nat) : Nat :=
  if exponent = 0 then 1 % modulus
  else
    let half := powMod modulus (base * base % modulus) (exponent / 2)
    if exponent % 2 = 0 then half else half * base % modulus
termination_by exponent

/-- The inverse modulo a prime. -/
def inverse (prime n : Nat) : Nat := powMod prime n (prime - 2)

/-- `a - b` modulo the field size, for reduced `b`. -/
def sub (a b : Nat) : Nat := (a + fieldSize - b) % fieldSize

def Point.double (p : Point) : Point :=
  if p.z = 0 || p.y = 0 then .infinity
  else
    let yy := p.y * p.y % fieldSize
    let s := 4 * p.x * yy % fieldSize
    let m := 3 * p.x * p.x % fieldSize
    let x := sub (m * m) (2 * s % fieldSize)
    ⟨x, sub (m * sub s x) (8 * yy * yy % fieldSize), 2 * p.y * p.z % fieldSize⟩

def Point.add (p q : Point) : Point :=
  if p.z = 0 then q
  else if q.z = 0 then p
  else
    let zz1 := p.z * p.z % fieldSize
    let zz2 := q.z * q.z % fieldSize
    let u1 := p.x * zz2 % fieldSize
    let u2 := q.x * zz1 % fieldSize
    let s1 := p.y * zz2 * q.z % fieldSize
    let s2 := q.y * zz1 * p.z % fieldSize
    if u1 = u2 then (if s1 = s2 then p.double else .infinity)
    else
      let h := sub u2 u1
      let r := sub s2 s1
      let hh := h * h % fieldSize
      let hhh := hh * h % fieldSize
      let v := u1 * hh % fieldSize
      let x := sub (r * r + 2 * fieldSize - hhh) (2 * v % fieldSize)
      ⟨x, sub (r * sub v x) (s1 * hhh % fieldSize), h * p.z * q.z % fieldSize⟩

/-- The `n`-fold sum of a point. -/
def Point.multiply (n : Nat) (p : Point) : Point :=
  if n = 0 then .infinity
  else
    let half := Point.multiply (n / 2) p.double
    if n % 2 = 0 then half else half.add p
termination_by n

/-- The affine coordinates of a point other than infinity. -/
def Point.affine (p : Point) : Nat × Nat :=
  let i := inverse fieldSize p.z
  let ii := i * i % fieldSize
  (p.x * ii % fieldSize, p.y * ii * i % fieldSize)

/-- The 33 bytes of a public key: the parity of `y`, then `x`. -/
def publicKey (secret : Nat) : Bytes :=
  let (x, y) := (Point.multiply secret .generator).affine
  (if y % 2 = 0 then 2 else 3) :: Bytes.ofNatBig 32 x

/-- The generator of nonces of RFC 6979: a key and a chaining value. -/
structure NonceState where
  key : Bytes
  value : Bytes

/-- The state seeded with the secret and the digest. -/
def NonceState.seed (secret digest : Bytes) : NonceState :=
  let v := List.replicate 32 1
  let k := Hash.hmacSha256 (List.replicate 32 0) (v ++ 0 :: secret ++ digest)
  let v := Hash.hmacSha256 k v
  let k := Hash.hmacSha256 k (v ++ 1 :: secret ++ digest)
  ⟨k, Hash.hmacSha256 k v⟩

def NonceState.next (s : NonceState) : NonceState × Nat :=
  let v := Hash.hmacSha256 s.key s.value
  ({ s with value := v }, Bytes.toNatBig v)

def NonceState.reseed (s : NonceState) : NonceState :=
  let k := Hash.hmacSha256 s.key (s.value ++ [0])
  ⟨k, Hash.hmacSha256 k s.value⟩

/-- The two halves of the signature made with a nonce, unless the nonce is unusable. -/
def signWith (secret digest nonce : Nat) : Option (Nat × Nat) :=
  if nonce = 0 ∨ groupOrder ≤ nonce then none
  else
    let (x, _) := (Point.multiply nonce .generator).affine
    let r := x % groupOrder
    let s := inverse groupOrder nonce * (digest + r * secret) % groupOrder
    if r = 0 ∨ s = 0 then none
    else some (r, if groupOrder / 2 < s then groupOrder - s else s)

/-- Takes nonces until one is usable. -/
def signFrom (secret digest : Nat) : (fuel : Nat) → NonceState → Nat × Nat
  | 0, _ => (0, 0)
  | fuel + 1, state =>
    let (state, nonce) := state.next
    match signWith secret digest nonce with
    | some signature => signature
    | none => signFrom secret digest fuel state.reseed

/-- The 64 bytes of the signature over a digest of 32 bytes. -/
def sign (secret : Nat) (digest : Bytes) : Bytes :=
  let seed := NonceState.seed (Bytes.ofNatBig 32 secret)
    (Bytes.ofNatBig 32 (Bytes.toNatBig digest % groupOrder))
  let (r, s) := signFrom secret (Bytes.toNatBig digest % groupOrder) 128 seed
  Bytes.ofNatBig 32 r ++ Bytes.ofNatBig 32 s

end PacketRelay.Key.Secp256k1
