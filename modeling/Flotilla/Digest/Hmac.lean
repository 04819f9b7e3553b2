import Flotilla.Text.Utf8

/-!
# Keyed hashes

The construction of RFC 2104 makes a keyed hash of any hash function that works on blocks.
-/

namespace Flotilla

/-- The keyed hash of a message, by a hash function that works on blocks of `block` bytes. -/
def hmac (digest : Bytes → Bytes) (block : Nat) (key message : Bytes) : Bytes :=
  let key := if block < key.length then digest key else key
  let key := key ++ List.replicate (block - key.length) 0
  digest (key.map (· ^^^ 0x5c) ++ digest (key.map (· ^^^ 0x36) ++ message))

end Flotilla
