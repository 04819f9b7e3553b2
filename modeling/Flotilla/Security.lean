/-!
# Security of connections

A `SecurityLevel` stands for the algorithms that are offered to a server, in order of preference,
and a `HostKeyPolicy` for how its key is checked.
-/

namespace Flotilla

/-- A profile of algorithms. -/
inductive SecurityLevel where
  /-- Modern algorithms only. -/
  | secure
  /-- Older hashes and block modes as well. -/
  | balanced
  /-- Everything that can be spoken. -/
  | legacy
  deriving Repr, DecidableEq

/-- How the key of a host is checked. -/
inductive HostKeyPolicy where
  /-- Any key will do. -/
  | noCheck
  /-- The key has to be in the user's list of known hosts. -/
  | knownHosts
  /-- The key has to be in a given list of known hosts. -/
  | knownHostsFile (path : String)
  /-- A changed key is rejected, and an unknown one is added to the user's list. -/
  | acceptNew
  deriving Repr, DecidableEq

/-- A profile together with a policy. -/
structure Security where
  level : SecurityLevel := .secure
  hostKey : HostKeyPolicy := .knownHosts
  deriving Repr, DecidableEq

namespace Security

/-- Modern algorithms and known hosts only.  This is the default. -/
def strict : Security := {}

/-- Older algorithms as well, and hosts are trusted on first use. -/
def balanced : Security := ⟨.balanced, .acceptNew⟩

/-- All algorithms, and no check of hosts. -/
def legacy : Security := ⟨.legacy, .noCheck⟩

end Security

/-- The names of algorithms by purpose, in order of preference. -/
structure Algorithms where
  keyExchange : List String
  hostKey : List String
  cipher : List String
  authentication : List String
  deriving Repr, DecidableEq

/-- The compression methods of every profile. -/
def compressionMethods : List String := ["none", "zlib", "zlib@openssh.com"]

namespace SecurityLevel

/-- The ways to exchange keys. -/
def keyExchange : SecurityLevel → List String
  | .secure =>
    ["curve25519-sha256", "curve25519-sha256@libssh.org", "ecdh-sha2-nistp256",
      "ecdh-sha2-nistp384", "ecdh-sha2-nistp521", "diffie-hellman-group16-sha512",
      "diffie-hellman-group14-sha256", "ext-info-c", "kex-strict-c-v00@openssh.com"]
  | .balanced =>
    ["curve25519-sha256", "curve25519-sha256@libssh.org", "ecdh-sha2-nistp256",
      "ecdh-sha2-nistp384", "ecdh-sha2-nistp521", "diffie-hellman-group-exchange-sha256",
      "diffie-hellman-group16-sha512", "diffie-hellman-group14-sha256",
      "diffie-hellman-group14-sha1", "ext-info-c", "kex-strict-c-v00@openssh.com"]
  | .legacy =>
    ["curve25519-sha256", "curve25519-sha256@libssh.org", "diffie-hellman-group-exchange-sha1",
      "diffie-hellman-group-exchange-sha256", "diffie-hellman-group1-sha1",
      "diffie-hellman-group14-sha1", "diffie-hellman-group14-sha256",
      "diffie-hellman-group15-sha512", "diffie-hellman-group16-sha512",
      "diffie-hellman-group17-sha512", "diffie-hellman-group18-sha512", "ecdh-sha2-nistp256",
      "ecdh-sha2-nistp384", "ecdh-sha2-nistp521", "none"]

/-- The kinds of host keys. -/
def hostKey : SecurityLevel → List String
  | .secure =>
    ["ssh-ed25519", "ecdsa-sha2-nistp256", "ecdsa-sha2-nistp384", "ecdsa-sha2-nistp521",
      "rsa-sha2-512", "rsa-sha2-256"]
  | .balanced =>
    ["ssh-ed25519", "ecdsa-sha2-nistp256", "ecdsa-sha2-nistp384", "ecdsa-sha2-nistp521",
      "rsa-sha2-512", "rsa-sha2-256", "ssh-rsa"]
  | .legacy =>
    ["ssh-dss", "ecdsa-sha2-nistp256", "ecdsa-sha2-nistp384", "ecdsa-sha2-nistp521",
      "ssh-ed25519", "ssh-rsa", "rsa-sha2-256", "rsa-sha2-512",
      "sk-ecdsa-sha2-nistp256@openssh.com", "sk-ssh-ed25519@openssh.com"]

/-- The ciphers. -/
def cipher : SecurityLevel → List String
  | .secure =>
    ["chacha20-poly1305@openssh.com", "aes256-gcm@openssh.com", "aes256-ctr", "aes192-ctr",
      "aes128-ctr"]
  | .balanced =>
    ["chacha20-poly1305@openssh.com", "aes256-gcm@openssh.com", "aes256-ctr", "aes192-ctr",
      "aes128-ctr", "aes256-cbc", "aes128-cbc"]
  | .legacy =>
    ["clear", "none", "aes128-ctr", "aes192-ctr", "aes256-ctr", "aes256-gcm@openssh.com",
      "aes128-cbc", "aes192-cbc", "aes256-cbc", "chacha20-poly1305@openssh.com"]

/-- The message authentication codes. -/
def authentication : SecurityLevel → List String
  | .secure =>
    ["hmac-sha2-512-etm@openssh.com", "hmac-sha2-256-etm@openssh.com", "hmac-sha2-512",
      "hmac-sha2-256"]
  | .balanced =>
    ["hmac-sha2-512-etm@openssh.com", "hmac-sha2-256-etm@openssh.com", "hmac-sha2-512",
      "hmac-sha2-256", "hmac-sha1-etm@openssh.com", "hmac-sha1"]
  | .legacy =>
    ["none", "hmac-sha1", "hmac-sha2-256", "hmac-sha2-512", "hmac-sha1-etm@openssh.com",
      "hmac-sha2-256-etm@openssh.com", "hmac-sha2-512-etm@openssh.com"]

/-- The algorithms of a profile. -/
def algorithms (level : SecurityLevel) : Algorithms :=
  ⟨level.keyExchange, level.hostKey, level.cipher, level.authentication⟩

end SecurityLevel

end Flotilla
