import Flotilla.Digest.Expansion
import Flotilla.Digest.Words

/-!
# Blowfish

A block cipher on pairs of words whose tables depend on the key.  Setting the tables up is slow on
purpose, which is what deriving keys from passphrases is built on.
-/

namespace Flotilla.Blowfish

/-- The tables of the cipher. -/
structure Tables where
  /-- The eighteen words that are mixed in between rounds. -/
  subkeys : Array UInt32
  /-- The four boxes of 256 words each, one after the other. -/
  boxes : Array UInt32

/-- The number of words in all tables. -/
def size : Nat := 18 + 1024

/-- The tables before any key: the bits of the circle constant. -/
def Tables.initial : Tables :=
  let words := (toWords (bigEndian (4 * size) (Expansion.ofPi (32 * size)))).toArray
  ⟨words.extract 0 18, words.extract 18 size⟩

/-- What a round mixes of a word. -/
def Tables.mix (t : Tables) (x : UInt32) : UInt32 :=
  let box (k shift : UInt32) : UInt32 := t.boxes.getD (k + (x >>> shift &&& 255)).toNat 0
  ((box 0 24 + box 256 16) ^^^ box 512 8) + box 768 0

/-- Rounds `i` up to the last one, two at a time. -/
def Tables.rounds (t : Tables) (i : Nat) (l r : UInt32) : Nat → UInt32 × UInt32
  | 0 => (r ^^^ t.subkeys.getD 17 0, l ^^^ t.subkeys.getD 16 0)
  | n + 1 =>
    let l := l ^^^ t.subkeys.getD i 0
    let r := r ^^^ t.mix l
    let r := r ^^^ t.subkeys.getD (i + 1) 0
    let l := l ^^^ t.mix r
    t.rounds (i + 2) l r n

/-- Encrypts a pair of words. -/
def Tables.encrypt (t : Tables) (l r : UInt32) : UInt32 × UInt32 := t.rounds 0 l r 8

/-- Word `i` of words that repeat without end. -/
def cycle (words : Array UInt32) (i : Nat) : UInt32 :=
  if words.size = 0 then 0 else words.getD (i % words.size) 0

/-- What goes on while tables are set up: the tables, the last pair of words, and how many words of
the salt were used. -/
structure Setup where
  tables : Tables
  l : UInt32 := 0
  r : UInt32 := 0
  used : Nat := 0

/-- Encrypts the last pair mixed with the salt. -/
def Setup.next (salt : Array UInt32) (s : Setup) : Setup :=
  let (l, r) := s.tables.encrypt (s.l ^^^ cycle salt s.used) (s.r ^^^ cycle salt (s.used + 1))
  { s with l, r, used := s.used + 2 }

/-- Replaces `n` pairs of subkeys, from place `i` on. -/
def Setup.subkeys (salt : Array UInt32) (i : Nat) (s : Setup) : Nat → Setup
  | 0 => s
  | n + 1 =>
    let { tables := ⟨subkeys, boxes⟩, l, r, used } := s.next salt
    let subkeys := (subkeys.setIfInBounds i l).setIfInBounds (i + 1) r
    Setup.subkeys salt (i + 2) { tables := ⟨subkeys, boxes⟩, l, r, used } n

/-- Replaces `n` pairs of words of the boxes, from place `i` on. -/
def Setup.boxes (salt : Array UInt32) (i : Nat) (s : Setup) : Nat → Setup
  | 0 => s
  | n + 1 =>
    let { tables := ⟨subkeys, boxes⟩, l, r, used } := s.next salt
    let boxes := (boxes.setIfInBounds i l).setIfInBounds (i + 1) r
    Setup.boxes salt (i + 2) { tables := ⟨subkeys, boxes⟩, l, r, used } n

/-- Mixes a key and a salt into tables. -/
def Tables.expand (t : Tables) (salt key : Array UInt32) : Tables :=
  let subkeys := t.subkeys.mapIdx fun i word => word ^^^ cycle key i
  let s := Setup.subkeys salt 0 { tables := { t with subkeys } } 9
  (Setup.boxes salt 0 s 512).tables

end Flotilla.Blowfish
