import Flotilla.Proofs.Text.Blank
import Flotilla.Proofs.Text.Utf8
import Flotilla.Text.Base64.Wrapped

/-!
# Base64 both ways

What `Base64.encode` writes is read back, in one piece and with line ends in it, and nothing else is
read in one piece (`decode_eq_ok_iff`).
-/

namespace Flotilla.Base64

theorem value?_symbol {n : Nat} (small : n < 64) : value? (symbol n) = some n := by
  revert n
  decide

theorem symbol_ne_padding {n : Nat} (small : n < 64) : symbol n ≠ padding := by
  revert n
  decide

theorem readSymbol_symbol {n : Nat} (small : n < 64) (offset : Nat) :
    readSymbol offset (symbol n) = .ok n := by
  rw [readSymbol, value?_symbol small]

/-- Whether a byte is a character of the alphabet or padding. -/
def IsWritten (b : UInt8) : Prop := (∃ n < 64, b = symbol n) ∨ b = padding

theorem isWritten_of_mem {s : Bytes} {b : UInt8} (member : b ∈ encodeBytes s) : IsWritten b := by
  have written {n : Nat} (small : n < 64) : IsWritten (symbol n) := .inl ⟨n, small, rfl⟩
  induction s using encodeBytes.induct with
  | case1 => simp [encodeBytes] at member
  | case2 a =>
    have size := a.toNat_lt
    simp only [encodeBytes, List.mem_cons, List.not_mem_nil, or_false] at member
    rcases member with rfl | rfl | rfl | rfl
    · exact written (by omega)
    · exact written (by omega)
    · exact .inr rfl
    · exact .inr rfl
  | case3 a b =>
    have size := a.toNat_lt
    have size' := b.toNat_lt
    simp only [encodeBytes, List.mem_cons, List.not_mem_nil, or_false] at member
    rcases member with rfl | rfl | rfl | rfl
    · exact written (by omega)
    · exact written (by omega)
    · exact written (by omega)
    · exact .inr rfl
  | case4 a b c r ih =>
    have size := a.toNat_lt
    have size' := b.toNat_lt
    have size'' := c.toNat_lt
    simp only [encodeBytes, List.mem_cons] at member
    rcases member with rfl | rfl | rfl | rfl | later
    · exact written (by omega)
    · exact written (by omega)
    · exact written (by omega)
    · exact written (by omega)
    · exact ih later

theorem IsWritten.ascii {b : UInt8} (written : IsWritten b) : 43 ≤ b.toNat ∧ b.toNat < 123 := by
  rcases written with ⟨n, small, rfl⟩ | rfl
  · revert n
    decide
  · decide

theorem utf8_encode (s : Bytes) : utf8 (encode s) = encodeBytes s := by
  have each (l : Bytes) (all : ∀ b ∈ l, IsWritten b) :
      (l.map fun b => Char.ofNat b.toNat).flatMap String.utf8EncodeChar = l := by
    induction l with
    | nil => rfl
    | cons b l ih =>
      have ascii := (all b List.mem_cons_self).ascii
      rw [List.map_cons, List.flatMap_cons, ih fun c later => all c (List.mem_cons_of_mem b later),
        Utf8.utf8EncodeChar_ofNat (by omega), if_pos (by omega), UInt8.ofNat_toNat]
      rfl
  rw [utf8, encode, String.toList_ofList]
  exact each _ fun b => isWritten_of_mem

/-- There are no blanks in what is written. -/
theorem trim_encode (s : Bytes) : Text.trim (encode s).toList = (encode s).toList := by
  refine Text.trim_eq_self fun c member => ?_
  rw [encode, String.toList_ofList] at member
  obtain ⟨b, written, rfl⟩ := List.mem_map.mp member
  have ascii := (isWritten_of_mem written).ascii
  have value : (Char.ofNat b.toNat).toNat = b.toNat := by
    simp [Char.ofNat, show b.toNat.isValidChar by omega, Char.ofNatAux, Char.toNat]
  simp [Text.isBlank, value]
  omega

/-! ### Groups

The six-bit parts of one, two and three bytes make up these bytes again, and what pads the last part
is zero.
-/

section

variable (a b c : UInt8)

theorem parts_one : (a.toNat * 16 / 64 < 64 ∧ a.toNat * 16 % 64 < 64) ∧
    a.toNat * 16 % 64 % 16 = 0 ∧
    UInt8.ofNat (a.toNat * 16 / 64 * 4 + a.toNat * 16 % 64 / 16) = a := by
  have size := a.toNat_lt
  rw [← UInt8.toNat_inj, UInt8.toNat_ofNat']
  omega

theorem parts_two :
    let n := (a.toNat * 256 + b.toNat) * 4
    (n / 4096 < 64 ∧ n / 64 % 64 < 64 ∧ n % 64 < 64) ∧ n % 64 % 4 = 0 ∧
      UInt8.ofNat (n / 4096 * 4 + n / 64 % 64 / 16) = a ∧
      UInt8.ofNat (n / 64 % 64 % 16 * 16 + n % 64 / 4) = b := by
  have size := a.toNat_lt
  have size' := b.toNat_lt
  simp only [← UInt8.toNat_inj, UInt8.toNat_ofNat']
  omega

theorem parts_three :
    let n := (a.toNat * 256 + b.toNat) * 256 + c.toNat
    (n / 262144 < 64 ∧ n / 4096 % 64 < 64 ∧ n / 64 % 64 < 64 ∧ n % 64 < 64) ∧
      UInt8.ofNat (n / 262144 * 4 + n / 4096 % 64 / 16) = a ∧
      UInt8.ofNat (n / 4096 % 64 % 16 * 16 + n / 64 % 64 / 4) = b ∧
      UInt8.ofNat (n / 64 % 64 % 4 * 64 + n % 64) = c := by
  have size := a.toNat_lt
  have size' := b.toNat_lt
  have size'' := c.toNat_lt
  simp only [← UInt8.toNat_inj, UInt8.toNat_ofNat']
  omega

end

theorem length_encodeBytes (s : Bytes) : (encodeBytes s).length % 4 = 0 := by
  induction s using encodeBytes.induct with
  | case1 => rfl
  | case2 a => simp [encodeBytes]
  | case3 a b => simp [encodeBytes]
  | case4 a b c r ih =>
    simp only [encodeBytes, List.length_cons]
    omega

theorem readLast_symbol {n : Nat} (small : n < 64) (offset place : Nat) (r : Bytes) :
    readLast offset place (symbol n :: r) =
      (readLast (offset + 1) (place + 1) r).map fun (values, pads) => (n :: values, pads) := by
  rw [readLast, if_neg (symbol_ne_padding small), readSymbol_symbol small]
  cases readLast (offset + 1) (place + 1) r <;> rfl

section

variable {w x y z : Nat} (offset : Nat)

theorem decodeLast_two (first : w < 64) (second : x < 64) (zero : x % 16 = 0) :
    decodeLast offset [symbol w, symbol x, padding, padding] =
      .ok [UInt8.ofNat (w * 4 + x / 16)] := by
  rw [decodeLast, readLast_symbol first, readLast_symbol second]
  simp [readLast, Except.map, zero]

theorem decodeLast_three (first : w < 64) (second : x < 64) (third : y < 64) (zero : y % 4 = 0) :
    decodeLast offset [symbol w, symbol x, symbol y, padding] =
      .ok [UInt8.ofNat (w * 4 + x / 16), UInt8.ofNat (x % 16 * 16 + y / 4)] := by
  rw [decodeLast, readLast_symbol first, readLast_symbol second, readLast_symbol third]
  simp [readLast, Except.map, zero]

theorem decodeLast_four (first : w < 64) (second : x < 64) (third : y < 64) (fourth : z < 64) :
    decodeLast offset [symbol w, symbol x, symbol y, symbol z] =
      .ok [UInt8.ofNat (w * 4 + x / 16), UInt8.ofNat (x % 16 * 16 + y / 4),
        UInt8.ofNat (y % 4 * 64 + z)] := by
  rw [decodeLast, readLast_symbol first, readLast_symbol second, readLast_symbol third,
    readLast_symbol fourth]
  simp [readLast, Except.map]

end

theorem decodeGroups_encodeBytes (offset : Nat) (s : Bytes) :
    decodeGroups offset (encodeBytes s) = .ok s := by
  induction s using encodeBytes.induct generalizing offset with
  | case1 => rfl
  | case2 a =>
    obtain ⟨⟨first, second⟩, zero, here⟩ := parts_one a
    rw [encodeBytes, decodeGroups, decodeLast_two offset first second zero, here]
    simp
  | case3 a b =>
    obtain ⟨⟨first, second, third⟩, zero, here, next⟩ := parts_two a b
    rw [encodeBytes, decodeGroups, decodeLast_three offset first second third zero, here, next]
    simp
  | case4 a b c r ih =>
    obtain ⟨⟨first, second, third, fourth⟩, here, next, last⟩ := parts_three a b c
    rw [encodeBytes]
    cases more : encodeBytes r with
    | nil =>
      obtain rfl : r = [] := by
        have none := ih offset
        rw [more] at none
        exact (Except.ok.inj none).symm
      rw [decodeGroups, decodeLast_four offset first second third fourth, here, next, last]
      simp
    | cons e l =>
      rw [decodeGroups, readSymbol_symbol first, readSymbol_symbol second, readSymbol_symbol third,
        readSymbol_symbol fourth, ← more, ih]
      simp only [ok_bind, pure_eq_ok, here, next, last]

/-- What is written is read back. -/
@[simp] theorem decode_encode (s : Bytes) : decode (encode s) = .ok s := by
  have whole := length_encodeBytes s
  have regular : strayFault? (encodeBytes s) = none := by
    unfold strayFault?
    split
    · rw [if_neg (by omega)]
    · rfl
  rw [decode, utf8_encode]
  simp only [regular, decodeGroups_encodeBytes]

/-! ### Only what is written is read -/

theorem symbol_of_value? {b : UInt8} {n : Nat} (found : value? b = some n) :
    n < 64 ∧ symbol n = b := by
  have all : ∀ k < 256, ∀ n ∈ value? (UInt8.ofNat k), n < 64 ∧ symbol n = UInt8.ofNat k := by
    decide +kernel
  have here := all b.toNat b.toNat_lt
  rw [UInt8.ofNat_toNat] at here
  exact here n found

theorem readSymbol_eq_ok_iff {offset : Nat} {b : UInt8} {n : Nat} :
    readSymbol offset b = .ok n ↔ n < 64 ∧ b = symbol n := by
  constructor
  · intro read
    unfold readSymbol at read
    split at read
    next found =>
      cases read
      obtain ⟨small, same⟩ := symbol_of_value? found
      exact ⟨small, same.symm⟩
    next => cases read
  · rintro ⟨small, rfl⟩
    exact readSymbol_symbol small offset

/-- The characters of a last group are symbols with padding behind them. -/
theorem eq_of_readLast {offset place pads : Nat} {group : Bytes} {values : List Nat}
    (read : readLast offset place group = .ok (values, pads)) :
    group = values.map symbol ++ List.replicate pads padding ∧ ∀ v ∈ values, v < 64 := by
  induction group generalizing offset place values with
  | nil =>
    cases read
    exact ⟨rfl, by simp⟩
  | cons b r ih =>
    rw [readLast] at read
    split at read
    next pad =>
      split at read
      next => cases read
      next rest =>
        cases read
        refine ⟨?_, by simp⟩
        have all : ∀ c ∈ r, c = padding := by
          have := (not_or.mp rest).2
          simpa using this
        rw [pad, List.eq_replicate_of_mem all]
        simp [List.replicate_succ]
    next =>
      obtain ⟨n, first, read⟩ := bind_eq_ok.mp read
      obtain ⟨⟨later, pads'⟩, rest, read⟩ := bind_eq_ok.mp read
      cases read
      obtain ⟨small, rfl⟩ := readSymbol_eq_ok_iff.mp first
      obtain ⟨whole, all⟩ := ih rest
      exact ⟨by rw [whole]; rfl, List.forall_mem_cons.mpr ⟨small, all⟩⟩

section

variable {w x y z : Nat}

theorem toNat_first (first : w < 64) (second : x < 64) :
    (UInt8.ofNat (w * 4 + x / 16)).toNat = w * 4 + x / 16 := by
  rw [UInt8.toNat_ofNat']
  omega

theorem toNat_second (third : y < 64) :
    (UInt8.ofNat (x % 16 * 16 + y / 4)).toNat = x % 16 * 16 + y / 4 := by
  rw [UInt8.toNat_ofNat']
  omega

theorem toNat_third (fourth : z < 64) :
    (UInt8.ofNat (y % 4 * 64 + z)).toNat = y % 4 * 64 + z := by
  rw [UInt8.toNat_ofNat']
  omega

theorem encodeBytes_one (first : w < 64) (second : x < 64) (zero : x % 16 = 0) :
    encodeBytes [UInt8.ofNat (w * 4 + x / 16)] = [symbol w, symbol x, padding, padding] := by
  have parts : (w * 4 + x / 16) * 16 / 64 = w ∧ (w * 4 + x / 16) * 16 % 64 = x := by omega
  rw [encodeBytes, toNat_first first second, parts.1, parts.2]

theorem encodeBytes_two (first : w < 64) (second : x < 64) (third : y < 64) (zero : y % 4 = 0) :
    encodeBytes [UInt8.ofNat (w * 4 + x / 16), UInt8.ofNat (x % 16 * 16 + y / 4)] =
      [symbol w, symbol x, symbol y, padding] := by
  have parts (n : Nat) (whole : n = ((w * 4 + x / 16) * 256 + (x % 16 * 16 + y / 4)) * 4) :
      n / 4096 = w ∧ n / 64 % 64 = x ∧ n % 64 = y := by omega
  obtain ⟨a, b, c⟩ := parts _ rfl
  rw [encodeBytes, toNat_first first second, toNat_second third, a, b, c]

theorem encodeBytes_three (first : w < 64) (second : x < 64) (third : y < 64) (fourth : z < 64)
    (r : Bytes) :
    encodeBytes (UInt8.ofNat (w * 4 + x / 16) :: UInt8.ofNat (x % 16 * 16 + y / 4) ::
        UInt8.ofNat (y % 4 * 64 + z) :: r) =
      symbol w :: symbol x :: symbol y :: symbol z :: encodeBytes r := by
  have parts (n : Nat) (whole : n = ((w * 4 + x / 16) * 256 + (x % 16 * 16 + y / 4)) * 256 +
      (y % 4 * 64 + z)) :
      n / 262144 = w ∧ n / 4096 % 64 = x ∧ n / 64 % 64 = y ∧ n % 64 = z := by omega
  obtain ⟨a, b, c, d⟩ := parts _ rfl
  rw [encodeBytes, toNat_first first second, toNat_second third, toNat_third fourth, a, b, c, d]

end

/-- A last group is read only as what is written of its bytes. -/
theorem eq_of_decodeLast {offset : Nat} {group s : Bytes} (short : group.length ≤ 4)
    (read : decodeLast offset group = .ok s) : group = encodeBytes s := by
  obtain ⟨⟨values, pads⟩, parts, made⟩ := bind_eq_ok.mp read
  clear read
  obtain ⟨rfl, all⟩ := eq_of_readLast parts
  clear parts
  rw [List.length_append, List.length_map, List.length_replicate] at short
  dsimp only at made
  split at made
  next => cases made
  next enough =>
  split at made
  next => cases made
  next full =>
  split at made
  next a b =>
    obtain ⟨first, second⟩ : a < 64 ∧ b < 64 := by simpa using all
    obtain rfl : pads = 2 := by
      simp only [List.length_cons, List.length_nil] at full short
      omega
    split at made
    next => cases made
    next zero =>
      cases made
      rw [encodeBytes_one first second (not_not.mp zero)]
      rfl
  next a b c =>
    obtain ⟨first, second, third⟩ : a < 64 ∧ b < 64 ∧ c < 64 := by simpa using all
    obtain rfl : pads = 1 := by
      simp only [List.length_cons, List.length_nil] at full short
      omega
    split at made
    next => cases made
    next zero =>
      cases made
      rw [encodeBytes_two first second third (not_not.mp zero)]
      rfl
  next a b c d =>
    obtain ⟨first, second, third, fourth⟩ : a < 64 ∧ b < 64 ∧ c < 64 ∧ d < 64 := by simpa using all
    obtain rfl : pads = 0 := by
      simp only [List.length_cons, List.length_nil] at full short
      omega
    cases made
    rw [encodeBytes_three first second third fourth]
    rfl
  next two three four =>
    cases made
    have none (few : values.length < 2) :
        values.map symbol ++ List.replicate pads padding = [] :=
      by_contra fun some_ => enough ⟨some_, few⟩
    match values with
    | [] => exact none (by simp)
    | [_] => cases none (by simp)
    | [a, b] => exact absurd rfl (two a b)
    | [a, b, c] => exact absurd rfl (three a b c)
    | [a, b, c, d] => exact absurd rfl (four a b c d)
    | _ :: _ :: _ :: _ :: _ :: _ =>
      simp only [List.length_cons] at short
      omega

theorem eq_of_decodeGroups {offset : Nat} {t s : Bytes} (read : decodeGroups offset t = .ok s) :
    t = encodeBytes s := by
  induction offset, t using decodeGroups.induct generalizing s with
  | case1 offset a b c d e r ih =>
    obtain ⟨w, first, read⟩ := bind_eq_ok.mp read
    obtain ⟨x, second, read⟩ := bind_eq_ok.mp read
    obtain ⟨y, third, read⟩ := bind_eq_ok.mp read
    obtain ⟨z, fourth, read⟩ := bind_eq_ok.mp read
    obtain ⟨rest, later, read⟩ := bind_eq_ok.mp read
    cases read
    obtain ⟨small_w, rfl⟩ := readSymbol_eq_ok_iff.mp first
    obtain ⟨small_x, rfl⟩ := readSymbol_eq_ok_iff.mp second
    obtain ⟨small_y, rfl⟩ := readSymbol_eq_ok_iff.mp third
    obtain ⟨small_z, rfl⟩ := readSymbol_eq_ok_iff.mp fourth
    rw [encodeBytes_three small_w small_x small_y small_z, ih later]
  | case2 offset group short =>
    refine eq_of_decodeLast ?_ (by rwa [decodeGroups.eq_2 offset group short] at read)
    match group with
    | [] | [_] | [_, _] | [_, _, _] | [_, _, _, _] => simp
    | a :: b :: c :: d :: e :: r => exact absurd rfl (short a b c d e r)

/-- A text is read just if it is what is written of its bytes. -/
theorem decode_eq_ok_iff {t : String} {s : Bytes} : decode t = .ok s ↔ t = encode s := by
  constructor
  · intro read
    unfold decode at read
    dsimp only at read
    split at read
    next => cases read
    next =>
      rw [← utf8_inj, utf8_encode]
      exact eq_of_decodeGroups read
  · rintro rfl
    exact decode_encode s

/-! ### In lines -/

namespace Wrapped

section

variable {w x y z : Nat} (i j k l : Nat)

theorem decodeGroup_two (first : w < 64) (second : x < 64) (zero : x % 16 = 0) :
    decodeGroup [(symbol w, i), (symbol x, j), (Base64.padding, k), (Base64.padding, l)] =
      .ok [UInt8.ofNat (w * 4 + x / 16)] := by
  simp [decodeGroup, readSymbols, symbol_ne_padding, value?_symbol, first, second, zero, Except.map]

theorem decodeGroup_three (first : w < 64) (second : x < 64) (third : y < 64) (zero : y % 4 = 0) :
    decodeGroup [(symbol w, i), (symbol x, j), (symbol y, k), (Base64.padding, l)] =
      .ok [UInt8.ofNat (w * 4 + x / 16), UInt8.ofNat (x % 16 * 16 + y / 4)] := by
  simp [decodeGroup, readSymbols, symbol_ne_padding, value?_symbol, first, second, third, zero,
    Except.map]

theorem decodeGroup_four (first : w < 64) (second : x < 64) (third : y < 64) (fourth : z < 64) :
    decodeGroup [(symbol w, i), (symbol x, j), (symbol y, k), (symbol z, l)] =
      .ok [UInt8.ofNat (w * 4 + x / 16), UInt8.ofNat (x % 16 * 16 + y / 4),
        UInt8.ofNat (y % 4 * 64 + z)] := by
  simp [decodeGroup, readSymbols, symbol_ne_padding, value?_symbol, first, second, third, fourth,
    Except.map]

end

theorem exists_four {l : List (UInt8 × Nat)} {a b c d : UInt8} {r : Bytes}
    (bytes : l.map (·.1) = a :: b :: c :: d :: r) : ∃ i j k m later,
      l = (a, i) :: (b, j) :: (c, k) :: (d, m) :: later ∧ later.map (·.1) = r := by
  match l, bytes with
  | (_, i) :: (_, j) :: (_, k) :: (_, m) :: later, rfl => exact ⟨i, j, k, m, later, rfl, rfl⟩

theorem decodeGroups_encodeBytes {s : Bytes} {l : List (UInt8 × Nat)}
    (bytes : l.map (·.1) = encodeBytes s) : decodeGroups l = .ok s := by
  induction s using encodeBytes.induct generalizing l with
  | case1 =>
    obtain rfl := List.map_eq_nil_iff.mp bytes
    rfl
  | case2 a =>
    obtain ⟨⟨first, second⟩, zero, here⟩ := parts_one a
    obtain ⟨i, j, k, m, later, rfl, none⟩ := exists_four bytes
    obtain rfl := List.map_eq_nil_iff.mp none
    rw [decodeGroups, decodeGroup_two i j k m first second zero, here]
    rfl
  | case3 a b =>
    obtain ⟨⟨first, second, third⟩, zero, here, next⟩ := parts_two a b
    obtain ⟨i, j, k, m, later, rfl, none⟩ := exists_four bytes
    obtain rfl := List.map_eq_nil_iff.mp none
    rw [decodeGroups, decodeGroup_three i j k m first second third zero, here, next]
    rfl
  | case4 a b c r ih =>
    obtain ⟨⟨first, second, third, fourth⟩, here, next, last⟩ := parts_three a b c
    obtain ⟨i, j, k, m, later, rfl, rest⟩ := exists_four bytes
    rw [decodeGroups, decodeGroup_four i j k m first second third fourth, here, next, last, ih rest]
    rfl

/-- A line end behind a text does not count. -/
theorem decode_append_lineEnd (s : Bytes) {b : UInt8} (ends : isLineEnd b) :
    decode (s ++ [b]) = decode s := by
  simp [decode, List.zipIdx_append, ends]

theorem decode_encode (s : Bytes) : decode (utf8 (encode s)) = .ok s := by
  rw [utf8_encode, decode, List.filter_eq_self.mpr]
  · exact decodeGroups_encodeBytes (List.zipIdx_map_fst ..)
  · rintro ⟨b, i⟩ member
    have written : 43 ≤ b.toNat ∧ b.toNat < 123 :=
      (isWritten_of_mem (List.fst_mem_of_mem_zipIdx member)).ascii
    simp [isLineEnd, ← UInt8.toNat_inj]
    omega

end Wrapped

end Flotilla.Base64
