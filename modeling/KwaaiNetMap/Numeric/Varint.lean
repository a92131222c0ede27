import Mathlib.Data.List.Basic

/-!
A number as bytes of seven bits each, the lowest first, every byte but the last with its top bit set. A reader
takes a number off the front of whatever follows it (`decodeVarint_encodeVarint`).
-/

namespace Numeric

def encodeVarint (n : Nat) : List UInt8 :=
  if n < 128 then [UInt8.ofNat n] else UInt8.ofNat (128 + n % 128) :: encodeVarint (n / 128)

def decodeVarint : List UInt8 → Option (Nat × List UInt8)
  | [] => none
  | b :: rest =>
    if b.toNat < 128 then some (b.toNat, rest)
    else (decodeVarint rest).map fun (high, rest) => (b.toNat - 128 + 128 * high, rest)

theorem decodeVarint_low {n : Nat} (small : n < 128) (rest : List UInt8) :
    decodeVarint (UInt8.ofNat n :: rest) = some (n, rest) := by
  have value : (UInt8.ofNat n).toNat = n := by rw [UInt8.toNat_ofNat']; omega
  rw [decodeVarint, value, if_pos small]

theorem decodeVarint_high {low high : Nat} (small : low < 128) {rest tail : List UInt8}
    (read : decodeVarint rest = some (high, tail)) :
    decodeVarint (UInt8.ofNat (128 + low) :: rest) = some (low + 128 * high, tail) := by
  have value : (UInt8.ofNat (128 + low)).toNat = 128 + low := by rw [UInt8.toNat_ofNat']; omega
  rw [decodeVarint, value, if_neg (by omega), read, Option.map_some, Nat.add_sub_cancel_left]

theorem decodeVarint_encodeVarint (n : Nat) (rest : List UInt8) :
    decodeVarint (encodeVarint n ++ rest) = some (n, rest) := by
  induction n using Nat.strongRecOn with
  | ind n ih =>
    rw [encodeVarint]
    split
    · rename_i small
      exact decodeVarint_low small rest
    · have read := decodeVarint_high (Nat.mod_lt n (by decide)) (ih (n / 128) (by omega))
      rwa [Nat.mod_add_div] at read

end Numeric
