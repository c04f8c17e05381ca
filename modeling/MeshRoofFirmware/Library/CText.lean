import MeshRoofFirmware.Library.ByteBlock
import Mathlib.Data.List.TakeWhile

set_option autoImplicit false

namespace MeshRoofFirmware.Library.CText
open ByteCodec ByteBlock

def ascii (text : String) : Bytes := text.toUTF8.data.toList

def cString (s : Bytes) : Bytes := s.takeWhile (· ≠ 0)

def decimal (n : ℕ) : Bytes := (Nat.toDigits 10 n).map (fun c => UInt8.ofNat c.toNat)

def signedDecimal : ℤ → Bytes
  | .ofNat n => decimal n
  | .negSucc n => ascii "-" ++ decimal (n + 1)

def hexDigit (n : ℕ) : UInt8 := UInt8.ofNat (if n < 10 then 48 + n else 87 + n)

def hexByte (b : UInt8) : Bytes := [hexDigit (b.toNat / 16), hexDigit (b.toNat % 16)]

/-- The dotted form of an address kept in network order. -/
def dotted (sAddr : UInt32) : Bytes :=
  (ascii ".").intercalate ((leBytes 4 sAddr.toNat).map (fun b => decimal b.toNat))

/-- What `snprintf` leaves in a buffer of that size, before its NUL. -/
def snprintf (size : ℕ) (text : Bytes) : Bytes := text.take (size - 1)

theorem cString_self_iff {s : Bytes} : cString s = s ↔ 0 ∉ s := by
  rw [cString, List.takeWhile_eq_self_iff]
  constructor
  · intro hall hzero
    exact absurd (hall 0 hzero) (by decide)
  · intro hfree b hb
    rw [decide_eq_true_iff]
    rintro rfl
    exact hfree hb

theorem cString_append (s t : Bytes) :
    cString (s ++ t) = if 0 ∈ s then cString s else s ++ cString t := by
  have hself : (cString s).length = s.length ↔ 0 ∉ s := by
    rw [← cString_self_iff]
    exact ⟨(List.takeWhile_sublist _).eq_of_length, congrArg List.length⟩
  by_cases hzero : 0 ∈ s
  · have hne : ¬ (cString s).length = s.length := fun h => hself.mp h hzero
    rw [if_pos hzero, cString, List.takeWhile_append]
    exact if_neg hne
  · have heq : (cString s).length = s.length := hself.mpr hzero
    rw [if_neg hzero, cString, List.takeWhile_append]
    exact if_pos heq

theorem cString_zeros (n : ℕ) : cString (List.replicate n 0) = [] := by
  cases n with
  | zero => rfl
  | succ n => rfl

theorem cString_append_zeros (s : Bytes) (n : ℕ) :
    cString (s ++ List.replicate n 0) = cString s := by
  rw [cString_append, cString_zeros, List.append_nil]
  split_ifs with hzero
  · rfl
  · exact (cString_self_iff.mpr hzero).symm

theorem cString_filled {size : ℕ} {s : Bytes} (h : s.length < size) (behind : Bytes) :
    cString (filled size s ++ behind) = cString s := by
  have hzero : (0 : UInt8) ∈ filled size s := by
    rw [filled, List.mem_append, List.mem_replicate]
    exact Or.inr ⟨by omega, rfl⟩
  rw [cString_append, if_pos hzero, filled, cString_append_zeros]

end MeshRoofFirmware.Library.CText
