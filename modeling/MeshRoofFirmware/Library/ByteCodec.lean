import Mathlib.Logic.Equiv.Prod
import Mathlib.Algebra.Group.Nat.Defs
import Mathlib.Tactic.Common

set_option autoImplicit false

/-! Fixed-width byte encodings. A codec of width `n` is an equivalence with the
blocks of exactly `n` bytes, so both directions of every round trip come with
the layout itself. Words are little-endian. -/
namespace MeshRoofFirmware.Library.ByteCodec

abbrev Bytes := List UInt8

/-- The memory of a packed structure: a byte string of one fixed length. -/
structure Packed (n : ℕ) where
  bytes : Bytes
  width : bytes.length = n
  deriving DecidableEq

theorem Packed.ext_bytes {n : ℕ} {p q : Packed n} (h : p.bytes = q.bytes) : p = q := by
  cases p
  cases q
  congr

def Packed.zero (n : ℕ) : Packed n := ⟨List.replicate n 0, List.length_replicate⟩

def Packed.append {m n : ℕ} (p : Packed m) (q : Packed n) : Packed (m + n) :=
  ⟨p.bytes ++ q.bytes, by rw [List.length_append, p.width, q.width]⟩

def Packed.left {m n : ℕ} (p : Packed (m + n)) : Packed m :=
  ⟨p.bytes.take m, by have h := p.width; simp only [List.length_take]; omega⟩

def Packed.right {m n : ℕ} (p : Packed (m + n)) : Packed n :=
  ⟨p.bytes.drop m, by have h := p.width; simp only [List.length_drop]; omega⟩

def appendEquiv (m n : ℕ) : Packed m × Packed n ≃ Packed (m + n) where
  toFun p := p.1.append p.2
  invFun p := (p.left, p.right)
  left_inv p := by
    obtain ⟨p, q⟩ := p
    refine Prod.ext (Packed.ext_bytes ?_) (Packed.ext_bytes ?_)
    · exact List.take_left' p.width
    · exact List.drop_left' p.width
  right_inv p := Packed.ext_bytes (List.take_append_drop m p.bytes)

abbrev Codec (α : Type) (n : ℕ) := α ≃ Packed n

def Codec.raw (n : ℕ) : Codec (Packed n) n := Equiv.refl _

/-- Two adjacent fields of a packed structure. -/
def Codec.seq {α β : Type} {m n : ℕ} (c : Codec α m) (d : Codec β n) : Codec (α × β) (m + n) :=
  (c.prodCongr d).trans (appendEquiv m n)

def leBytes : ℕ → ℕ → Bytes
  | 0, _ => []
  | n + 1, v => UInt8.ofNat v :: leBytes n (v / 256)

def leNat : Bytes → ℕ
  | [] => 0
  | b :: bs => b.toNat + 256 * leNat bs

theorem leBytes_length (n v : ℕ) : (leBytes n v).length = n := by
  induction n generalizing v with
  | zero => rfl
  | succ n ih => rw [leBytes, List.length_cons, ih]

theorem leNat_lt (bs : Bytes) : leNat bs < 256 ^ bs.length := by
  induction bs with
  | nil => exact Nat.one_pos
  | cons b bs ih =>
    have hb := b.toNat_lt
    rw [leNat, List.length_cons, Nat.pow_succ]
    omega

theorem leNat_leBytes (n v : ℕ) : leNat (leBytes n v) = v % 256 ^ n := by
  induction n generalizing v with
  | zero => simp [leBytes, leNat, Nat.mod_one]
  | succ n ih =>
    have hb : (UInt8.ofNat v).toNat = v % 256 := UInt8.toNat_ofNat
    rw [leBytes, leNat, ih, hb, Nat.pow_succ, Nat.mul_comm (256 ^ n), Nat.mod_mul]

theorem leBytes_leNat (bs : Bytes) : leBytes bs.length (leNat bs) = bs := by
  induction bs with
  | nil => rfl
  | cons b bs ih =>
    have hb := b.toNat_lt
    have hd : (b.toNat + 256 * leNat bs) / 256 = leNat bs := by omega
    have hm : UInt8.ofNat (b.toNat + 256 * leNat bs) = b := by
      apply UInt8.toNat_inj.mp
      rw [UInt8.toNat_ofNat']
      omega
    rw [List.length_cons, leNat, leBytes, hd, hm, ih]

/-- A `uint32_t` field of a packed structure. -/
def Codec.word32 : Codec UInt32 4 where
  toFun w := ⟨leBytes 4 w.toNat, leBytes_length 4 _⟩
  invFun p := UInt32.ofNat (leNat p.bytes)
  left_inv w := by
    apply UInt32.toNat_inj.mp
    have hw := w.toNat_lt
    change (UInt32.ofNat (leNat (leBytes 4 w.toNat))).toNat = w.toNat
    rw [UInt32.toNat_ofNat', leNat_leBytes]
    omega
  right_inv p := by
    apply Packed.ext_bytes
    have hp := leNat_lt p.bytes
    rw [p.width] at hp
    have hn : (UInt32.ofNat (leNat p.bytes)).toNat = leNat p.bytes := by
      rw [UInt32.toNat_ofNat']
      exact Nat.mod_eq_of_lt hp
    have hb := leBytes_leNat p.bytes
    rw [p.width] at hb
    change leBytes 4 (UInt32.ofNat (leNat p.bytes)).toNat = p.bytes
    rw [hn, hb]

end MeshRoofFirmware.Library.ByteCodec
