import MeshRoofFirmware.Library.ByteCodec
import Mathlib.Data.List.TakeDrop
import Mathlib.Order.Nat

set_option autoImplicit false

/-! Blocks of a flat 32-bit memory. Writes are checked against the block that was
allocated; reads are not, they return whatever lies there and are recorded, so
that staying inside the block is a statement about the recorded spans. -/
namespace MeshRoofFirmware.Library.ByteBlock
open ByteCodec

def addressSpace : ℕ := 2 ^ 32

/-- Arithmetic of a 32-bit `size_t` or pointer. -/
def sizeT (n : ℕ) : ℕ := n % addressSpace

theorem sizeT_of_lt {n : ℕ} (h : n < addressSpace) : sizeT n = n := Nat.mod_eq_of_lt h

theorem sizeT_lt (n : ℕ) : sizeT n < addressSpace := Nat.mod_lt _ (by decide)

theorem sizeT_add_left (m n : ℕ) : sizeT (sizeT m + n) = sizeT (m + n) := by
  simp [sizeT]

theorem sizeT_add_right (m n : ℕ) : sizeT (m + sizeT n) = sizeT (m + n) := by
  simp [sizeT]

theorem sizeT_walk {base n : ℕ} (h : base + n < addressSpace) : sizeT (base + sizeT n) = base + n := by
  rw [sizeT_add_right, sizeT_of_lt h]

/-- `memcpy` into an allocated block; `none` once the copy leaves the block. -/
def memcpy (buf : Bytes) (off : ℕ) (src : Bytes) : Option Bytes :=
  if off + src.length ≤ buf.length then
    some (buf.take off ++ src ++ buf.drop (off + src.length))
  else none

/-- Copies an array element by element, the address of each recomputed from its index. -/
def memcpyArray {w : ℕ} (base : ℕ) : ℕ → List (Packed w) → Bytes → Option Bytes
  | _, [], buf => some buf
  | i, e :: es, buf => do
    let buf ← memcpy buf (sizeT (base + i * w)) e.bytes
    memcpyArray base (i + 1) es buf

def flatten {w : ℕ} (es : List (Packed w)) : Bytes := es.flatMap Packed.bytes

theorem flatten_cons {w : ℕ} (e : Packed w) (es : List (Packed w)) :
    flatten (e :: es) = e.bytes ++ flatten es := List.flatMap_cons

theorem flatten_length {w : ℕ} (es : List (Packed w)) : (flatten es).length = es.length * w := by
  induction es with
  | nil => simp [flatten]
  | cons e es ih =>
    rw [flatten_cons, List.length_append, ih, e.width, List.length_cons, Nat.succ_mul]
    omega

def filled (size : ℕ) (written : Bytes) : Bytes :=
  written ++ List.replicate (size - written.length) 0

theorem filled_length {size : ℕ} {written : Bytes} (h : written.length ≤ size) :
    (filled size written).length = size := by
  rw [filled, List.length_append, List.length_replicate]
  omega

theorem filled_nil (size : ℕ) : filled size [] = List.replicate size 0 := rfl

theorem filled_full (written : Bytes) : filled written.length written = written := by
  simp [filled]

theorem length_le_of_append_le {n : ℕ} {xs ys : Bytes} (h : (xs ++ ys).length ≤ n) :
    xs.length ≤ n := by
  rw [List.length_append] at h
  omega

theorem memcpy_length {buf buf' : Bytes} {off : ℕ} {src : Bytes}
    (h : memcpy buf off src = some buf') : buf'.length = buf.length := by
  unfold memcpy at h
  split_ifs at h with hle
  cases h
  simp only [List.length_append, List.length_take, List.length_drop]
  omega

theorem memcpy_inside {buf buf' : Bytes} {off : ℕ} {src : Bytes}
    (h : memcpy buf off src = some buf') : off + src.length ≤ buf.length := by
  unfold memcpy at h
  split_ifs at h with hle
  exact hle

theorem memcpy_filled (size off : ℕ) (written src : Bytes) (hoff : off = written.length)
    (hfit : (written ++ src).length ≤ size) :
    memcpy (filled size written) off src = some (filled size (written ++ src)) := by
  subst hoff
  rw [List.length_append] at hfit
  have hle : written.length + src.length ≤ (filled size written).length := by
    rw [filled_length (le_trans (Nat.le_add_right _ _) hfit)]
    exact hfit
  have ht : (filled size written).take written.length = written := List.take_left' rfl
  have hd : (filled size written).drop (written.length + src.length) =
      List.replicate (size - (written ++ src).length) 0 := by
    rw [filled, ← List.drop_drop, List.drop_left' rfl, List.drop_replicate, List.length_append]
    congr 1
    omega
  rw [memcpy, if_pos hle, ht, hd, filled]

theorem memcpyArray_filled {size w : ℕ} (base : ℕ) (es : List (Packed w)) (i : ℕ) (written : Bytes)
    (hbase : written.length = base + i * w) (hfit : (written ++ flatten es).length ≤ size)
    (hsmall : size < addressSpace) :
    memcpyArray base i es (filled size written) = some (filled size (written ++ flatten es)) := by
  induction es generalizing i written with
  | nil => simp [memcpyArray, flatten]
  | cons e es ih =>
    rw [flatten_cons, ← List.append_assoc] at hfit ⊢
    have hhead := length_le_of_append_le hfit
    have haddr : sizeT (base + i * w) = written.length := by
      rw [← hbase]
      rw [List.length_append] at hhead
      exact sizeT_of_lt (by omega)
    have hnext : (written ++ e.bytes).length = base + (i + 1) * w := by
      rw [List.length_append, e.width, hbase, Nat.succ_mul]
      omega
    rw [memcpyArray, memcpy_filled size _ written e.bytes haddr hhead]
    exact ih (i + 1) (written ++ e.bytes) hnext hfit

theorem memcpyArray_length {w : ℕ} (base : ℕ) (es : List (Packed w)) (i : ℕ) (buf buf' : Bytes)
    (h : memcpyArray base i es buf = some buf') : buf'.length = buf.length := by
  induction es generalizing i buf with
  | nil => cases h; rfl
  | cons e es ih =>
    rw [memcpyArray] at h
    cases hc : memcpy buf (sizeT (base + i * w)) e.bytes with
    | none => simp [hc] at h
    | some next =>
      simp only [hc, Option.bind_eq_bind, Option.bind_some] at h
      exact (ih (i + 1) next h).trans (memcpy_length hc)

theorem memcpyArray_inside {w : ℕ} (base : ℕ) (es : List (Packed w)) (i : ℕ) (buf buf' : Bytes)
    (hsmall : buf.length < addressSpace) (hstart : base + i * w ≤ buf.length)
    (h : memcpyArray base i es buf = some buf') :
    base + i * w + es.length * w ≤ buf.length := by
  induction es generalizing i buf with
  | nil => simpa using hstart
  | cons e es ih =>
    rw [memcpyArray] at h
    cases hc : memcpy buf (sizeT (base + i * w)) e.bytes with
    | none => simp [hc] at h
    | some next =>
      simp only [hc, Option.bind_eq_bind, Option.bind_some] at h
      have hin := memcpy_inside hc
      have hlen := memcpy_length hc
      rw [sizeT_of_lt (lt_of_le_of_lt hstart hsmall), e.width] at hin
      have hstep : base + (i + 1) * w = base + i * w + w := by
        rw [Nat.succ_mul]
        omega
      have htail := ih (i + 1) next (by omega) (by omega) h
      rw [List.length_cons, Nat.succ_mul]
      omega

/-- What a pointer into a block sees: the bytes put there, then stray memory. -/
structure Block where
  bytes : Bytes
  stray : ℕ → UInt8

def Block.byte (b : Block) (off : ℕ) : UInt8 := (b.bytes[sizeT off]?).getD (b.stray (sizeT off))

def Block.slice (b : Block) (off n : ℕ) : Packed n :=
  ⟨(List.range n).map (fun k => b.byte (off + k)), by simp⟩

structure Span where
  offset : ℕ
  length : ℕ
  deriving DecidableEq

def Span.Inside (size : ℕ) (s : Span) : Prop := ∀ k < s.length, sizeT (s.offset + k) < size

/-- A value computed from memory, with the ranges that were dereferenced for it. -/
structure Access (α : Type) where
  value : α
  spans : List Span

instance : Monad Access where
  pure a := ⟨a, []⟩
  bind x f := ⟨(f x.value).value, x.spans ++ (f x.value).spans⟩

theorem Access.ext_parts {α : Type} {x y : Access α} (hv : x.value = y.value)
    (hs : x.spans = y.spans) : x = y := by
  cases x
  cases y
  congr

@[simp] theorem pure_value {α : Type} (a : α) : (pure a : Access α).value = a := rfl
@[simp] theorem pure_spans {α : Type} (a : α) : (pure a : Access α).spans = [] := rfl
@[simp] theorem bind_value {α β : Type} (x : Access α) (f : α → Access β) :
    (x >>= f).value = (f x.value).value := rfl
@[simp] theorem bind_spans {α β : Type} (x : Access α) (f : α → Access β) :
    (x >>= f).spans = x.spans ++ (f x.value).spans := rfl

def Block.read (b : Block) (off n : ℕ) : Access (Packed n) := ⟨b.slice off n, [⟨off, n⟩]⟩

def Block.readWord (b : Block) (off : ℕ) : Access UInt32 :=
  ⟨Codec.word32.symm (b.slice off 4), [⟨off, 4⟩]⟩

def Block.readArray (b : Block) (base w : ℕ) : ℕ → ℕ → Access (List (Packed w))
  | _, 0 => pure []
  | i, n + 1 => do
    let e ← b.read (base + i * w) w
    let es ← b.readArray base w (i + 1) n
    pure (e :: es)

theorem readArray_length (b : Block) (base w i n : ℕ) :
    (b.readArray base w i n).value.length = n := by
  induction n generalizing i with
  | zero => rfl
  | succ n ih => exact congrArg Nat.succ (ih (i + 1))

theorem byte_inside (b : Block) (off : ℕ) (hsmall : b.bytes.length < addressSpace)
    (h : off < b.bytes.length) : b.byte off = b.bytes[off] := by
  rw [Block.byte, sizeT_of_lt (h.trans hsmall), List.getElem?_eq_getElem h, Option.getD_some]

theorem slice_bytes (b : Block) (front mid : Bytes) (hb : front ++ mid <+: b.bytes)
    (hsmall : b.bytes.length < addressSpace) :
    (b.slice front.length mid.length).bytes = mid := by
  obtain ⟨back, hb⟩ := hb
  apply List.ext_getElem
  · simp [Block.slice]
  · intro k hk hm
    have hlen : b.bytes.length = front.length + mid.length + back.length := by
      rw [← hb, List.length_append, List.length_append]
    have hin : front.length + k < b.bytes.length := by omega
    have hbyte := byte_inside b (front.length + k) hsmall hin
    have hget : b.bytes[front.length + k] = mid[k] := by
      simp [← hb, hm]
    simp only [Block.slice, List.getElem_map, List.getElem_range, hbyte, hget]

theorem slice_packed (b : Block) {n off : ℕ} (front : Bytes) (p : Packed n)
    (hb : front ++ p.bytes <+: b.bytes) (hoff : off = front.length)
    (hsmall : b.bytes.length < addressSpace) : b.slice off n = p := by
  obtain ⟨mid, hmid⟩ := p
  subst hmid hoff
  exact Packed.ext_bytes (slice_bytes b front mid hb hsmall)

theorem readWord_value (b : Block) {off : ℕ} (front : Bytes) (w : UInt32)
    (hb : front ++ (Codec.word32 w).bytes <+: b.bytes) (hoff : off = front.length)
    (hsmall : b.bytes.length < addressSpace) : (b.readWord off).value = w := by
  change Codec.word32.symm (b.slice off 4) = w
  rw [slice_packed b front _ hb hoff hsmall, Equiv.symm_apply_apply]

theorem readArray_packed (b : Block) {w : ℕ} (base : ℕ) (es : List (Packed w)) (i : ℕ)
    (front : Bytes) (hb : front ++ flatten es <+: b.bytes)
    (hbase : front.length = base + i * w) (hsmall : b.bytes.length < addressSpace) :
    (b.readArray base w i es.length).value = es := by
  induction es generalizing i front with
  | nil => rfl
  | cons e es ih =>
    rw [flatten_cons, ← List.append_assoc] at hb
    have hhead : b.slice (base + i * w) w = e :=
      slice_packed b front e ((List.prefix_append _ _).trans hb) hbase.symm hsmall
    have htail := ih (i + 1) (front ++ e.bytes) hb
      (by rw [List.length_append, e.width, hbase, Nat.succ_mul]; omega)
    change b.slice (base + i * w) w :: (b.readArray base w (i + 1) es.length).value = e :: es
    rw [hhead, htail]

theorem span_inside_iff (off len : ℕ) {size : ℕ} (hoff : off < addressSpace) (hlen : 0 < len)
    (hsmall : size < addressSpace) : Span.Inside size ⟨off, len⟩ ↔ off + len ≤ size := by
  constructor
  · intro h
    by_contra hgt
    -- the first byte behind the block, or the first byte of the span when it starts there
    by_cases hstart : size ≤ off
    · have hfirst := h 0 hlen
      rw [Nat.add_zero, sizeT_of_lt hoff] at hfirst
      omega
    · have hk : size - off < len := by omega
      have hbyte := h (size - off) hk
      have hadd : off + (size - off) = size := by omega
      rw [hadd, sizeT_of_lt hsmall] at hbyte
      omega
  · intro h k hk
    change k < len at hk
    change sizeT (off + k) < size
    rw [sizeT_of_lt (by omega)]
    omega

/-- The loop over an array that starts inside the block reads inside it exactly when the
array ends there. -/
theorem readArray_inside_iff (b : Block) {base w size : ℕ} (hw : 0 < w) (n i : ℕ)
    (hstart : base + i * w ≤ size) (hsmall : size < addressSpace) :
    (∀ s ∈ (b.readArray base w i n).spans, s.Inside size) ↔ base + i * w + n * w ≤ size := by
  induction n generalizing i with
  | zero =>
    simp only [Block.readArray, pure_spans, List.not_mem_nil, false_implies, implies_true,
      Nat.zero_mul, Nat.add_zero, true_iff]
    exact hstart
  | succ n ih =>
    have hnext : base + (i + 1) * w = base + i * w + w := by
      rw [Nat.succ_mul]
      omega
    have hspans : (b.readArray base w i (n + 1)).spans =
        ⟨base + i * w, w⟩ :: (b.readArray base w (i + 1) n).spans := by
      simp [Block.readArray, Block.read]
    have hhead := span_inside_iff (base + i * w) w (lt_of_le_of_lt hstart hsmall) hw hsmall
    rw [hspans, Nat.succ_mul]
    constructor
    · intro h
      have hfirst := hhead.mp (h _ List.mem_cons_self)
      have hrest := (ih (i + 1) (by omega)).mp (fun s hs => h s (List.mem_cons_of_mem _ hs))
      omega
    · intro h s hs
      rcases List.mem_cons.mp hs with rfl | hs
      · exact hhead.mpr (by omega)
      · exact (ih (i + 1) (by omega)).mpr (by omega) s hs

theorem slice_within (b : Block) {off k m n : ℕ} (h : k + m ≤ n) :
    ((b.slice off n).bytes.drop k).take m = (b.slice (off + k) m).bytes := by
  apply List.ext_getElem
  · simp only [List.length_take, List.length_drop, Packed.width]
    omega
  · intro i hi hj
    simp only [Block.slice, List.getElem_take, List.getElem_drop, List.getElem_map,
      List.getElem_range, Nat.add_assoc]

theorem slice_inside (b : Block) {off n : ℕ} (h : off + n ≤ b.bytes.length)
    (hsmall : b.bytes.length < addressSpace) :
    (b.slice off n).bytes = (b.bytes.drop off).take n := by
  have hlen : ((b.bytes.drop off).take n).length = n := by
    rw [List.length_take, List.length_drop]
    omega
  have hoff : (b.bytes.take off).length = off := by
    rw [List.length_take]
    omega
  have hprefix : b.bytes.take off ++ (b.bytes.drop off).take n <+: b.bytes := by
    refine ⟨(b.bytes.drop off).drop n, ?_⟩
    rw [List.append_assoc, List.take_append_drop, List.take_append_drop]
  rw [slice_packed b (b.bytes.take off) ⟨_, hlen⟩ hprefix hoff.symm hsmall]

theorem readArray_inside (b : Block) (base w n i : ℕ)
    (h : base + i * w + n * w ≤ b.bytes.length) (hsmall : b.bytes.length < addressSpace) :
    flatten (b.readArray base w i n).value = (b.bytes.drop (base + i * w)).take (n * w) := by
  induction n generalizing i with
  | zero => simp [Block.readArray, flatten]
  | succ n ih =>
    rw [Nat.succ_mul] at h
    have hnext : base + (i + 1) * w = base + i * w + w := by
      rw [Nat.succ_mul]
      omega
    have htail := ih (i + 1) (by omega)
    have hhead : (b.slice (base + i * w) w).bytes = (b.bytes.drop (base + i * w)).take w :=
      slice_inside b (by omega) hsmall
    change flatten (b.slice (base + i * w) w :: (b.readArray base w (i + 1) n).value) = _
    have hrest : b.bytes.drop (base + i * w + w) = (b.bytes.drop (base + i * w)).drop w :=
      List.drop_drop.symm
    rw [flatten_cons, htail, hhead, hnext, hrest, ← List.take_add, Nat.succ_mul, Nat.add_comm w]

def wordAt (bytes : Bytes) (off : ℕ) : UInt32 := UInt32.ofNat (leNat ((bytes.drop off).take 4))

theorem readWord_inside (b : Block) {off : ℕ} (h : off + 4 ≤ b.bytes.length)
    (hsmall : b.bytes.length < addressSpace) : (b.readWord off).value = wordAt b.bytes off := by
  have hslice := slice_inside b h hsmall
  change UInt32.ofNat (leNat (b.slice off 4).bytes) = _
  rw [hslice, wordAt]

end MeshRoofFirmware.Library.ByteBlock
