import MeshRoofFirmware.Library.ByteBlock

set_option autoImplicit false

/-! Memory that holds still only inside a block: the bytes behind it may be others at each
read. -/
namespace MeshRoofFirmware.Library.UnsteadyMemory
open ByteCodec ByteBlock

/-- The bytes of a block, and what lies behind them at the first read, the second and so on. -/
structure Memory where
  bytes : Bytes
  stray : ℕ → ℕ → UInt8

def Memory.block (m : Memory) (t : ℕ) : Block := ⟨m.bytes, m.stray t⟩

def Memory.word (m : Memory) (t off : ℕ) : UInt32 := ((m.block t).readWord off).value

/-- A computation that records the ranges it reads; their number tells the reads apart. -/
abbrev Reading := StateM (List Span)

def Memory.read (m : Memory) (off n : ℕ) : Reading (Packed n) :=
  fun done => ((m.block done.length).slice off n, done ++ [⟨off, n⟩])

def Memory.readWord (m : Memory) (off : ℕ) : Reading UInt32 :=
  fun done => (m.word done.length off, done ++ [⟨off, 4⟩])

section Run
variable {α β : Type} (done : List Span)

theorem bind_run (x : Reading α) (f : α → Reading β) :
    (x >>= f).run done = (f (x.run done).1).run (x.run done).2 := rfl

theorem ite_run (p : Prop) [Decidable p] (x y : Reading α) :
    (if p then x else y).run done = if p then x.run done else y.run done := by
  split <;> rfl

end Run

theorem readWord_run (m : Memory) (off : ℕ) (done : List Span) :
    (m.readWord off).run done = (m.word done.length off, done ++ [⟨off, 4⟩]) := rfl

/-- `for (i = 0; i < *bound; i++) push_back(base[i])`, where every test reads the bound. -/
def Memory.pushBackLoop (m : Memory) (bound base w : ℕ) (i : ℕ) : Reading (List (Packed w)) := do
  let n ← m.readWord bound
  if _h : i < n.toNat then
    let e ← m.read (base + i * w) w
    let es ← m.pushBackLoop bound base w (i + 1)
    return e :: es
  else return []
termination_by addressSpace - i
decreasing_by
  have hn := n.toNat_lt
  simp only [addressSpace]
  omega

section Loop
variable (m : Memory) (bound base w : ℕ)

theorem pushBackLoop_stop {i : ℕ} {done : List Span}
    (h : (m.word done.length bound).toNat ≤ i) :
    m.pushBackLoop bound base w i done = ([], done ++ [⟨bound, 4⟩]) := by
  rw [Memory.pushBackLoop]
  change (if _h : i < (m.word done.length bound).toNat then _ else _ : Reading _) _ = _
  rw [dif_neg (Nat.not_lt.mpr h)]
  rfl

def round (bound base w i : ℕ) (done : List Span) : List Span :=
  done ++ [⟨bound, 4⟩] ++ [⟨base + i * w, w⟩]

theorem round_length (bound base w i : ℕ) (done : List Span) :
    (round bound base w i done).length = done.length + 2 := by
  simp [round]

theorem pushBackLoop_next {i : ℕ} {done : List Span}
    (h : i < (m.word done.length bound).toNat) :
    m.pushBackLoop bound base w i done =
      ((m.block (done.length + 1)).slice (base + i * w) w ::
          (m.pushBackLoop bound base w (i + 1) (round bound base w i done)).1,
        (m.pushBackLoop bound base w (i + 1) (round bound base w i done)).2) := by
  have hread : (m.read (base + i * w) w (done ++ [⟨bound, 4⟩])).1 =
      (m.block (done.length + 1)).slice (base + i * w) w := by
    simp [Memory.read]
  rw [← hread, Memory.pushBackLoop]
  change (if _h : i < (m.word done.length bound).toNat then _ else _ : Reading _) _ = _
  rw [dif_pos h]
  rfl

/-- The counter is a 32-bit one, so that the loop ends whatever it reads. -/
theorem pushBackLoop_length_lt {i : ℕ} (hi : i < addressSpace) (done : List Span) :
    i + (m.pushBackLoop bound base w i done).1.length < addressSpace := by
  induction hleft : addressSpace - i generalizing i done with
  | zero => omega
  | succ left ih =>
    by_cases hnext : i < (m.word done.length bound).toNat
    · have hn := (m.word done.length bound).toNat_lt
      have hrest := ih (i := i + 1) (by simp only [addressSpace]; omega)
        (round bound base w i done) (by omega)
      rw [pushBackLoop_next m bound base w hnext, List.length_cons]
      omega
    · rw [pushBackLoop_stop m bound base w (Nat.not_lt.mp hnext)]
      simpa using hi

theorem pushBackLoop_length_ge {i : ℕ} (hi : i < addressSpace) (done : List Span) :
    done.length ≤ (m.pushBackLoop bound base w i done).2.length := by
  induction hleft : addressSpace - i generalizing i done with
  | zero => omega
  | succ left ih =>
    by_cases hnext : i < (m.word done.length bound).toNat
    · have hn := (m.word done.length bound).toNat_lt
      have hrest := ih (i := i + 1) (by simp only [addressSpace]; omega)
        (round bound base w i done) (by omega)
      rw [pushBackLoop_next m bound base w hnext]
      rw [round_length] at hrest
      exact (Nat.le_add_right _ 2).trans hrest
    · rw [pushBackLoop_stop m bound base w (Nat.not_lt.mp hnext)]
      simp

variable {m bound base w}

theorem pushBackLoop_length {n i : ℕ} (done : List Span)
    (hbound : ∀ t, done.length ≤ t → (m.word t bound).toNat = n) (hi : i ≤ n) :
    (m.pushBackLoop bound base w i done).1.length = n - i := by
  induction hleft : n - i generalizing i done with
  | zero =>
    rw [pushBackLoop_stop m bound base w (by rw [hbound _ le_rfl]; omega), List.length_nil]
  | succ left ih =>
    have hnext : i < (m.word done.length bound).toNat := by
      rw [hbound _ le_rfl]
      omega
    have hrest := ih (i := i + 1) (round bound base w i done)
      (fun t ht => hbound t (by rw [round_length] at ht; omega)) (by omega) (by omega)
    rw [pushBackLoop_next m bound base w hnext, List.length_cons, hrest]

end Loop

def Memory.Sees (m : Memory) (b : Block) (s : Span) : Prop :=
  ∀ t, (m.block t).slice s.offset s.length = b.slice s.offset s.length

section Sees
variable {m : Memory} {b : Block}

theorem sees_inside (hbytes : m.bytes = b.bytes) {s : Span} (h : s.Inside b.bytes.length) :
    m.Sees b s := by
  intro t
  apply Packed.ext_bytes
  refine List.map_congr_left fun k hk => ?_
  have hin := h k (List.mem_range.mp hk)
  simp only [Block.byte, Memory.block, hbytes, List.getElem?_eq_getElem hin, Option.getD_some]

theorem sees_steady (h : ∀ t, m.block t = b) (s : Span) : m.Sees b s := by
  intro t
  rw [h t]

theorem word_sees {off : ℕ} (h : m.Sees b ⟨off, 4⟩) (t : ℕ) :
    m.word t off = (b.readWord off).value :=
  congrArg Codec.word32.symm (h t)

theorem pushBackLoop_sees {bound base w n i k : ℕ} (done : List Span) (hbound : m.Sees b ⟨bound, 4⟩)
    (hn : (b.readWord bound).value.toNat = n) (hk : i + k = n)
    (hentries : ∀ s ∈ (b.readArray base w i k).spans, m.Sees b s) :
    (m.pushBackLoop bound base w i done).1 = (b.readArray base w i k).value := by
  induction k generalizing i done with
  | zero =>
    rw [pushBackLoop_stop m bound base w (by rw [word_sees hbound, hn]; omega)]
    rfl
  | succ k ih =>
    have hnext : i < (m.word done.length bound).toNat := by
      rw [word_sees hbound, hn]
      omega
    have hspans : (b.readArray base w i (k + 1)).spans =
        ⟨base + i * w, w⟩ :: (b.readArray base w (i + 1) k).spans := by
      simp [Block.readArray, Block.read]
    rw [hspans, List.forall_mem_cons] at hentries
    have hrest := ih (i := i + 1) (round bound base w i done) (by omega) hentries.2
    rw [pushBackLoop_next m bound base w hnext]
    dsimp only
    rw [hrest, hentries.1 _]
    rfl

end Sees
end MeshRoofFirmware.Library.UnsteadyMemory
