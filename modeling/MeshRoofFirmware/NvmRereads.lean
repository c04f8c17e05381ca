import MeshRoofFirmware.NvmReadBounds
import MeshRoofFirmware.Library.UnsteadyMemory

set_option autoImplicit false

/-! `MeshRoof::loadNvm` read by read. The counts are dereferenced again for the pointers, for the
copy of the main body and at every test of the loops, and what lies behind the delivered blob
may have changed in between. -/
namespace MeshRoofFirmware.NvmRereads
open Library.ByteCodec Library.ByteBlock Library.UnsteadyMemory NvmLayout NvsFlash NvmRoundTrip
open NvmReadBounds
open NvmLoad hiding Garbage readVector parseImage loadBlob loadNvm loadNvm_delivers
variable {sz : EntrySizes}

/-- The local `nvm_meta` before it is read, and the heap behind the blob at each read of it. -/
structure Garbage where
  stack : Packed 4
  heap : ℕ → ℕ → UInt8

def Garbage.at (g : Garbage) (t : ℕ) : NvmLoad.Garbage := ⟨g.stack, g.heap t⟩

def readVector (m : Memory) (bound base w : ℕ) : Reading (EntryVector w) := fun done =>
  (⟨(m.pushBackLoop bound base w 0 done).1, by
      have hlt := pushBackLoop_length_lt m bound base w (i := 0) (by decide) done
      omega⟩,
    (m.pushBackLoop bound base w 0 done).2)

def copyOut (sz : EntrySizes) (m : Memory) (mainBody authchans admins mates : ℕ) :
    Reading (Configuration sz) := do
  let body ← m.read mainBody mainBodySize
  let authchanEntries ← readVector m (mainBody + nAuthchansOffset) authchans sz.authchan
  let adminEntries ← readVector m (mainBody + nAdminsOffset) admins sz.admin
  let mateEntries ← readVector m (mainBody + nMatesOffset) mates sz.mate
  return ⟨mainBodyCodec.symm body, authchanEntries, adminEntries, mateEntries⟩

def parseImage (sz : EntrySizes) (m : Memory) :
    Reading (Except ImageError (Configuration sz)) := do
  let header := 0
  let magic ← m.readWord (header + magicOffset)
  if magic ≠ nvmHeaderMagic then return .error .wrongHeaderMagic else do
  let mainBody := header + headerSize
  -- each use of `main_body->n_*` is a read of its own
  let nAuthchans := m.readWord (mainBody + nAuthchansOffset)
  let nAdmins := m.readWord (mainBody + nAdminsOffset)
  let nMates := m.readWord (mainBody + nMatesOffset)
  let size := sizeT
    (imageTotal sz (← nAuthchans).toNat (← nAdmins).toNat (← nMates).toNat)
  if size > flashTargetSize then return .error .tooBigSize else do
  let authchans := mainBody + mainBodySize
  let admins := sizeT (authchans + sizeT (sz.authchan * (← nAuthchans).toNat))
  let mates := sizeT (admins + sizeT (sz.admin * (← nAdmins).toNat))
  let footer := sizeT (mates + sizeT (sz.mate * (← nMates).toNat))
  let magic ← m.readWord (footer + magicOffset)
  if magic ≠ nvmFooterMagic then return .error .wrongFooterMagic else do
  let loaded ← copyOut sz m mainBody authchans admins mates
  return .ok loaded

def loadBlob (g : Garbage) (blob : Bytes) (c : Configuration sz) : LoadOutcome sz :=
  let parsed := (parseImage sz ⟨blob, g.heap⟩).run []
  loadParsed ⟨parsed.1, parsed.2⟩ c

def loadNvm (g : Garbage) (f : LoadFaults) (flash : Flash) (c : Configuration sz) :
    LoadOutcome sz :=
  loadWith (fun blob => loadBlob g blob c) (g.at 0) f flash c

section ClosedForm
variable (sz : EntrySizes) (m : Memory)

def nAuthchansRead (t : ℕ) : UInt32 := m.word t (headerSize + nAuthchansOffset)
def nAdminsRead (t : ℕ) : UInt32 := m.word t (headerSize + nAdminsOffset)
def nMatesRead (t : ℕ) : UInt32 := m.word t (headerSize + nMatesOffset)

def sizeRead : ℕ := sizeT (imageTotal sz (nAuthchansRead m 1).toNat (nAdminsRead m 2).toNat
  (nMatesRead m 3).toNat)

def adminsRead : ℕ := sizeT (authchansOffset + sizeT (sz.authchan * (nAuthchansRead m 4).toNat))
def matesRead : ℕ := sizeT (adminsRead sz m + sizeT (sz.admin * (nAdminsRead m 5).toNat))
def footerRead : ℕ := sizeT (matesRead sz m + sizeT (sz.mate * (nMatesRead m 6).toNat))

def checkSpans : List Span :=
  headerSpans ++ countSpans ++ countSpans ++ [⟨footerRead sz m + magicOffset, 4⟩]

def copied : Configuration sz :=
  (copyOut sz m headerSize authchansOffset (adminsRead sz m) (matesRead sz m) (checkSpans sz m)).1

theorem parseImage_value : ((parseImage sz m).run []).1 =
    if m.word 0 magicOffset ≠ nvmHeaderMagic then .error .wrongHeaderMagic
    else if sizeRead sz m > flashTargetSize then .error .tooBigSize
    else if m.word 7 (footerRead sz m + magicOffset) ≠ nvmFooterMagic then
      .error .wrongFooterMagic
    else .ok (copied sz m) := by
  unfold parseImage
  rw [bind_run, readWord_run, ite_run, apply_ite Prod.fst]
  refine if_congr Iff.rfl rfl ?_
  rw [bind_run, bind_run, bind_run, ite_run, apply_ite Prod.fst]
  refine if_congr Iff.rfl rfl ?_
  rw [bind_run, bind_run, bind_run, bind_run, ite_run, apply_ite Prod.fst]
  exact if_congr Iff.rfl rfl rfl

theorem footerRead_eq : footerRead sz m = sizeT (footerOffset sz (nAuthchansRead m 4).toNat
    (nAdminsRead m 5).toNat (nMatesRead m 6).toNat) := by
  simp only [footerRead, matesRead, adminsRead, sizeT_add_right, sizeT_add_left, footerOffset,
    matesOffset, adminsOffset]

/-- The main body is the ninth read, and the loops come after it. -/
theorem copied_eq : ∃ d₀ d₁ d₂ : List Span, 9 ≤ d₀.length ∧ 9 ≤ d₁.length ∧ 9 ≤ d₂.length ∧
    copied sz m = ⟨mainBodyCodec.symm ((m.block 8).slice headerSize mainBodySize),
      (readVector m (headerSize + nAuthchansOffset) authchansOffset sz.authchan d₀).1,
      (readVector m (headerSize + nAdminsOffset) (adminsRead sz m) sz.admin d₁).1,
      (readVector m (headerSize + nMatesOffset) (matesRead sz m) sz.mate d₂).1⟩ := by
  let d₀ : List Span := checkSpans sz m ++ [⟨headerSize, mainBodySize⟩]
  have later (bound base w : ℕ) {done : List Span} (h : 9 ≤ done.length) :
      9 ≤ (readVector m bound base w done).2.length :=
    h.trans (pushBackLoop_length_ge m bound base w (by decide) done)
  have h₀ : 9 ≤ d₀.length := le_rfl
  have h₁ := later (headerSize + nAuthchansOffset) authchansOffset sz.authchan h₀
  have h₂ := later (headerSize + nAdminsOffset) (adminsRead sz m) sz.admin h₁
  exact ⟨d₀, _, _, h₀, h₁, h₂, rfl⟩

theorem copied_counts : (copied sz m).mainBody.nAuthchans = nAuthchansRead m 8 ∧
    (copied sz m).mainBody.nAdmins = nAdminsRead m 8 ∧
    (copied sz m).mainBody.nMates = nMatesRead m 8 := loadedBody_counts (m.block 8)

variable {m}

theorem copied_lengths {na nd nm : ℕ} (ha : ∀ t, 9 ≤ t → (nAuthchansRead m t).toNat = na)
    (hd : ∀ t, 9 ≤ t → (nAdminsRead m t).toNat = nd)
    (hm : ∀ t, 9 ≤ t → (nMatesRead m t).toNat = nm) :
    (copied sz m).authchans.entries.length = na ∧ (copied sz m).admins.entries.length = nd ∧
      (copied sz m).mates.entries.length = nm := by
  obtain ⟨d₀, d₁, d₂, h₀, h₁, h₂, hcopied⟩ := copied_eq sz m
  rw [hcopied]
  exact ⟨pushBackLoop_length d₀ (fun t ht => ha t (h₀.trans ht)) (Nat.zero_le _),
    pushBackLoop_length d₁ (fun t ht => hd t (h₁.trans ht)) (Nat.zero_le _),
    pushBackLoop_length d₂ (fun t ht => hm t (h₂.trans ht)) (Nat.zero_le _)⟩

end ClosedForm

section Steady
variable {m : Memory} {b : Block}

theorem counts_see (h : ∀ s ∈ countSpans, m.Sees b s) (t : ℕ) :
    nAuthchansRead m t = nAuthchansOf b ∧ nAdminsRead m t = nAdminsOf b ∧
      nMatesRead m t = nMatesOf b := by
  simp only [countSpans, List.forall_mem_cons] at h
  exact ⟨word_sees h.1 t, word_sees h.2.1 t, word_sees h.2.2.1 t⟩

theorem readVector_sees {bound base w : ℕ} (done : List Span) (hbound : m.Sees b ⟨bound, 4⟩)
    (h : ∀ s ∈ (NvmLoad.readVector b base w (b.readWord bound).value).spans, m.Sees b s) :
    (readVector m bound base w done).1 =
      (NvmLoad.readVector b base w (b.readWord bound).value).value :=
  EntryVector.ext_entries (pushBackLoop_sees done hbound rfl (Nat.zero_add _) h)

theorem copied_sees (hcounts : ∀ s ∈ countSpans, m.Sees b s)
    (h : ∀ s ∈ contentSpans sz b, m.Sees b s) : copied sz m = configurationOf sz b := by
  obtain ⟨ha, -, -⟩ := counts_see hcounts 4
  obtain ⟨-, hd, -⟩ := counts_see hcounts 5
  have hadmins : adminsRead sz m = adminsOf sz b := by rw [adminsRead, ha, adminsOf]
  have hmates : matesRead sz m = matesOf sz b := by rw [matesRead, hadmins, hd, matesOf]
  rw [contentSpans, List.forall_mem_cons, List.forall_mem_append, List.forall_mem_append] at h
  obtain ⟨hbody, hA, hD, hM⟩ := h
  simp only [countSpans, List.forall_mem_cons] at hcounts
  obtain ⟨d₀, d₁, d₂, -, -, -, hcopied⟩ := copied_eq sz m
  rw [hcopied, hadmins, hmates, hbody 8, readVector_sees d₀ hcounts.1 hA,
    readVector_sees d₁ hcounts.2.1 hD, readVector_sees d₂ hcounts.2.2.1 hM]
  rfl

theorem parseImage_sees (h : ∀ s ∈ (NvmLoad.parseImage sz b).spans, m.Sees b s) :
    ((parseImage sz m).run []).1 = (NvmLoad.parseImage sz b).value := by
  have hheader : m.word 0 magicOffset = (b.readWord magicOffset).value :=
    word_sees (h _ (headerSpans_subset sz List.mem_cons_self)) 0
  rw [parseImage_value, hheader]
  by_cases hmagic : (b.readWord magicOffset).value = nvmHeaderMagic
  swap
  · rw [parseImage_eq, if_pos hmagic, if_pos hmagic]
  have hcounts : ∀ s ∈ countSpans, m.Sees b s :=
    fun s hs => h s (countSpans_subset sz hmagic hs)
  rw [parseImage_eq, if_neg (not_not.mpr hmagic)] at h
  rw [parseImage_eq, if_neg (not_not.mpr hmagic), if_neg (not_not.mpr hmagic)]
  have hsize : sizeRead sz m = imageSizeOf sz b := by
    rw [sizeRead, (counts_see hcounts 1).1, (counts_see hcounts 2).2.1, (counts_see hcounts 3).2.2,
      imageSizeOf]
  have hfooter : footerRead sz m = footerOf sz b := by
    rw [footerRead_eq, (counts_see hcounts 4).1, (counts_see hcounts 5).2.1,
      (counts_see hcounts 6).2.2, footerOf_eq]
  rw [hsize, hfooter]
  by_cases hbig : imageSizeOf sz b > flashTargetSize
  · rw [if_pos hbig, if_pos hbig]
  rw [if_neg hbig] at h
  rw [if_neg hbig, if_neg hbig]
  have hword : m.word 7 (footerOf sz b + magicOffset) =
      (b.readWord (footerOf sz b + magicOffset)).value := by
    refine word_sees (h _ ?_) 7
    split_ifs <;> simp [footerSpans]
  rw [hword]
  by_cases hmark : (b.readWord (footerOf sz b + magicOffset)).value ≠ nvmFooterMagic
  · rw [if_pos hmark, if_pos hmark]
  rw [if_neg hmark] at h
  rw [if_neg hmark, if_neg hmark, copied_sees hcounts]
  exact fun s hs => h s (List.mem_append_right _ hs)

end Steady

/-- The two calls end alike; they may have made other reads. -/
def Alike (p q : LoadOutcome sz) : Prop :=
  p.exit = q.exit ∧ p.configuration = q.configuration ∧ p.calls = q.calls

theorem loadParsed_alike {p q : Access (Except ImageError (Configuration sz))}
    (h : p.value = q.value) (c : Configuration sz) : Alike (loadParsed p c) (loadParsed q c) := by
  unfold loadParsed
  rw [h]
  cases q.value <;> exact ⟨rfl, rfl, rfl⟩

theorem loadNvm_sees {g : Garbage} {flash : Flash} (h : ∀ blob, Delivers (g.at 0) flash blob →
      ∀ s ∈ (NvmLoad.parseImage sz ⟨blob, g.heap 0⟩).spans,
        Memory.Sees ⟨blob, g.heap⟩ ⟨blob, g.heap 0⟩ s) (f : LoadFaults) (c : Configuration sz) :
    Alike (loadNvm g f flash c) (NvmLoad.loadNvm (g.at 0) f flash c) := by
  rw [loadNvm, NvmLoad.loadNvm]
  rcases loadWith_cases (g.at 0) f flash c with ⟨o, -, hload⟩ | ⟨-, blob, hdel, hload⟩
  · rw [hload, hload]
    exact ⟨rfl, rfl, rfl⟩
  · rw [hload, hload]
    exact loadParsed_alike (parseImage_sees (h blob hdel)) c

/-- While the memory behind the blob stays as it is, one read of each count is enough. -/
theorem loadNvm_steady {g : Garbage} (h : ∀ t, g.heap t = g.heap 0) (f : LoadFaults)
    (flash : Flash) (c : Configuration sz) :
    Alike (loadNvm g f flash c) (NvmLoad.loadNvm (g.at 0) f flash c) := by
  refine loadNvm_sees (fun blob _ s _ => ?_) f c
  exact sees_steady (m := ⟨blob, g.heap⟩) (fun t => congrArg (Block.mk blob) (h t)) s

/-- So it is on blobs that are read inside, whatever lies behind them. -/
theorem loadNvm_covered {g : Garbage} {flash : Flash}
    (h : ∀ blob, Delivers (g.at 0) flash blob → Covered sz blob) (f : LoadFaults)
    (c : Configuration sz) : Alike (loadNvm g f flash c) (NvmLoad.loadNvm (g.at 0) f flash c) := by
  refine loadNvm_sees (fun blob hdel s hs => ?_) f c
  have hinside := (parse_inside_iff sz (b := ⟨blob, g.heap 0⟩) (delivers_small hdel)).mpr
    (h blob hdel)
  exact sees_inside rfl (hinside s hs)

theorem image_covered {c : Configuration sz} (hc : c.Counted) (hfit : c.total ≤ flashTargetSize) :
    Covered sz c.image := by
  have hlt : c.total < addressSpace := lt_of_le_of_lt hfit (by decide)
  have hsmall : c.image.length < addressSpace := by rwa [image_length]
  let b : Block := ⟨c.image, fun _ => 0⟩
  have hb : c.image <+: b.bytes := List.prefix_rfl
  have htotal : c.total = footerOffset sz c.authchans.entries.length c.admins.entries.length
    c.mates.entries.length + footerSize := rfl
  have h168 : headerSize + mainBodySize ≤ c.image.length := by
    rw [image_length, htotal]
    simp only [footerOffset, matesOffset, adminsOffset, authchansOffset]
    omega
  obtain ⟨ha, hd, hm⟩ := counts_inside (b := b) hsmall h168
  have hend : sectionsEnd sz c.image + footerSize = c.total := by
    rw [sectionsEnd, ← ha, ← hd, ← hm, nAuthchansOf_image hc hb hsmall,
      nAdminsOf_image hc hb hsmall, nMatesOf_image hc hb hsmall, EntryVector.size_toNat,
      EntryVector.size_toNat, EntryVector.size_toNat, ← htotal]
  simp only [footerSize] at hend
  have h4 : headerSize ≤ c.image.length := (Nat.le_add_right headerSize mainBodySize).trans h168
  refine ⟨h4, fun _ => ⟨h168, fun _ => ?_⟩⟩
  rw [image_length, sizeT_of_lt (by omega)]
  exact ⟨by omega, fun _ => by omega⟩

theorem load_stored_rereads {flash : Flash} {size : ℕ} {c : Configuration sz}
    (h : Stored flash size c) (hfit : c.total ≤ flashTargetSize) (hsize : c.total ≤ size)
    (g : Garbage) (m : Configuration sz) : (loadNvm g .none flash m).result = true ∧
      (loadNvm g .none flash m).configuration = c := by
  have hcovered : ∀ blob, Delivers (g.at 0) flash blob → Covered sz blob := fun blob hdel => by
    rw [((h.delivers_iff _ blob).mp hdel).1]
    exact image_covered h.counted hfit
  obtain ⟨hexit, hconf, -⟩ := loadNvm_covered hcovered .none m
  rw [LoadOutcome.result, hexit, hconf]
  exact load_stored h hfit hsize (g.at 0) m

/-- A read of this word at this offset is possible. -/
def Shows (blob : Bytes) (off : ℕ) (w : UInt32) : Prop :=
  ∀ k < 4, ∀ x, blob[sizeT (off + k)]? = some x → (Codec.word32 w).bytes[k]? = some x

def ShowsCounts (blob : Bytes) (na nd nm : UInt32) : Prop :=
  Shows blob (headerSize + nAuthchansOffset) na ∧ Shows blob (headerSize + nAdminsOffset) nd ∧
    Shows blob (headerSize + nMatesOffset) nm

/-- Possible reads pass the three checks; the counts are read again for the footer. -/
def Passable (sz : EntrySizes) (blob : Bytes) : Prop :=
  Shows blob magicOffset nvmHeaderMagic ∧
    (∃ na nd nm, ShowsCounts blob na nd nm ∧
      sizeT (imageTotal sz na.toNat nd.toNat nm.toNat) ≤ flashTargetSize) ∧
    ∃ na nd nm, ShowsCounts blob na nd nm ∧
      Shows blob (sizeT (footerOffset sz na.toNat nd.toNat nm.toNat) + magicOffset) nvmFooterMagic

theorem shows_behind {blob : Bytes} {off : ℕ} (h : blob.length ≤ off)
    (hfit : off + 4 ≤ addressSpace) (w : UInt32) : Shows blob off w := by
  intro k hk x hx
  rw [sizeT_of_lt (by omega), List.getElem?_eq_none (by omega)] at hx
  cases hx

theorem shows_read (b : Block) (off : ℕ) : Shows b.bytes off (b.readWord off).value := by
  intro k hk x hx
  have hbytes : (Codec.word32 (b.readWord off).value).bytes = (b.slice off 4).bytes :=
    congrArg Packed.bytes (Equiv.apply_symm_apply Codec.word32 (b.slice off 4))
  rw [hbytes, Block.slice, List.getElem?_map, List.getElem?_range hk, Option.map_some, Block.byte,
    hx, Option.getD_some]

theorem passable_of_checks {m : Memory} (hmagic : m.word 0 magicOffset = nvmHeaderMagic)
    (hsize : sizeRead sz m ≤ flashTargetSize)
    (hfooter : m.word 7 (footerRead sz m + magicOffset) = nvmFooterMagic) :
    Passable sz m.bytes := by
  have hcounts (s t u : ℕ) :
      ShowsCounts m.bytes (nAuthchansRead m s) (nAdminsRead m t) (nMatesRead m u) :=
    ⟨shows_read (m.block s) _, shows_read (m.block t) _, shows_read (m.block u) _⟩
  refine ⟨hmagic ▸ shows_read (m.block 0) magicOffset, ⟨_, _, _, hcounts 1 2 3, hsize⟩,
    ⟨_, _, _, hcounts 4 5 6, ?_⟩⟩
  rw [← footerRead_eq, ← hfooter]
  exact shows_read (m.block 7) _

theorem loadBlob_ok {g : Garbage} {blob : Bytes} {loaded : Configuration sz}
    (h : ((parseImage sz ⟨blob, g.heap⟩).run []).1 = .ok loaded) (c : Configuration sz) :
    (loadBlob g blob c).result = true ∧ (loadBlob g blob c).configuration = loaded := by
  unfold loadBlob loadParsed
  dsimp only
  rw [h]
  exact ⟨rfl, rfl⟩

theorem loadBlob_error {g : Garbage} {blob : Bytes} {error : ImageError}
    (h : ((parseImage sz ⟨blob, g.heap⟩).run []).1 = .error error) (c : Configuration sz) :
    (loadBlob g blob c).result = false ∧ (loadBlob g blob c).configuration = c := by
  unfold loadBlob loadParsed
  dsimp only
  rw [h]
  exact ⟨rfl, rfl⟩

def completes (off : ℕ) (w : UInt32) (x : ℕ) : UInt8 :=
  ((Codec.word32 w).bytes[sizeT (x + (addressSpace - off))]?).getD 0

theorem word_completed {blob : Bytes} {off : ℕ} {w : UInt32} (h : Shows blob off w)
    (hoff : off < addressSpace) :
    ((⟨blob, completes off w⟩ : Block).readWord off).value = w := by
  suffices hslice : (⟨blob, completes off w⟩ : Block).slice off 4 = Codec.word32 w by
    change Codec.word32.symm _ = w
    rw [hslice, Equiv.symm_apply_apply]
  apply Packed.ext_bytes
  apply List.ext_getElem
  · rw [Packed.width, Packed.width]
  intro k hk hw
  rw [Packed.width] at hk
  have hback : sizeT (sizeT (off + k) + (addressSpace - off)) = k := by
    rw [sizeT_add_left, show off + k + (addressSpace - off) = k + addressSpace by omega, sizeT,
      Nat.add_mod_right]
    exact Nat.mod_eq_of_lt (by simp only [addressSpace]; omega)
  have hbyte : (⟨blob, completes off w⟩ : Block).byte (off + k) = (Codec.word32 w).bytes[k] := by
    rw [Block.byte]
    cases hin : blob[sizeT (off + k)]? with
    | none =>
      change ((Codec.word32 w).bytes[sizeT (sizeT (off + k) + (addressSpace - off))]?).getD 0 = _
      rw [hback, List.getElem?_eq_getElem hw, Option.getD_some]
    | some x =>
      have hshown := h k hk x hin
      rw [List.getElem?_eq_getElem hw, Option.some.injEq] at hshown
      rw [Option.getD_some, hshown]
  simpa only [Block.slice, List.getElem_map, List.getElem_range] using hbyte

/-- A heap that gets a blob past the checks with these counts, at first and for the footer, and
then shows other bytes to the `memcpy` than to the loops. -/
def unsteadyHeap (sz : EntrySizes) (na nd nm na' nd' nm' : UInt32) : ℕ → ℕ → UInt8
  | 0 => completes magicOffset nvmHeaderMagic
  | 1 => completes (headerSize + nAuthchansOffset) na
  | 2 => completes (headerSize + nAdminsOffset) nd
  | 3 => completes (headerSize + nMatesOffset) nm
  | 4 => completes (headerSize + nAuthchansOffset) na'
  | 5 => completes (headerSize + nAdminsOffset) nd'
  | 6 => completes (headerSize + nMatesOffset) nm'
  | 7 => completes (sizeT (footerOffset sz na'.toNat nd'.toNat nm'.toNat) + magicOffset)
      nvmFooterMagic
  | 8 => fun _ => 255
  | _ => fun _ => 0

section Unsteady
variable {blob : Bytes} {na nd nm na' nd' nm' : UInt32}
  (hheader : Shows blob magicOffset nvmHeaderMagic) (hcounts : ShowsCounts blob na nd nm)
  (hsize : sizeT (imageTotal sz na.toNat nd.toNat nm.toNat) ≤ flashTargetSize)
  (hcounts' : ShowsCounts blob na' nd' nm')
  (hfooter : Shows blob (sizeT (footerOffset sz na'.toNat nd'.toNat nm'.toNat) + magicOffset)
    nvmFooterMagic)
include hheader hcounts hsize hcounts' hfooter

theorem unsteady_parsed : ((parseImage sz ⟨blob, unsteadyHeap sz na nd nm na' nd' nm'⟩).run []).1 =
    .ok (copied sz ⟨blob, unsteadyHeap sz na nd nm na' nd' nm'⟩) := by
  have word (heap : ℕ → ℕ → UInt8) (t off : ℕ) : Memory.word ⟨blob, heap⟩ t off =
      ((⟨blob, heap t⟩ : Block).readWord off).value := rfl
  have hmagic : Memory.word ⟨blob, unsteadyHeap sz na nd nm na' nd' nm'⟩ 0 magicOffset =
      nvmHeaderMagic := by
    rw [word, unsteadyHeap, word_completed hheader (by decide)]
  have htotal : ¬ sizeRead sz ⟨blob, unsteadyHeap sz na nd nm na' nd' nm'⟩ > flashTargetSize := by
    simp only [sizeRead, nAuthchansRead, nAdminsRead, nMatesRead, word, unsteadyHeap]
    rw [word_completed hcounts.1 (by decide), word_completed hcounts.2.1 (by decide),
      word_completed hcounts.2.2 (by decide)]
    exact Nat.not_lt.mpr hsize
  have hpointer : footerRead sz ⟨blob, unsteadyHeap sz na nd nm na' nd' nm'⟩ =
      sizeT (footerOffset sz na'.toNat nd'.toNat nm'.toNat) := by
    simp only [footerRead_eq, nAuthchansRead, nAdminsRead, nMatesRead, word, unsteadyHeap]
    rw [word_completed hcounts'.1 (by decide), word_completed hcounts'.2.1 (by decide),
      word_completed hcounts'.2.2 (by decide)]
  rw [parseImage_value, if_neg (not_not.mpr hmagic), if_neg htotal, if_neg]
  rw [hpointer, word, unsteadyHeap, word_completed hfooter (sizeT_lt _)]
  exact not_not.mpr rfl

theorem unsteady_loaded {g : Garbage} (hheap : g.heap = unsteadyHeap sz na nd nm na' nd' nm')
    (c : Configuration sz) : (loadBlob g blob c).result = true ∧
      (loadBlob g blob c).configuration = copied sz ⟨blob, g.heap⟩ := by
  refine loadBlob_ok ?_ c
  rw [hheap]
  exact unsteady_parsed hheader hcounts hsize hcounts' hfooter

end Unsteady

theorem nMates_unsteady {blob : Bytes} (hshort : blob.length < headerSize + mainBodySize) :
    ((⟨blob, fun _ => 255⟩ : Block).readWord (headerSize + nMatesOffset)).value ≠
      ((⟨blob, fun _ => 0⟩ : Block).readWord (headerSize + nMatesOffset)).value := by
  intro h
  have hslice := congrArg Packed.bytes (Codec.word32.symm.injective h)
  have hnone : blob[sizeT (headerSize + nMatesOffset + 3)]? = none :=
    List.getElem?_eq_none (Nat.le_of_lt_succ hshort)
  have hbyte (x : UInt8) : ((⟨blob, fun _ => x⟩ : Block).slice
      (headerSize + nMatesOffset) 4).bytes[3]? = some x := by
    rw [Block.slice, List.getElem?_map, List.getElem?_range (by decide), Option.map_some,
      Block.byte, hnone, Option.getD_none]
  have hsame := (hbyte 255).symm.trans ((congrArg (·[3]?) hslice).trans (hbyte 0))
  exact absurd hsame (by decide)

theorem unsteady_mates {g : Garbage} {na nd nm na' nd' nm' : UInt32}
    (hheap : g.heap = unsteadyHeap sz na nd nm na' nd' nm') (blob : Bytes) :
    let c := copied sz ⟨blob, g.heap⟩
    c.mainBody.nMates = ((⟨blob, fun _ => 255⟩ : Block).readWord
        (headerSize + nMatesOffset)).value ∧
      c.mates.entries.length = ((⟨blob, fun _ => 0⟩ : Block).readWord
        (headerSize + nMatesOffset)).value.toNat := by
  have hcopied (off : ℕ) : Memory.word ⟨blob, g.heap⟩ 8 off =
      ((⟨blob, fun _ => 255⟩ : Block).readWord off).value := by
    rw [hheap]
    rfl
  have hlater (t : ℕ) (ht : 9 ≤ t) (off : ℕ) : Memory.word ⟨blob, g.heap⟩ t off =
      ((⟨blob, fun _ => 0⟩ : Block).readWord off).value := by
    obtain ⟨k, rfl⟩ := Nat.exists_eq_add_of_le' ht
    rw [hheap]
    rfl
  obtain ⟨-, -, hmates⟩ := copied_lengths sz
    (fun t ht => congrArg UInt32.toNat (hlater t ht (headerSize + nAuthchansOffset)))
    (fun t ht => congrArg UInt32.toNat (hlater t ht (headerSize + nAdminsOffset)))
    (fun t ht => congrArg UInt32.toNat (hlater t ht (headerSize + nMatesOffset)))
  exact ⟨(copied_counts sz _).2.2.trans (hcopied _), hmates⟩

/-- A failed load leaves the object as it was; after any other the object holds nothing of what
it held before, and its counts are the lengths of its lists. -/
def AllOrNothing (load : Configuration sz → LoadOutcome sz) (c : Configuration sz) : Prop :=
  ((load c).result = false → (load c).configuration = c) ∧
    ((load c).result = true →
      (∀ m, (load m).configuration = (load c).configuration) ∧
      (load c).configuration.mainBody.nAuthchans.toNat =
        (load c).configuration.authchans.entries.length ∧
      (load c).configuration.mainBody.nAdmins.toNat =
        (load c).configuration.admins.entries.length ∧
      (load c).configuration.mainBody.nMates.toNat = (load c).configuration.mates.entries.length)

theorem loadBlob_allOrNothing {g : Garbage} {blob : Bytes} (hsmall : blob.length < addressSpace)
    (h : headerSize + mainBodySize ≤ blob.length ∨ ¬ Passable sz blob) (c : Configuration sz) :
    AllOrNothing (loadBlob g blob) c := by
  cases hparse : ((parseImage sz ⟨blob, g.heap⟩).run []).1 with
  | error error =>
    obtain ⟨hresult, hconf⟩ := loadBlob_error hparse c
    refine ⟨fun _ => hconf, fun htrue => ?_⟩
    rw [hresult] at htrue
    cases htrue
  | ok loaded =>
    obtain ⟨hresult, hconf⟩ := loadBlob_ok hparse c
    refine ⟨fun hfalse => ?_, fun _ => ⟨fun m => (loadBlob_ok hparse m).2.trans hconf.symm, ?_⟩⟩
    · rw [hresult] at hfalse
      cases hfalse
    rw [hconf]
    rw [parseImage_value] at hparse
    split_ifs at hparse with hmagic hsize hfooter
    cases hparse
    rw [not_not] at hmagic hfooter
    have hlong := h.resolve_right
      (not_not.mpr (passable_of_checks hmagic (Nat.not_lt.mp hsize) hfooter))
    have hinside := (countSpans_inside_iff (b := ⟨blob, g.heap 8⟩) hsmall).mpr hlong
    have hread := counts_see (m := ⟨blob, g.heap⟩) (b := ⟨blob, g.heap 8⟩)
      (fun s hs => sees_inside rfl (hinside s hs))
    obtain ⟨hA, hD, hM⟩ := copied_lengths sz (m := ⟨blob, g.heap⟩)
      (fun t _ => congrArg UInt32.toNat (hread t).1)
      (fun t _ => congrArg UInt32.toNat (hread t).2.1)
      (fun t _ => congrArg UInt32.toNat (hread t).2.2)
    obtain ⟨hna, hnd, hnm⟩ := copied_counts sz ⟨blob, g.heap⟩
    rw [hA, hD, hM, hna, hnd, hnm, (hread 8).1, (hread 8).2.1, (hread 8).2.2]
    exact ⟨rfl, rfl, rfl⟩

theorem loadNvm_delivers {g : Garbage} {flash : Flash} {blob : Bytes}
    (h : Delivers (g.at 0) flash blob) (c : Configuration sz) :
    loadNvm g .none flash c = loadBlob g blob c := loadWith_delivers h _ c

theorem delivers_stack {g g' : NvmLoad.Garbage} {flash : Flash} {blob : Bytes}
    (h : g'.stack = g.stack) (hdel : Delivers g flash blob) : Delivers g' flash blob := by
  unfold Delivers metaSize at *
  rwa [h]

/-- The routine is all or nothing on the flash contents that hand it a blob with all of the main
body, or one that fails a check whatever lies behind it. -/
theorem loadNvm_all_or_nothing_iff (sz : EntrySizes) (f : LoadFaults) (flash : Flash) :
    (∀ (g : Garbage) (c : Configuration sz), AllOrNothing (loadNvm g f flash) c) ↔
      (f = .none → ∀ g blob, Delivers g flash blob →
        headerSize + mainBodySize ≤ blob.length ∨ ¬ Passable sz blob) := by
  constructor
  · rintro h rfl g blob hdel
    by_contra hne
    rw [not_or, not_not, Nat.not_le] at hne
    obtain ⟨hshort, hheader, ⟨na, nd, nm, hcounts, hsize⟩, na', nd', nm', hcounts', hfooter⟩ := hne
    obtain ⟨g', hstack, hheap⟩ : ∃ g' : Garbage, g'.stack = g.stack ∧
        g'.heap = unsteadyHeap sz na nd nm na' nd' nm' := ⟨⟨g.stack, _⟩, rfl, rfl⟩
    obtain ⟨hresult, hconf⟩ := unsteady_loaded hheader hcounts hsize hcounts' hfooter hheap
      (freshConfiguration sz)
    obtain ⟨hannounced, hlength⟩ := unsteady_mates hheap blob
    have hdel' : Delivers (g'.at 0) flash blob := delivers_stack hstack hdel
    have hagree := (h g' (freshConfiguration sz)).2 (by rw [loadNvm_delivers hdel', hresult])
    have hmates := hagree.2.2.2
    rw [loadNvm_delivers hdel', hconf, hannounced, hlength] at hmates
    exact nMates_unsteady hshort (UInt32.toNat_inj.mp hmates)
  · intro h g c
    rcases loadWith_cases (g.at 0) f flash c with
      ⟨o, ⟨hexit, hsame, -⟩, hload⟩ | ⟨rfl, blob, hdel, -⟩
    · refine ⟨fun _ => ?_, fun htrue => absurd ?_ hexit⟩
      · rw [loadNvm, hload, hsame]
      · rw [loadNvm, hload] at htrue
        exact (result_iff_loaded o).mp htrue
    · have hblob := loadBlob_allOrNothing (g := g) (delivers_small hdel) (h rfl _ blob hdel) c
      simpa only [AllOrNothing, loadNvm_delivers hdel] using hblob

def headerOnlyGarbage : Garbage := ⟨.zero 4, unsteadyHeap sampleSizes 0 0 0 0 0 0⟩

theorem headerOnly_disagrees :
    let o := loadNvm headerOnlyGarbage .none headerOnlyFlash (freshConfiguration sampleSizes)
    o.result = true ∧ o.configuration.mainBody.nMates = 0xffffffff ∧
      o.configuration.mates.entries = [] := by
  have hlen : headerOnly.length = 4 := Packed.width _
  have hbehind (off : ℕ) (w : UInt32) (h : 4 ≤ off) (hfit : off + 4 ≤ addressSpace) :
      Shows headerOnly off w := shows_behind (hlen.le.trans h) hfit w
  have hheader : Shows headerOnly magicOffset nvmHeaderMagic :=
    shows_read ⟨headerOnly, fun _ => 0⟩ 0
  have hcounts : ShowsCounts headerOnly 0 0 0 :=
    ⟨hbehind _ _ (by decide) (by decide), hbehind _ _ (by decide) (by decide),
      hbehind _ _ (by decide) (by decide)⟩
  have hheap : headerOnlyGarbage.heap = unsteadyHeap sampleSizes 0 0 0 0 0 0 := rfl
  have hfooter := hbehind (sizeT (footerOffset sampleSizes 0 0 0) + magicOffset) nvmFooterMagic
    (by decide) (by decide)
  obtain ⟨hresult, hconf⟩ := unsteady_loaded hheader hcounts (by decide) hcounts hfooter hheap
    (freshConfiguration sampleSizes)
  obtain ⟨hannounced, hlength⟩ := unsteady_mates hheap headerOnly
  have hdel : Delivers (headerOnlyGarbage.at 0) headerOnlyFlash headerOnly :=
    delivers_stack (g := zeroGarbage) rfl headerOnly_delivered
  rw [loadNvm_delivers hdel]
  intro o
  rw [hconf]
  refine ⟨hresult, hannounced.trans (by decide), List.eq_nil_of_length_eq_zero ?_⟩
  exact hlength.trans (by decide)

end MeshRoofFirmware.NvmRereads
