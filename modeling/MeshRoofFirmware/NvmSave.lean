import MeshRoofFirmware.NvmLayout
import MeshRoofFirmware.NvsFlash

set_option autoImplicit false

namespace MeshRoofFirmware.NvmSave
open Library.ByteCodec Library.ByteBlock Library.KeyedStore NvmLayout NvsFlash
variable {sz : EntrySizes}

structure SaveFaults where
  malloc : Bool
  nvsOpen : Bool
  setMeta : Bool
  setBlob : Bool
  commit : Bool
  deriving DecidableEq

def SaveFaults.none : SaveFaults := ⟨false, false, false, false, false⟩

/-- `result` is `none` when a copy ran past the allocated block. -/
structure SaveOutcome (sz : EntrySizes) where
  result : Option Bool
  configuration : Configuration sz
  calls : List Call

def imageSize (c : Configuration sz) : ℕ :=
  sizeT (imageTotal sz c.mainBody.nAuthchans.toNat c.mainBody.nAdmins.toNat
    c.mainBody.nMates.toNat)

def fillImage (c : Configuration sz) : Option Bytes := do
  let header := 0
  let mainBody := header + headerSize
  let authchans := mainBody + mainBodySize
  let admins := sizeT (authchans + sizeT (sz.authchan * c.mainBody.nAuthchans.toNat))
  let mates := sizeT (admins + sizeT (sz.admin * c.mainBody.nAdmins.toNat))
  let footer := sizeT (mates + sizeT (sz.mate * c.mainBody.nMates.toNat))
  let buf := List.replicate (imageSize c) 0
  let buf ← memcpy buf (header + magicOffset) (Codec.word32 nvmHeaderMagic).bytes
  let buf ← memcpy buf mainBody (mainBodyCodec c.mainBody).bytes
  let buf ← memcpyArray authchans 0 c.authchans.entries buf
  let buf ← memcpyArray admins 0 c.admins.entries buf
  let buf ← memcpyArray mates 0 c.mates.entries buf
  let buf ← memcpy buf (footer + magicOffset) (Codec.word32 nvmFooterMagic).bytes
  memcpy buf (sizeT (footer + crc32Offset)) (Codec.word32 0).bytes

/-- The label `done`. -/
def saveDone (c : Configuration sz) (calls : List Call) (buf : Option Buffer) (handle : Handle)
    (result : Bool) : SaveOutcome sz :=
  ⟨some result, c, calls ++ (buf.toList.map Call.free) ++ [.nvsClose handle]⟩

def metaBytes (size : ℕ) : Bytes := (Codec.word32 (UInt32.ofNat size)).bytes

def saveNvm (f : SaveFaults) (old : Configuration sz) : SaveOutcome sz :=
  let c := old.countEntries
  if f.malloc then saveDone c [] none .uninitialised false
  else match fillImage c with
  | none => ⟨none, c, [.malloc .image]⟩
  | some buf =>
    if f.nvsOpen then saveDone c [.malloc .image] (some .image) .uninitialised false
    else if f.setMeta then
      saveDone c [.malloc .image, .nvsOpen .readwrite] (some .image) .opened false
    else if f.setBlob then
      saveDone c [.malloc .image, .nvsOpen .readwrite,
        .nvsSetBlob .nvmMeta (metaBytes (imageSize c))] (some .image) .opened false
    else if f.commit then
      saveDone c [.malloc .image, .nvsOpen .readwrite,
        .nvsSetBlob .nvmMeta (metaBytes (imageSize c)), .nvsSetBlob .meshroof buf]
        (some .image) .opened false
    else
      saveDone c [.malloc .image, .nvsOpen .readwrite,
        .nvsSetBlob .nvmMeta (metaBytes (imageSize c)), .nvsSetBlob .meshroof buf, .nvsCommit]
        (some .image) .opened true

theorem imageSize_eq {c : Configuration sz} (h : c.Counted) : imageSize c = sizeT c.total := by
  obtain ⟨ha, hd, hm⟩ := h
  rw [imageSize, ha, hd, hm]
  simp only [EntryVector.size_toNat]
  rfl

theorem fillImage_of_fits {c : Configuration sz} (h : c.Counted) (hfit : c.total < addressSpace) :
    fillImage c = some c.image := by
  have hsize : imageSize c = c.total := (imageSize_eq h).trans (sizeT_of_lt hfit)
  obtain ⟨hadmins, hmates, hfooter⟩ := walk_exact hfit
  obtain ⟨ha, hd, hm⟩ := h
  have hC : c.image.length ≤ c.total := (image_length c).le
  have hK : (beforeFooter c ++ (Codec.word32 nvmFooterMagic).bytes).length ≤ c.total :=
    length_le_of_append_le hC
  have hF : (beforeFooter c).length ≤ c.total := length_le_of_append_le hK
  have hM : (beforeMates c).length ≤ c.total := length_le_of_append_le hF
  have hD : (beforeAdmins c).length ≤ c.total := length_le_of_append_le hM
  have hA : (beforeAuthchans c).length ≤ c.total := length_le_of_append_le hD
  have hH : ((Codec.word32 nvmHeaderMagic).bytes).length ≤ c.total := length_le_of_append_le hA
  have hcrc : footerOffset sz c.authchans.entries.length c.admins.entries.length
      c.mates.entries.length + crc32Offset < addressSpace := by
    rw [List.length_append, beforeFooter_length, Packed.width] at hK
    exact hK.trans_lt hfit
  have h₁ := memcpy_filled c.total magicOffset []
    (Codec.word32 nvmHeaderMagic).bytes rfl hH
  have h₂ := memcpy_filled c.total headerSize
    (Codec.word32 nvmHeaderMagic).bytes (mainBodyCodec c.mainBody).bytes
    (Packed.width _).symm hA
  have h₃ := memcpyArray_filled (beforeAuthchans c).length c.authchans.entries 0
    (beforeAuthchans c) (by simp) hD hfit
  have h₄ := memcpyArray_filled (beforeAdmins c).length c.admins.entries 0
    (beforeAdmins c) (by simp) hM hfit
  have h₅ := memcpyArray_filled (beforeMates c).length c.mates.entries 0
    (beforeMates c) (by simp) hF hfit
  have h₆ := memcpy_filled c.total ((beforeFooter c).length + magicOffset) (beforeFooter c)
    (Codec.word32 nvmFooterMagic).bytes rfl hK
  have h₇ := memcpy_filled c.total ((beforeFooter c).length + crc32Offset)
    (beforeFooter c ++ (Codec.word32 nvmFooterMagic).bytes) (Codec.word32 0).bytes
    (by rw [List.length_append, Packed.width]; rfl) hC
  have hfull : filled c.total c.image = c.image := by
    rw [← image_length c]
    exact filled_full _
  have hauth : headerSize + mainBodySize = authchansOffset := rfl
  unfold fillImage
  simp only [hsize, ha, hd, hm, EntryVector.size_toNat, hauth, hadmins, hmates, hfooter,
    sizeT_of_lt hcrc, Nat.zero_add, ← filled_nil, h₁, Option.bind_eq_bind, Option.bind_some]
  rw [List.nil_append, h₂, Option.bind_some]
  rw [beforeAuthchans_length] at h₃
  rw [beforeAdmins_length] at h₄
  rw [beforeMates_length] at h₅
  rw [beforeFooter_length] at h₆ h₇
  change (memcpyArray authchansOffset 0 c.authchans.entries
    (filled c.total (beforeAuthchans c))).bind _ = _
  rw [h₃, Option.bind_some]
  change (memcpyArray _ 0 c.admins.entries (filled c.total (beforeAdmins c))).bind _ = _
  rw [h₄, Option.bind_some]
  change (memcpyArray _ 0 c.mates.entries (filled c.total (beforeMates c))).bind _ = _
  rw [h₅, Option.bind_some]
  change (memcpy (filled c.total (beforeFooter c)) _ _).bind _ = _
  rw [h₆, Option.bind_some, h₇]
  exact congrArg some hfull

/-- An image larger than the address space never fits the block that was allocated. -/
theorem fits_of_fillImage {c : Configuration sz} (h : c.Counted) {buf : Bytes}
    (hfill : fillImage c = some buf) : c.total < addressSpace := by
  have hsize : imageSize c = sizeT c.total := imageSize_eq h
  have hlt := sizeT_lt c.total
  obtain ⟨ha, hd, hm⟩ := h
  have hauth : headerSize + mainBodySize = authchansOffset := rfl
  unfold fillImage at hfill
  simp only [hsize, ha, hd, hm, EntryVector.size_toNat, hauth, Nat.zero_add,
    Option.bind_eq_bind, Option.bind_eq_some_iff] at hfill
  obtain ⟨b₁, h₁, b₂, h₂, b₃, h₃, b₄, h₄, b₅, h₅, b₆, h₆, h₇⟩ := hfill
  have n₁ := memcpy_length h₁
  have n₂ := memcpy_length h₂
  have n₃ := memcpyArray_length _ _ _ _ _ h₃
  have n₄ := memcpyArray_length _ _ _ _ _ h₄
  have n₅ := memcpyArray_length _ _ _ _ _ h₅
  have n₆ := memcpy_length h₆
  rw [List.length_replicate] at n₁
  have i₂ := memcpy_inside h₂
  rw [Packed.width, hauth] at i₂
  -- each loop starts inside the block, so its address did not wrap and it ends inside too
  have i₃ := memcpyArray_inside _ _ _ _ _ (by omega) (by omega) h₃
  rw [Nat.mul_comm c.authchans.entries.length] at i₃
  have hadmins : sizeT (authchansOffset + sizeT (sz.authchan * c.authchans.entries.length)) =
      authchansOffset + sz.authchan * c.authchans.entries.length := sizeT_walk (by omega)
  rw [hadmins] at h₄ h₅ h₆ h₇
  have i₄ := memcpyArray_inside _ _ _ _ _ (by omega) (by omega) h₄
  rw [Nat.mul_comm c.admins.entries.length] at i₄
  have hmates : sizeT (authchansOffset + sz.authchan * c.authchans.entries.length +
      sizeT (sz.admin * c.admins.entries.length)) = authchansOffset +
        sz.authchan * c.authchans.entries.length + sz.admin * c.admins.entries.length :=
    sizeT_walk (by omega)
  rw [hmates] at h₅ h₆ h₇
  have i₅ := memcpyArray_inside _ _ _ _ _ (by omega) (by omega) h₅
  rw [Nat.mul_comm c.mates.entries.length] at i₅
  have hfooter : sizeT (authchansOffset + sz.authchan * c.authchans.entries.length +
      sz.admin * c.admins.entries.length + sizeT (sz.mate * c.mates.entries.length)) =
        authchansOffset + sz.authchan * c.authchans.entries.length +
          sz.admin * c.admins.entries.length + sz.mate * c.mates.entries.length :=
    sizeT_walk (by omega)
  rw [hfooter] at h₆ h₇
  have i₆ := memcpy_inside h₆
  rw [Packed.width] at i₆
  have hcrc := memcpy_inside h₇
  rw [Packed.width, sizeT_of_lt (by simp only [magicOffset, crc32Offset] at i₆ ⊢; omega)] at hcrc
  simp only [Configuration.total, imageTotal, footerSize, hauth, crc32Offset] at hcrc ⊢
  omega

theorem fillImage_overrun {c : Configuration sz} (h : c.Counted)
    (hbig : addressSpace ≤ c.total) : fillImage c = none := by
  cases hf : fillImage c with
  | none => rfl
  | some buf => exact absurd (fits_of_fillImage h hf) (Nat.not_lt.mpr hbig)

theorem saveNvm_configuration (f : SaveFaults) (c : Configuration sz) :
    (saveNvm f c).configuration = c.countEntries := by
  cases hf : fillImage c.countEntries with
  | none =>
    simp only [saveNvm, hf]
    split_ifs <;> rfl
  | some buf =>
    simp only [saveNvm, hf]
    split_ifs <;> rfl

theorem saveNvm_true {f : SaveFaults} {c : Configuration sz}
    (h : (saveNvm f c).result = some true) : f = .none ∧ c.total < addressSpace := by
  obtain ⟨malloc, nvsOpen, setMeta, setBlob, commit⟩ := f
  unfold saveNvm at h
  cases hf : fillImage c.countEntries with
  | none => cases malloc <;> simp [hf, saveDone] at h
  | some buf =>
    have hfit := fits_of_fillImage (countEntries_counted c) hf
    refine ⟨?_, hfit⟩
    cases malloc <;> cases nvsOpen <;> cases setMeta <;> cases setBlob <;> cases commit <;>
      first | rfl | simp [hf, saveDone] at h

/-- The inputs on which a save returns and reports a failure. -/
def SaveFails (f : SaveFaults) (c : Configuration sz) : Prop :=
  f.malloc = true ∨ (f ≠ .none ∧ c.total < addressSpace)

theorem saveNvm_false_iff (f : SaveFaults) (c : Configuration sz) :
    (saveNvm f c).result = some false ↔ SaveFails f c := by
  obtain ⟨malloc, nvsOpen, setMeta, setBlob, commit⟩ := f
  unfold saveNvm SaveFails
  cases malloc with
  | true => exact iff_of_true rfl (Or.inl rfl)
  | false =>
    by_cases hfit : c.total < addressSpace
    · have hfill := fillImage_of_fits (countEntries_counted c) (c := c.countEntries) hfit
      simp only [hfill, hfit]
      cases nvsOpen <;> cases setMeta <;> cases setBlob <;> cases commit <;>
        simp [saveDone, SaveFaults.none]
    · have hfill := fillImage_overrun (countEntries_counted c) (Nat.not_lt.mp hfit)
      simp only [hfill, hfit]
      simp

theorem saveNvm_none {c : Configuration sz} (hfit : c.total < addressSpace) :
    saveNvm .none c = saveDone c.countEntries [.malloc .image, .nvsOpen .readwrite,
      .nvsSetBlob .nvmMeta (metaBytes c.total), .nvsSetBlob .meshroof c.countEntries.image,
      .nvsCommit] (some .image) .opened true := by
  have hfill := fillImage_of_fits (countEntries_counted c) (c := c.countEntries) hfit
  have hsize : imageSize c.countEntries = c.total :=
    (imageSize_eq (countEntries_counted c)).trans (sizeT_of_lt hfit)
  simp only [saveNvm, SaveFaults.none, hfill, hsize, Bool.false_eq_true, ↓reduceIte]

def metaWrite (c : Configuration sz) : Write NvsKey Bytes := ⟨.nvmMeta, metaBytes c.total⟩

def imageWrite (c : Configuration sz) : Write NvsKey Bytes := ⟨.meshroof, c.countEntries.image⟩

theorem saveNvm_writes (f : SaveFaults) {c : Configuration sz} (hfit : c.total < addressSpace) :
    (saveNvm f c).calls.filterMap Call.write? =
      if f.malloc || f.nvsOpen || f.setMeta then [] else
        if f.setBlob then [metaWrite c] else [metaWrite c, imageWrite c] := by
  have hfill := fillImage_of_fits (countEntries_counted c) (c := c.countEntries) hfit
  have hsize : imageSize c.countEntries = c.total :=
    (imageSize_eq (countEntries_counted c)).trans (sizeT_of_lt hfit)
  obtain ⟨malloc, nvsOpen, setMeta, setBlob, commit⟩ := f
  simp only [saveNvm, hfill, hsize]
  cases malloc <;> cases nvsOpen <;> cases setMeta <;> cases setBlob <;> cases commit <;> rfl

theorem saveNvm_writes_begin (f : SaveFaults) {c : Configuration sz}
    (hfit : c.total < addressSpace) :
    (saveNvm f c).calls.filterMap Call.write? <+: [metaWrite c, imageWrite c] := by
  rw [saveNvm_writes f hfit]
  split_ifs
  · exact List.nil_prefix
  · exact ⟨[imageWrite c], rfl⟩
  · exact List.prefix_rfl

theorem saveNvm_stores {c : Configuration sz} (hfit : c.total < addressSpace) (flash : Flash) :
    (flash.after (saveNvm .none c).calls).created = true ∧
      (flash.after (saveNvm .none c).calls).blobs .nvmMeta = some (metaBytes c.total) ∧
      (flash.after (saveNvm .none c).calls).blobs .meshroof = some c.countEntries.image := by
  rw [saveNvm_none hfit]
  exact ⟨rfl, rfl, rfl⟩

end MeshRoofFirmware.NvmSave
