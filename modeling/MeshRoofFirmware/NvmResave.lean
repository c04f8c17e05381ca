import MeshRoofFirmware.NvmReadBounds
import MeshRoofFirmware.NvmSizeCheck

set_option autoImplicit false

namespace MeshRoofFirmware.NvmResave
open Library.ByteCodec Library.ByteBlock NvmLayout NvsFlash NvmSave NvmLoad NvmRoundTrip
open NvmReadBounds NvmSizeCheck
variable {sz : EntrySizes}

/-- The size that the counts of a blob stand for. -/
def blobTotal (sz : EntrySizes) (blob : Bytes) : ℕ :=
  imageTotal sz (nAuthchansAt blob) (nAdminsAt blob) (nMatesAt blob)

theorem word_stretch {b : Block} {off : ℕ} {w : UInt32} (h : (b.readWord off).value = w)
    (hin : off + 4 ≤ b.bytes.length) (hsmall : b.bytes.length < addressSpace) :
    (Codec.word32 w).bytes = (b.bytes.drop off).take 4 := by
  rw [← slice_inside b hin hsmall, ← h]
  change (Codec.word32 (Codec.word32.symm (b.slice off 4))).bytes = _
  rw [Equiv.apply_symm_apply]

theorem vector_stretch (b : Block) {base w : ℕ} {count : UInt32}
    (hin : base + w * count.toNat ≤ b.bytes.length) (hsmall : b.bytes.length < addressSpace) :
    flatten (readVector b base w count).value.entries =
      (b.bytes.drop base).take (w * count.toNat) := by
  have h := readArray_inside b base w count.toNat 0
    (by rw [Nat.zero_mul, Nat.add_zero, Nat.mul_comm]; exact hin) hsmall
  rw [Nat.zero_mul, Nat.add_zero, Nat.mul_comm count.toNat] at h
  exact h

section Sections
variable {b : Block} (hsmall : b.bytes.length < addressSpace)
  (hlong : exactTotal sz b ≤ b.bytes.length)
  (hmagic : (b.readWord magicOffset).value = nvmHeaderMagic) (hwalk : ExactWalk sz b)
include hsmall hlong hmagic

theorem beforeAuthchans_taken :
    beforeAuthchans (configurationOf sz b) = b.bytes.take authchansOffset := by
  have hhead : authchansOffset ≤ b.bytes.length := by
    simp only [exactTotal, imageTotal] at hlong
    rw [authchansOffset]
    omega
  have hin : 168 ≤ b.bytes.length := hhead
  have hword := word_stretch hmagic (by simp only [magicOffset]; omega) hsmall
  rw [magicOffset, List.drop_zero] at hword
  have hbody : (mainBodyCodec (configurationOf sz b).mainBody).bytes =
      (b.bytes.drop headerSize).take mainBodySize := by
    rw [← slice_inside b hhead hsmall]
    exact congrArg Packed.bytes (Equiv.apply_symm_apply mainBodyCodec _)
  rw [beforeAuthchans, hword, hbody, authchansOffset, List.take_add, headerSize]

theorem beforeAdmins_taken : beforeAdmins (configurationOf sz b) =
    b.bytes.take (adminsOffset sz (nAuthchansOf b).toNat) := by
  have hin : authchansOffset + sz.authchan * (nAuthchansOf b).toNat ≤ b.bytes.length := by
    rw [exactTotal, imageTotal_eq, footerOffset, matesOffset, adminsOffset] at hlong
    omega
  rw [beforeAdmins, beforeAuthchans_taken hsmall hlong hmagic, configurationOf,
    vector_stretch b hin hsmall, adminsOffset, List.take_add]

include hwalk

theorem beforeMates_taken : beforeMates (configurationOf sz b) =
    b.bytes.take (matesOffset sz (nAuthchansOf b).toNat (nAdminsOf b).toNat) := by
  have hin : adminsOffset sz (nAuthchansOf b).toNat + sz.admin * (nAdminsOf b).toNat ≤
      b.bytes.length := by
    rw [exactTotal, imageTotal_eq, footerOffset, matesOffset] at hlong
    omega
  rw [beforeMates, beforeAdmins_taken hsmall hlong hmagic, configurationOf,
    hwalk.admins_eq, vector_stretch b hin hsmall, matesOffset, List.take_add]

theorem beforeFooter_taken : beforeFooter (configurationOf sz b) = b.bytes.take
    (footerOffset sz (nAuthchansOf b).toNat (nAdminsOf b).toNat (nMatesOf b).toNat) := by
  have hin : matesOffset sz (nAuthchansOf b).toNat (nAdminsOf b).toNat +
      sz.mate * (nMatesOf b).toNat ≤ b.bytes.length := by
    rw [exactTotal, imageTotal_eq, footerOffset] at hlong
    omega
  rw [beforeFooter, beforeMates_taken hsmall hlong hmagic hwalk, configurationOf,
    hwalk.mates_eq, vector_stretch b hin hsmall, footerOffset, List.take_add]

theorem image_taken (hfooter : (b.readWord (footerOf sz b + magicOffset)).value = nvmFooterMagic) :
    (configurationOf sz b).image =
      b.bytes.take (exactTotal sz b - 4) ++ (Codec.word32 0).bytes := by
  have htotal : exactTotal sz b - 4 = footerOffset sz (nAuthchansOf b).toNat
      (nAdminsOf b).toNat (nMatesOf b).toNat + 4 := by
    rw [exactTotal, imageTotal_eq, footerSize]
    omega
  rw [hwalk.footer_eq, magicOffset, Nat.add_zero] at hfooter
  have hword := word_stretch hfooter
    (by rw [exactTotal, imageTotal_eq, footerSize] at hlong; omega) hsmall
  rw [Configuration.image, beforeFooter_taken hsmall hlong hmagic hwalk, hword, htotal,
    List.take_add]

end Sections

theorem exactTotal_inside {b : Block} (hsmall : b.bytes.length < addressSpace)
    (h : headerSize + mainBodySize ≤ b.bytes.length) :
    exactTotal sz b = blobTotal sz b.bytes := by
  obtain ⟨ha, hd, hm⟩ := counts_inside hsmall h
  rw [exactTotal, ha, hd, hm, blobTotal]

theorem countEntries_of_counted {c : Configuration sz} (h : c.Counted) : c.countEntries = c := by
  obtain ⟨ha, hd, hm⟩ := h
  rw [Configuration.countEntries, ← ha, ← hd, ← hm]

theorem magics_of_loaded {g : Garbage} {blob : Bytes} {c : Configuration sz}
    (h : (loadBlob g blob c).exit = .loaded) :
    ((⟨blob, g.heap⟩ : Block).readWord magicOffset).value = nvmHeaderMagic ∧
      ((⟨blob, g.heap⟩ : Block).readWord (footerOf sz ⟨blob, g.heap⟩ + magicOffset)).value =
        nvmFooterMagic := by
  rw [loadBlob_exit] at h
  split_ifs at h with hmagic hsize hfooter
  exact ⟨not_not.mp hmagic, not_not.mp hfooter⟩

theorem blobTotal_ge (sz : EntrySizes) (blob : Bytes) : 176 ≤ blobTotal sz blob := by
  simp only [blobTotal, imageTotal, headerSize, mainBodySize, footerSize]
  omega

section Delivered
variable {g : Garbage} {flash : Flash} {blob : Bytes} (hdel : Delivers g flash blob)
  (hlong : blobTotal sz blob ≤ blob.length)
include hlong

omit hdel in
theorem cut_length : (blob.take (blobTotal sz blob - 4) ++ [0, 0, 0, 0]).length =
    blobTotal sz blob := by
  have hge := blobTotal_ge sz blob
  simp only [List.length_append, List.length_take, List.length_cons, List.length_nil]
  omega

include hdel

/-- The image of what was loaded is the delivered blob, cut and with a zero checksum. -/
theorem loaded_image (hfit : blobTotal sz blob ≤ flashTargetSize) {c : Configuration sz}
    (hexit : (loadBlob g blob c).exit = .loaded) :
    (configurationOf sz ⟨blob, g.heap⟩).image =
      blob.take (blobTotal sz blob - 4) ++ [0, 0, 0, 0] := by
  have hsmall := delivers_small hdel
  have hexact : exactTotal sz ⟨blob, g.heap⟩ = blobTotal sz blob :=
    exactTotal_inside (b := ⟨blob, g.heap⟩) hsmall
      ((by decide : 168 ≤ 176).trans ((blobTotal_ge sz blob).trans hlong))
  have hcrc : (Codec.word32 0).bytes = [0, 0, 0, 0] := rfl
  obtain ⟨hmagic, hfooter⟩ := magics_of_loaded hexit
  rw [image_taken (b := ⟨blob, g.heap⟩) hsmall (hexact.trans_le hlong) hmagic
    (exactWalk_of_le sz _ (hexact.trans_le hfit)) hfooter, hexact, hcrc]

theorem loaded_total (hfit : blobTotal sz blob ≤ flashTargetSize) {c : Configuration sz}
    (hexit : (loadBlob g blob c).exit = .loaded) :
    (configurationOf sz ⟨blob, g.heap⟩).total = blobTotal sz blob := by
  rw [← image_length, loaded_image hdel hlong hfit hexit, cut_length hlong]

end Delivered

theorem loaded_delivers {g : Garbage} {f : LoadFaults} {flash : Flash} {m : Configuration sz}
    {blob : Bytes} (hload : (loadNvm g f flash m).result = true)
    (hblob : flash.blobs .meshroof = some blob) :
    Delivers g flash blob ∧ loadNvm g f flash m = loadBlob g blob m := by
  rcases loadNvm_cases g f flash m with ⟨hexit, -, -⟩ | ⟨-, delivered, hdel, hrun⟩
  · exact absurd ((result_iff_loaded _).mp hload) hexit
  · have hsame : delivered = blob := by
      obtain ⟨-, nvmMeta, -, hget⟩ := hdel
      exact Option.some.inj ((getBlob_eq_some.mp hget).1.symm.trans hblob)
    subst hsame
    exact ⟨hdel, hrun⟩

/-- A save right after a load writes the image that was loaded, cut to its exact size and with
a zero checksum, and the next load finds the same configuration. -/
theorem saveNvm_loadNvm (g : Garbage) (f : LoadFaults) (flash : Flash) (m : Configuration sz)
    (blob : Bytes) (hload : (loadNvm g f flash m).result = true)
    (hblob : flash.blobs .meshroof = some blob) (hfit : blobTotal sz blob ≤ flashTargetSize)
    (hlong : blobTotal sz blob ≤ blob.length) :
    let loaded := (loadNvm g f flash m).configuration
    let saved := saveNvm .none loaded
    let resaved := flash.after saved.calls
    let image := blob.take (blobTotal sz blob - 4) ++ [0, 0, 0, 0]
    saved.result = some true ∧ saved.configuration = loaded ∧
      resaved.blobs .meshroof = some image ∧ image.length = blobTotal sz blob ∧
      resaved.blobs .nvmMeta = some (metaBytes (blobTotal sz blob)) ∧
      ∀ g' m', (loadNvm g' .none resaved m').result = true ∧
        (loadNvm g' .none resaved m').configuration = loaded := by
  intro loaded saved resaved image
  obtain ⟨hdel, hrun⟩ := loaded_delivers hload hblob
  rw [hrun, result_iff_loaded] at hload
  have hloaded : loaded = configurationOf sz ⟨blob, g.heap⟩ :=
    (congrArg LoadOutcome.configuration hrun).trans (loadBlob_loaded hload m)
  have himage : loaded.image = image := hloaded ▸ loaded_image hdel hlong hfit hload
  have htotal : loaded.total = blobTotal sz blob := hloaded ▸ loaded_total hdel hlong hfit hload
  have hcounted : loaded.countEntries = loaded :=
    hloaded ▸ countEntries_of_counted (configurationOf_counted sz _)
  have hlt : loaded.total < addressSpace := by
    rw [htotal]
    exact lt_of_le_of_lt hfit (by decide)
  obtain ⟨-, hmeta, hstored⟩ := saveNvm_stores hlt flash
  rw [hcounted, himage] at hstored
  rw [htotal] at hmeta
  have hsaved : saved.result = some true := by
    simp only [saved, saveNvm_none hlt, saveDone]
  have hkept : saved.configuration = loaded := (saveNvm_configuration _ _).trans hcounted
  have hresaved : resaved = flash.after (saveNvm .none loaded).calls := rfl
  rw [hresaved]
  refine ⟨hsaved, hkept, hstored, cut_length hlong, hmeta, fun g' m' => ?_⟩
  have hagain := load_stored (save_stored hlt flash)
    (by rw [countEntries_total, htotal]; exact hfit) (countEntries_total _).le g' m'
  rw [hcounted] at hagain
  exact hagain

theorem one_channel : 1 < addressSpace := by decide

def taggedBlob : Bytes :=
  beforeFooter (channels 1 one_channel).countEntries ++ (Codec.word32 nvmFooterMagic).bytes ++
    [1, 2, 3, 4] ++ [255]

def taggedFlash : Flash :=
  ⟨true, fun | .nvmMeta => some (metaBytes 229) | .meshroof => some taggedBlob⟩

theorem saveNvm_loadNvm_tagged :
    ((taggedFlash.after (saveNvm .none (loadNvm zeroGarbage .none taggedFlash
      (freshConfiguration sampleSizes)).configuration).calls).blobs .meshroof) =
        some (taggedBlob.take 220 ++ [0, 0, 0, 0]) :=
  (saveNvm_loadNvm zeroGarbage .none taggedFlash (freshConfiguration sampleSizes) taggedBlob
    (by decide +kernel) rfl (by decide +kernel) (by decide +kernel)).2.2.1

end MeshRoofFirmware.NvmResave
