import MeshRoofFirmware.NvmSave
import MeshRoofFirmware.NvmLoad

set_option autoImplicit false

namespace MeshRoofFirmware.NvmRoundTrip
open Library.ByteCodec Library.ByteBlock NvmLayout NvsFlash NvmSave NvmLoad
variable {sz : EntrySizes}

section ImageReads
variable {c : Configuration sz} {b : Block} (hb : c.image <+: b.bytes)
  (hsmall : b.bytes.length < addressSpace)
include hb hsmall

theorem read_headerMagic : (b.readWord magicOffset).value = nvmHeaderMagic :=
  readWord_value b [] _ ((List.prefix_append _ _).trans ((mainBody_leads c).trans hb)) rfl hsmall

theorem read_nAuthchans :
    (b.readWord (headerSize + nAuthchansOffset)).value = c.mainBody.nAuthchans := by
  have h := (counts_leads c).trans hb
  rw [List.append_assoc, List.append_assoc] at h
  refine readWord_value b (beforeCounts c) _ ?_ (beforeCounts_length c).symm hsmall
  rw [← List.append_assoc] at h
  exact (List.prefix_append _ _).trans h

theorem read_nAdmins :
    (b.readWord (headerSize + nAdminsOffset)).value = c.mainBody.nAdmins := by
  have h := (counts_leads c).trans hb
  refine readWord_value b _ _ ((List.prefix_append _ _).trans h) ?_ hsmall
  rw [List.length_append, beforeCounts_length, Packed.width]
  rfl

theorem read_nMates :
    (b.readWord (headerSize + nMatesOffset)).value = c.mainBody.nMates := by
  refine readWord_value b _ _ ((counts_leads c).trans hb) ?_ hsmall
  rw [List.length_append, List.length_append, beforeCounts_length, Packed.width, Packed.width]
  rfl

theorem read_mainBody : b.slice headerSize mainBodySize = mainBodyCodec c.mainBody :=
  slice_packed b _ _ ((mainBody_leads c).trans hb) (Packed.width _).symm hsmall

theorem read_footerMagic : (b.readWord (footerOffset sz c.authchans.entries.length
    c.admins.entries.length c.mates.entries.length)).value = nvmFooterMagic :=
  readWord_value b _ _ ((beforeFooter_leads c).trans hb) (beforeFooter_length c).symm hsmall

theorem read_authchans : (b.readArray authchansOffset sz.authchan 0
    c.authchans.entries.length).value = c.authchans.entries :=
  readArray_packed b _ _ 0 _ ((beforeAuthchans_leads c).trans hb)
    (by rw [beforeAuthchans_length]; simp) hsmall

theorem read_admins : (b.readArray (adminsOffset sz c.authchans.entries.length) sz.admin 0
    c.admins.entries.length).value = c.admins.entries :=
  readArray_packed b _ _ 0 _ ((beforeAdmins_leads c).trans hb)
    (by rw [beforeAdmins_length]; simp) hsmall

theorem read_mates : (b.readArray (matesOffset sz c.authchans.entries.length
    c.admins.entries.length) sz.mate 0 c.mates.entries.length).value = c.mates.entries :=
  readArray_packed b _ _ 0 _ ((beforeMates_leads c).trans hb)
    (by rw [beforeMates_length]; simp) hsmall

end ImageReads

theorem readVector_value {b : Block} {base w : ℕ} {v : EntryVector w}
    (h : (b.readArray base w 0 v.entries.length).value = v.entries) :
    (readVector b base w v.size).value = v := by
  apply EntryVector.ext_entries
  change (b.readArray base w 0 v.size.toNat).value = v.entries
  rw [EntryVector.size_toNat, h]

section ImageWalk
variable {c : Configuration sz} (hc : c.Counted) (hfit : c.total < addressSpace) {b : Block}
  (hb : c.image <+: b.bytes) (hsmall : b.bytes.length < addressSpace)
include hc hb hsmall

theorem nAuthchansOf_image : nAuthchansOf b = c.authchans.size :=
  (read_nAuthchans hb hsmall).trans hc.1

theorem nAdminsOf_image : nAdminsOf b = c.admins.size :=
  (read_nAdmins hb hsmall).trans hc.2.1

theorem nMatesOf_image : nMatesOf b = c.mates.size :=
  (read_nMates hb hsmall).trans hc.2.2

include hfit

theorem imageSizeOf_image : imageSizeOf sz b = c.total := by
  rw [imageSizeOf, nAuthchansOf_image hc hb hsmall, nAdminsOf_image hc hb hsmall,
    nMatesOf_image hc hb hsmall]
  simp only [EntryVector.size_toNat]
  exact sizeT_of_lt hfit

theorem adminsOf_image : adminsOf sz b = adminsOffset sz c.authchans.entries.length := by
  rw [adminsOf, nAuthchansOf_image hc hb hsmall, EntryVector.size_toNat]
  exact (walk_exact hfit).1

theorem matesOf_image :
    matesOf sz b = matesOffset sz c.authchans.entries.length c.admins.entries.length := by
  rw [matesOf, adminsOf_image hc hfit hb hsmall, nAdminsOf_image hc hb hsmall,
    EntryVector.size_toNat]
  exact (walk_exact hfit).2.1

theorem footerOf_image : footerOf sz b = footerOffset sz c.authchans.entries.length
    c.admins.entries.length c.mates.entries.length := by
  rw [footerOf, matesOf_image hc hfit hb hsmall, nMatesOf_image hc hb hsmall,
    EntryVector.size_toNat]
  exact (walk_exact hfit).2.2

theorem configurationOf_image : configurationOf sz b = c := by
  have hbody : mainBodyCodec.symm (b.slice headerSize mainBodySize) = c.mainBody := by
    rw [read_mainBody hb hsmall, Equiv.symm_apply_apply]
  have hA := readVector_value (read_authchans hb hsmall)
  have hD := readVector_value (read_admins hb hsmall)
  have hM := readVector_value (read_mates hb hsmall)
  rw [configurationOf, hbody, adminsOf_image hc hfit hb hsmall, matesOf_image hc hfit hb hsmall,
    nAuthchansOf_image hc hb hsmall, nAdminsOf_image hc hb hsmall, nMatesOf_image hc hb hsmall,
    hA, hD, hM]

end ImageWalk

/-- A block that starts with an image is read back as the configuration it encodes. -/
theorem parse_image {c : Configuration sz} (hc : c.Counted) (hfit : c.total ≤ flashTargetSize)
    {b : Block} (hb : c.image <+: b.bytes) (hsmall : b.bytes.length < addressSpace) :
    (parseImage sz b).value = .ok c := by
  have hlt : c.total < addressSpace := lt_of_le_of_lt hfit (by decide)
  have hmagic := read_headerMagic hb hsmall
  have hsize := imageSizeOf_image hc hlt hb hsmall
  have hfooter : (b.readWord (footerOf sz b + magicOffset)).value = nvmFooterMagic := by
    rw [footerOf_image hc hlt hb hsmall]
    exact read_footerMagic hb hsmall
  rw [parseImage_eq, if_neg (not_not.mpr hmagic), if_neg (by omega), if_neg (not_not.mpr hfooter),
    configurationOf_image hc hlt hb hsmall]

theorem parse_image_tooBig {c : Configuration sz} (hc : c.Counted)
    (hbig : flashTargetSize < c.total) (hlt : c.total < addressSpace) {b : Block}
    (hb : c.image <+: b.bytes) (hsmall : b.bytes.length < addressSpace) :
    (parseImage sz b).value = .error .tooBigSize := by
  have hmagic := read_headerMagic hb hsmall
  have hsize := imageSizeOf_image hc hlt hb hsmall
  rw [parseImage_eq, if_neg (not_not.mpr hmagic), if_pos (by omega)]

/-- A namespace that holds the image of a counted configuration beside some size. -/
structure Stored (flash : Flash) (size : ℕ) (c : Configuration sz) : Prop where
  created : flash.created = true
  nvmMeta : flash.blobs .nvmMeta = some (metaBytes size)
  meshroof : flash.blobs .meshroof = some c.image
  counted : c.Counted
  size_lt : size < addressSpace

theorem save_stored {c : Configuration sz} (hfit : c.total < addressSpace) (flash : Flash) :
    Stored (flash.after (saveNvm .none c).calls) c.total c.countEntries :=
  ⟨(saveNvm_stores hfit flash).1, (saveNvm_stores hfit flash).2.1, (saveNvm_stores hfit flash).2.2,
    countEntries_counted c, hfit⟩

theorem fresh_stored (flash : Flash) :
    Stored (flash.after (saveNvm .none (freshConfiguration sz)).calls)
      (freshConfiguration sz).total (freshConfiguration sz) :=
  save_stored (by rw [fresh_total]; decide) flash

theorem Stored.delivers_iff {flash : Flash} {size : ℕ} {c : Configuration sz}
    (h : Stored flash size c) (g : Garbage) (blob : Bytes) :
    Delivers g flash blob ↔ blob = c.image ∧ c.total ≤ size := by
  have hmeta : flash.getBlob .nvmMeta nvmMetaSize = some (metaBytes size) :=
    getBlob_eq_some.mpr ⟨h.nvmMeta, (Packed.width _).le⟩
  have hsize : metaSize g (metaBytes size) = size := metaSize_word g size h.size_lt
  constructor
  · rintro ⟨-, nvmMeta, hm, hb⟩
    rw [hmeta] at hm
    cases hm
    rw [hsize, getBlob_eq_some, h.meshroof] at hb
    obtain ⟨himage, hle⟩ := hb
    cases himage
    exact ⟨rfl, image_length c ▸ hle⟩
  · rintro ⟨rfl, hle⟩
    refine ⟨h.created, _, hmeta, ?_⟩
    rw [hsize, getBlob_eq_some]
    exact ⟨h.meshroof, image_length c ▸ hle⟩

theorem result_of_ok {g : Garbage} {blob : Bytes} {c loaded : Configuration sz}
    (h : (parseImage sz ⟨blob, g.heap⟩).value = .ok loaded) :
    (loadBlob g blob c).result = true ∧ (loadBlob g blob c).configuration = loaded := by
  rw [loadBlob, loadParsed, h]
  exact ⟨rfl, rfl⟩

theorem result_of_error {g : Garbage} {blob : Bytes} {c : Configuration sz} {error : ImageError}
    (h : (parseImage sz ⟨blob, g.heap⟩).value = .error error) :
    (loadBlob g blob c).result = false ∧ (loadBlob g blob c).configuration = c := by
  rw [loadBlob, loadParsed, h]
  exact ⟨rfl, rfl⟩

theorem load_stored {flash : Flash} {size : ℕ} {c : Configuration sz} (h : Stored flash size c)
    (hfit : c.total ≤ flashTargetSize) (hsize : c.total ≤ size) (g : Garbage)
    (m : Configuration sz) : (loadNvm g .none flash m).result = true ∧
      (loadNvm g .none flash m).configuration = c := by
  have hsmall : c.image.length < addressSpace := by
    rw [image_length]
    exact lt_of_le_of_lt hfit (by decide)
  rw [loadNvm_delivers ((h.delivers_iff g _).mpr ⟨rfl, hsize⟩)]
  exact result_of_ok (parse_image h.counted hfit List.prefix_rfl hsmall)

theorem load_stored_tooBig {flash : Flash} {size : ℕ} {c : Configuration sz}
    (h : Stored flash size c) (hbig : flashTargetSize < c.total) (g : Garbage)
    (hsize : c.total ≤ size) (m : Configuration sz) :
    (loadNvm g .none flash m).result = false := by
  have hlt : c.total < addressSpace := lt_of_le_of_lt hsize h.size_lt
  have hsmall : c.image.length < addressSpace := by rwa [image_length]
  rw [loadNvm_delivers ((h.delivers_iff g _).mpr ⟨rfl, hsize⟩)]
  exact (result_of_error (parse_image_tooBig h.counted hbig hlt List.prefix_rfl hsmall)).1

theorem load_stored_short {flash : Flash} {size : ℕ} {c : Configuration sz}
    (h : Stored flash size c) (hsize : size < c.total) (g : Garbage) (m : Configuration sz) :
    (loadNvm g .none flash m).result = false := by
  rcases loadNvm_cases g .none flash m with ⟨hexit, -, -⟩ | ⟨-, blob, hdel, -⟩
  · rw [← Bool.not_eq_true, result_iff_loaded]
    exact hexit
  · have hle := ((h.delivers_iff g blob).mp hdel).2
    omega

/-- Decoding undoes encoding for every image within the target size, whatever the loading
object held before. -/
theorem loadNvm_saveNvm (c : Configuration sz) (hfit : c.total ≤ flashTargetSize) (flash : Flash)
    (g : Garbage) (m : Configuration sz) :
    let saved := saveNvm .none c
    let loaded := loadNvm g .none (flash.after saved.calls) m
    saved.result = some true ∧ loaded.result = true ∧
      loaded.configuration.authchans.entries = c.authchans.entries ∧
      loaded.configuration.admins.entries = c.admins.entries ∧
      loaded.configuration.mates.entries = c.mates.entries ∧
      (∀ f, loaded.configuration.mainBody.field f = c.mainBody.field f) ∧
      loaded.configuration.mainBody.nAuthchans.toNat = c.authchans.entries.length ∧
      loaded.configuration.mainBody.nAdmins.toNat = c.admins.entries.length ∧
      loaded.configuration.mainBody.nMates.toNat = c.mates.entries.length := by
  intro saved loaded
  have hlt : c.total < addressSpace := lt_of_le_of_lt hfit (by decide)
  have hsaved : saved.result = some true := by
    simp only [saved, saveNvm_none hlt, saveDone]
  obtain ⟨hresult, hconf⟩ := load_stored (save_stored hlt flash) hfit le_rfl g m
  rw [show loaded.configuration = c.countEntries from hconf]
  exact ⟨hsaved, hresult, rfl, rfl, rfl, countEntries_field c, c.authchans.size_toNat,
    c.admins.size_toNat, c.mates.size_toNat⟩

def channels (n : ℕ) (h : n < addressSpace) : Configuration sampleSizes :=
  { freshConfiguration sampleSizes with
    authchans := ⟨List.replicate n (.zero sampleSizes.authchan), by rwa [List.length_replicate]⟩ }

theorem channels_total (n : ℕ) (h : n < addressSpace) : (channels n h).total = 176 + 48 * n := by
  simp only [Configuration.total, imageTotal, channels, List.length_replicate, freshConfiguration,
    EntryVector.empty, List.length_nil, sampleSizes, headerSize, mainBodySize, footerSize]
  omega

def blankFlash : Flash := ⟨false, fun _ => none⟩

def zeroGarbage : Garbage := ⟨.zero 4, fun _ => 0⟩

theorem loadNvm_saveNvm_channels :
    (loadNvm zeroGarbage .none (blankFlash.after (saveNvm .none (channels 3 (by decide))).calls)
      (freshConfiguration sampleSizes)).configuration.authchans.entries =
        (channels 3 (by decide)).authchans.entries :=
  (loadNvm_saveNvm (channels 3 (by decide)) (by rw [channels_total]; decide) blankFlash zeroGarbage
    (freshConfiguration sampleSizes)).2.2.1

/-- Every save that reports success can be loaded at the next boot. `accepts` are the blob
sizes `nvs_set_blob` takes. -/
def SavedLoads (accepts : ℕ → Prop) (c : Configuration sz) : Prop :=
  ∀ (f : SaveFaults) (flash : Flash) (g : Garbage) (m : Configuration sz),
    (f.setBlob = false → accepts (imageSize c.countEntries)) →
      (saveNvm f c).result = some true →
        (loadNvm g .none (flash.after (saveNvm f c).calls) m).result = true

/-- The encoder has no limit of its own: beyond the limit of the decoder a save still
succeeds and is then unreadable. -/
theorem savedLoads_iff (accepts : ℕ → Prop) (c : Configuration sz) :
    SavedLoads accepts c ↔
      c.total ≤ flashTargetSize ∨ addressSpace ≤ c.total ∨ ¬ accepts c.total := by
  constructor
  · intro h
    by_contra hne
    simp only [not_or, not_le, not_not] at hne
    obtain ⟨hbig, hlt, haccepts⟩ := hne
    have hsize : imageSize c.countEntries = c.total :=
      (imageSize_eq (countEntries_counted c)).trans (sizeT_of_lt hlt)
    have hsaved : (saveNvm .none c).result = some true := by
      simp only [saveNvm_none hlt, saveDone]
    have hload := h .none blankFlash zeroGarbage c (fun _ => hsize ▸ haccepts) hsaved
    have hno := load_stored_tooBig (save_stored hlt blankFlash) hbig zeroGarbage le_rfl c
    rw [hno] at hload
    cases hload
  · intro h f flash g m haccepts hsaved
    obtain ⟨rfl, hlt⟩ := saveNvm_true hsaved
    have hsize : imageSize c.countEntries = c.total :=
      (imageSize_eq (countEntries_counted c)).trans (sizeT_of_lt hlt)
    rcases h with hfit | hbig | hno
    · exact (load_stored (save_stored hlt flash) hfit le_rfl g m).1
    · omega
    · exact absurd (hsize ▸ haccepts rfl) hno

/-- 168 channel entries fill 8240 bytes: the save succeeds, the next boot rejects it. -/
theorem saved_not_loaded :
    (saveNvm .none (channels 168 (by decide))).result = some true ∧
      (loadNvm zeroGarbage .none (blankFlash.after (saveNvm .none (channels 168 (by decide))).calls)
        (freshConfiguration sampleSizes)).result = false := by
  have htotal : (channels 168 (by decide)).total = 8240 := by rw [channels_total]
  have hlt : (channels 168 (by decide)).total < addressSpace := by rw [htotal]; decide
  refine ⟨by simp only [saveNvm_none hlt, saveDone], ?_⟩
  have hbig : flashTargetSize < (channels 168 (by decide)).countEntries.total := by
    rw [countEntries_total, htotal]
    decide
  exact load_stored_tooBig (save_stored hlt blankFlash) hbig zeroGarbage
    (countEntries_total _).le _

end MeshRoofFirmware.NvmRoundTrip
