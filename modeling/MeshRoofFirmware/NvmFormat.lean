import MeshRoofFirmware.NvmResave

set_option autoImplicit false

namespace MeshRoofFirmware.NvmFormat
open Library.ByteCodec Library.ByteBlock NvmLayout NvsFlash NvmLoad NvmRoundTrip NvmReadBounds
open NvmSizeCheck NvmResave NvmSave
variable {sz : EntrySizes}

/-- The image without its checksum. -/
def content (c : Configuration sz) : Bytes := beforeFooter c ++ (Codec.word32 nvmFooterMagic).bytes

theorem image_content (c : Configuration sz) :
    c.image = content c ++ (Codec.word32 0).bytes := rfl

theorem content_length (c : Configuration sz) : (content c).length + 4 = c.total := by
  rw [← image_length, image_content, List.length_append, Packed.width]

theorem image_injective {c d : Configuration sz} (hc : c.Counted) (hd : d.Counted)
    (hfit : c.total < addressSpace) (himage : c.image = d.image) : c = d := by
  have hsame : d.total = c.total := by rw [← image_length, ← image_length, himage]
  let b : Block := ⟨c.image, fun _ => 0⟩
  have hsmall : b.bytes.length < addressSpace := (image_length c).trans_lt hfit
  have hprefix : d.image <+: b.bytes := himage ▸ List.prefix_rfl
  have hreadC := configurationOf_image hc hfit (b := b) List.prefix_rfl hsmall
  have hreadD := configurationOf_image hd (hsame ▸ hfit) hprefix hsmall
  exact hreadC.symm.trans hreadD

section Content
variable {c : Configuration sz} {b : Block} (hlead : content c <+: b.bytes)
  (hsmall : b.bytes.length < addressSpace)
include hlead

theorem content_leads {front : Bytes} (h : front <+: c.image)
    (hlen : front.length ≤ (content c).length) : front <+: b.bytes :=
  (List.prefix_of_prefix_length_le h (List.prefix_append _ _) hlen).trans hlead

theorem counts_lead : beforeCounts c ++ (Codec.word32 c.mainBody.nAuthchans).bytes ++
    (Codec.word32 c.mainBody.nAdmins).bytes ++ (Codec.word32 c.mainBody.nMates).bytes <+:
      b.bytes := by
  refine content_leads hlead (counts_leads c) ?_
  have hcontent := content_length c
  rw [Configuration.total, imageTotal] at hcontent
  simp only [List.length_append, beforeCounts_length, Packed.width, headerSize, mainBodySize,
    footerSize, nAuthchansOffset] at hcontent ⊢
  omega

include hsmall

theorem content_headerMagic : (b.readWord magicOffset).value = nvmHeaderMagic := by
  refine readWord_value b [] _ ?_ rfl hsmall
  have h := counts_lead hlead
  rw [beforeCounts, List.append_assoc, List.append_assoc, List.append_assoc] at h
  exact (List.prefix_append _ _).trans h

theorem content_counts (hc : c.Counted) : nAuthchansOf b = c.authchans.size ∧
    nAdminsOf b = c.admins.size ∧ nMatesOf b = c.mates.size := by
  have hmates := counts_lead hlead
  have hadmins := (List.prefix_append _ _).trans hmates
  have hauthchans := (List.prefix_append _ _).trans hadmins
  rw [← hc.1, ← hc.2.1, ← hc.2.2]
  refine ⟨readWord_value b _ _ hauthchans (beforeCounts_length c).symm hsmall,
    readWord_value b _ _ hadmins ?_ hsmall, readWord_value b _ _ hmates ?_ hsmall⟩
  · rw [List.length_append, beforeCounts_length, Packed.width]
    rfl
  · rw [List.length_append, List.length_append, beforeCounts_length, Packed.width, Packed.width]
    rfl

theorem content_total (hc : c.Counted) : exactTotal sz b = c.total := by
  obtain ⟨ha, hd, hm⟩ := content_counts hlead hsmall hc
  rw [exactTotal, ha, hd, hm, EntryVector.size_toNat, EntryVector.size_toNat,
    EntryVector.size_toNat]
  rfl

theorem content_footerMagic (hc : c.Counted) (hfit : c.total < addressSpace) :
    (b.readWord (footerOf sz b + magicOffset)).value = nvmFooterMagic := by
  obtain ⟨ha, hd, hm⟩ := content_counts hlead hsmall hc
  have hlt : (beforeFooter c).length < addressSpace := by
    have hcontent := content_length c
    rw [content, List.length_append] at hcontent
    omega
  have hfooter : footerOf sz b + magicOffset = (beforeFooter c).length := by
    rw [footerOf_eq, ha, hd, hm, EntryVector.size_toNat, EntryVector.size_toNat,
      EntryVector.size_toNat, ← beforeFooter_length, sizeT_of_lt hlt]
    rfl
  exact readWord_value b _ _ hlead hfooter hsmall

end Content

/-- The parser accepts a block that holds all its counts announce exactly if the block begins
with the content of a configuration that fits the flash, and then it reads that configuration. -/
theorem parse_iff {b : Block} (hsmall : b.bytes.length < addressSpace)
    (hlong : exactTotal sz b ≤ b.bytes.length) (c : Configuration sz) :
    (parseImage sz b).value = .ok c ↔
      c.Counted ∧ c.total ≤ flashTargetSize ∧ content c <+: b.bytes := by
  have hsize : imageSizeOf sz b = exactTotal sz b := sizeT_of_lt (hlong.trans_lt hsmall)
  constructor
  · intro hparse
    rw [parseImage_eq] at hparse
    split_ifs at hparse with hmagic hbig hfooter
    cases hparse
    rw [not_not] at hmagic hfooter
    rw [hsize, Nat.not_lt] at hbig
    have htaken := image_taken hsmall hlong hmagic (exactWalk_of_le sz _ hbig) hfooter
    have htotal : (configurationOf sz b).total = exactTotal sz b := by
      have hge : 4 ≤ exactTotal sz b := by
        simp only [exactTotal, imageTotal, footerSize]
        omega
      rw [← image_length, htaken, List.length_append, List.length_take, Packed.width]
      omega
    refine ⟨configurationOf_counted sz b, htotal.trans_le hbig, ?_⟩
    rw [image_content] at htaken
    obtain ⟨hcontent, -⟩ := List.append_inj' htaken rfl
    rw [hcontent]
    exact List.take_prefix _ _
  · rintro ⟨hc, hfit, hlead⟩
    have hlt : c.total < addressSpace := lt_of_le_of_lt hfit (by decide)
    have htotal := content_total hlead hsmall hc
    have hmagic := content_headerMagic hlead hsmall
    have hfooter := content_footerMagic hlead hsmall hc hlt
    have hwalk := exactWalk_of_le sz b (htotal.trans_le hfit)
    have htaken := image_taken hsmall hlong hmagic hwalk hfooter
    have hcontent : b.bytes.take (exactTotal sz b - 4) = content c := by
      have hlen : exactTotal sz b - 4 = (content c).length := by
        have hcontent := content_length c
        omega
      rw [hlen]
      exact (List.prefix_iff_eq_take.mp hlead).symm
    rw [hcontent, ← image_content] at htaken
    have hread := image_injective (configurationOf_counted sz b) hc ?_ htaken
    · rw [parseImage_eq, if_neg (not_not.mpr hmagic), if_neg (by omega),
        if_neg (not_not.mpr hfooter), hread]
    · rw [← image_length, htaken, image_length]
      exact hlt

theorem loadBlob_ok_iff (g : Garbage) (blob : Bytes) (m c : Configuration sz) :
    (loadBlob g blob m).result = true ∧ (loadBlob g blob m).configuration = c ↔
      (parseImage sz ⟨blob, g.heap⟩).value = .ok c := by
  cases hparse : (parseImage sz ⟨blob, g.heap⟩).value with
  | error error => simp [loadBlob, loadParsed, hparse, LoadOutcome.result, loadDone]
  | ok loaded => simp [loadBlob, loadParsed, hparse, LoadOutcome.result, loadDone]

section Delivered
variable {g : Garbage} {flash : Flash} {blob : Bytes} (hdel : Delivers g flash blob)
  (hlong : blobTotal sz blob ≤ blob.length)
include hdel hlong

theorem delivered_total : exactTotal sz ⟨blob, g.heap⟩ = blobTotal sz blob :=
  exactTotal_inside (b := ⟨blob, g.heap⟩) (delivers_small hdel)
    ((by decide : 168 ≤ 176).trans ((blobTotal_ge sz blob).trans hlong))

theorem delivered_iff (m c : Configuration sz) :
    (loadNvm g .none flash m).result = true ∧ (loadNvm g .none flash m).configuration = c ↔
      c.Counted ∧ c.total ≤ flashTargetSize ∧ content c <+: blob := by
  have htotal := delivered_total hdel hlong
  rw [loadNvm_delivers hdel, loadBlob_ok_iff]
  exact parse_iff (b := ⟨blob, g.heap⟩) (delivers_small hdel) (htotal.trans_le hlong) c

theorem delivered_content {m : Configuration sz}
    (hload : (loadNvm g .none flash m).result = true) :
    (loadNvm g .none flash m).configuration.Counted ∧
      (loadNvm g .none flash m).configuration.total < addressSpace ∧
      content (loadNvm g .none flash m).configuration = blob.take (blobTotal sz blob - 4) := by
  obtain ⟨hcounted, hfit, hlead⟩ := (delivered_iff hdel hlong m _).mp ⟨hload, rfl⟩
  refine ⟨hcounted, lt_of_le_of_lt hfit (by decide), ?_⟩
  have htotal := content_total (b := ⟨blob, g.heap⟩) hlead (delivers_small hdel) hcounted
  rw [delivered_total hdel hlong] at htotal
  have hlen : blobTotal sz blob - 4 =
      (content (loadNvm g .none flash m).configuration).length := by
    rw [htotal, ← content_length, Nat.add_sub_cancel]
  rw [hlen]
  exact List.prefix_iff_eq_take.mp hlead

end Delivered

/-- `loadNvm` accepts a blob that holds all its counts announce, and finds this configuration in
it, exactly if the configuration is in step with its counts, fits the flash, and the blob begins
with its content. -/
theorem load_accepts_iff {g : Garbage} {flash : Flash} {blob : Bytes}
    (hdel : Delivers g flash blob) (hlong : blobTotal sz blob ≤ blob.length)
    (m c : Configuration sz) :
    (loadNvm g .none flash m).result = true ∧ (loadNvm g .none flash m).configuration = c ↔
      c.Counted ∧ c.total ≤ flashTargetSize ∧ content c <+: blob := delivered_iff hdel hlong m c

/-- Two accepted blobs say the same exactly if they agree up to their checksums: neither the
checksums nor what lies behind them matter, and every byte before them does. -/
theorem same_configuration_iff {g g' : Garbage} {flash flash' : Flash} {blob blob' : Bytes}
    (hdel : Delivers g flash blob) (hdel' : Delivers g' flash' blob')
    (hlong : blobTotal sz blob ≤ blob.length) (hlong' : blobTotal sz blob' ≤ blob'.length)
    {m m' : Configuration sz} (hload : (loadNvm g .none flash m).result = true)
    (hload' : (loadNvm g' .none flash' m').result = true) :
    (loadNvm g .none flash m).configuration = (loadNvm g' .none flash' m').configuration ↔
      blob.take (blobTotal sz blob - 4) = blob'.take (blobTotal sz blob' - 4) := by
  obtain ⟨hcounted, hfit, hcontent⟩ := delivered_content hdel hlong hload
  obtain ⟨hcounted', -, hcontent'⟩ := delivered_content hdel' hlong' hload'
  rw [← hcontent, ← hcontent']
  constructor
  · intro hsame
    rw [hsame]
  · intro hsame
    refine image_injective hcounted hcounted' hfit ?_
    rw [image_content, image_content, hsame]

def sealedConfiguration : Configuration sampleSizes := (channels 2 (by decide)).countEntries

theorem sealed_total : sealedConfiguration.total = 272 := channels_total 2 (by decide)

def sealedBlob (behind : Bytes) : Bytes := content sealedConfiguration ++ behind

def sealedFlash (behind : Bytes) : Flash :=
  ⟨true, fun
    | .nvmMeta => some (metaBytes (sealedBlob behind).length)
    | .meshroof => some (sealedBlob behind)⟩

theorem sealed_delivers {behind : Bytes} (hlen : behind.length ≤ 100) :
    Delivers zeroGarbage (sealedFlash behind) (sealedBlob behind) := by
  have hcontent := content_length sealedConfiguration
  rw [sealed_total] at hcontent
  have hlt : (sealedBlob behind).length < addressSpace := by
    rw [sealedBlob, List.length_append, addressSpace]
    omega
  refine ⟨rfl, metaBytes (sealedBlob behind).length, ?_, ?_⟩
  · exact getBlob_eq_some.mpr ⟨rfl, (Packed.width _).le⟩
  · rw [metaBytes, metaSize_word zeroGarbage _ hlt]
    exact getBlob_eq_some.mpr ⟨rfl, le_refl _⟩

theorem load_accepts_sealed :
    (loadNvm zeroGarbage .none (sealedFlash [1, 2, 3, 4]) (freshConfiguration sampleSizes)).result =
        true ∧
      (loadNvm zeroGarbage .none (sealedFlash [1, 2, 3, 4])
        (freshConfiguration sampleSizes)).configuration = sealedConfiguration := by
  have hdel : Delivers zeroGarbage (sealedFlash [1, 2, 3, 4]) _ := sealed_delivers (by decide)
  refine (load_accepts_iff hdel (by decide +kernel) _ _).mpr ⟨countEntries_counted _, ?_, ?_⟩
  · rw [sealed_total]
    decide
  · exact List.prefix_append _ _

theorem same_configuration_sealed :
    (loadNvm zeroGarbage .none (sealedFlash [1, 2, 3, 4])
        (freshConfiguration sampleSizes)).configuration =
      (loadNvm zeroGarbage .none (sealedFlash [9, 9, 9, 9, 9])
        (freshConfiguration sampleSizes)).configuration := by
  have hdel : Delivers zeroGarbage (sealedFlash [1, 2, 3, 4]) _ := sealed_delivers (by decide)
  have hdel' : Delivers zeroGarbage (sealedFlash [9, 9, 9, 9, 9]) _ := sealed_delivers (by decide)
  exact (same_configuration_iff hdel hdel' (by decide +kernel) (by decide +kernel)
    (by decide +kernel) (by decide +kernel)).mpr (by decide +kernel)

end MeshRoofFirmware.NvmFormat
