import MeshRoofFirmware.NvmRoundTrip

set_option autoImplicit false

namespace MeshRoofFirmware.NvmReadBounds
open Library.ByteCodec Library.ByteBlock NvmLayout NvsFlash NvmLoad NvmRoundTrip
variable (sz : EntrySizes)

section BlobFields
variable (blob : Bytes)

def nAuthchansAt : ℕ := (wordAt blob (headerSize + nAuthchansOffset)).toNat
def nAdminsAt : ℕ := (wordAt blob (headerSize + nAdminsOffset)).toNat
def nMatesAt : ℕ := (wordAt blob (headerSize + nMatesOffset)).toNat

def sectionsEnd : ℕ := footerOffset sz (nAuthchansAt blob) (nAdminsAt blob) (nMatesAt blob)

/-- The blob is long enough for every part that the checks before it let through. -/
def Covered : Prop :=
  headerSize ≤ blob.length ∧ (wordAt blob magicOffset = nvmHeaderMagic →
    headerSize + mainBodySize ≤ blob.length ∧
      (sizeT (sectionsEnd sz blob + footerSize) ≤ flashTargetSize →
        sizeT (sectionsEnd sz blob) + 4 ≤ blob.length ∧
          (wordAt blob (sizeT (sectionsEnd sz blob)) = nvmFooterMagic →
            sectionsEnd sz blob ≤ blob.length)))

end BlobFields

section Blob
variable {b : Block} (hsmall : b.bytes.length < addressSpace)
include hsmall

theorem counts_inside (h : headerSize + mainBodySize ≤ b.bytes.length) :
    (nAuthchansOf b).toNat = nAuthchansAt b.bytes ∧ (nAdminsOf b).toNat = nAdminsAt b.bytes ∧
      (nMatesOf b).toNat = nMatesAt b.bytes := by
  simp only [headerSize, mainBodySize] at h
  refine ⟨congrArg UInt32.toNat (readWord_inside b ?_ hsmall),
    congrArg UInt32.toNat (readWord_inside b ?_ hsmall),
    congrArg UInt32.toNat (readWord_inside b ?_ hsmall)⟩ <;>
  · simp only [headerSize, nAuthchansOffset, nAdminsOffset, nMatesOffset]
    omega

theorem imageSizeOf_inside (h : headerSize + mainBodySize ≤ b.bytes.length) :
    imageSizeOf sz b = sizeT (sectionsEnd sz b.bytes + footerSize) := by
  obtain ⟨ha, hd, hm⟩ := counts_inside hsmall h
  rw [imageSizeOf, ha, hd, hm, imageTotal_eq]
  rfl

theorem footerOf_inside (h : headerSize + mainBodySize ≤ b.bytes.length) :
    footerOf sz b = sizeT (sectionsEnd sz b.bytes) := by
  obtain ⟨ha, hd, hm⟩ := counts_inside hsmall h
  rw [footerOf_eq, ha, hd, hm, sectionsEnd]

theorem header_inside_iff :
    (∀ s ∈ headerSpans, s.Inside b.bytes.length) ↔ headerSize ≤ b.bytes.length := by
  have h := span_inside_iff magicOffset 4 (by decide) (by decide) hsmall
  simpa [headerSpans, magicOffset, headerSize] using h

theorem countSpans_inside_iff : (∀ s ∈ countSpans, s.Inside b.bytes.length) ↔
    headerSize + mainBodySize ≤ b.bytes.length := by
  have ha := span_inside_iff (headerSize + nAuthchansOffset) 4
    (by decide) (by decide) hsmall
  have hd := span_inside_iff (headerSize + nAdminsOffset) 4
    (by decide) (by decide) hsmall
  have hm := span_inside_iff (headerSize + nMatesOffset) 4
    (by decide) (by decide) hsmall
  simp only [countSpans, List.forall_mem_cons, List.not_mem_nil, false_implies, implies_true,
    and_true, ha, hd, hm]
  simp only [headerSize, nAuthchansOffset, nAdminsOffset, nMatesOffset, mainBodySize]
  omega

theorem footerSpans_inside_iff : (∀ s ∈ footerSpans sz b, s.Inside b.bytes.length) ↔
    footerOf sz b + 4 ≤ b.bytes.length := by
  have h := span_inside_iff (footerOf sz b) 4 (sizeT_lt _) (by decide) hsmall
  simpa [footerSpans, magicOffset] using h

theorem readVector_inside_iff {base w : ℕ} (hw : 0 < w) (count : UInt32)
    (hstart : base ≤ b.bytes.length) :
    (∀ s ∈ (readVector b base w count).spans, s.Inside b.bytes.length) ↔
      base + w * count.toNat ≤ b.bytes.length := by
  have h := readArray_inside_iff b hw count.toNat 0 (by simpa using hstart) hsmall
  rw [Nat.zero_mul, Nat.add_zero, Nat.mul_comm] at h
  exact h

theorem contentSpans_inside_iff (h : headerSize + mainBodySize ≤ b.bytes.length) :
    (∀ s ∈ contentSpans sz b, s.Inside b.bytes.length) ↔
      sectionsEnd sz b.bytes ≤ b.bytes.length := by
  obtain ⟨ha, hd, hm⟩ := counts_inside hsmall h
  have hbody := span_inside_iff headerSize mainBodySize
    (by decide) (by decide) hsmall
  have hA := readVector_inside_iff hsmall sz.authchan_pos (nAuthchansOf b) h
  rw [contentSpans, List.forall_mem_cons, List.forall_mem_append, List.forall_mem_append, hbody,
    sectionsEnd, footerOffset, matesOffset, adminsOffset, ← ha, ← hd, ← hm]
  change _ ∧ (∀ s ∈ (readVector b (headerSize + mainBodySize) _ _).spans, _) ∧ _ ↔ _
  rw [hA]
  constructor
  · rintro ⟨-, hAle, hDs, hMs⟩
    -- each section that ends inside makes the next one start where the exact sum says
    have hadmins : adminsOf sz b = authchansOffset + sz.authchan * (nAuthchansOf b).toNat :=
      sizeT_walk (lt_of_le_of_lt hAle hsmall)
    rw [readVector_inside_iff hsmall sz.admin_pos _ (by rw [hadmins]; exact hAle), hadmins] at hDs
    have hmates : matesOf sz b = authchansOffset + sz.authchan * (nAuthchansOf b).toNat +
        sz.admin * (nAdminsOf b).toNat := by
      rw [matesOf, hadmins]
      exact sizeT_walk (lt_of_le_of_lt hDs hsmall)
    rw [readVector_inside_iff hsmall sz.mate_pos _ (by rw [hmates]; exact hDs), hmates] at hMs
    exact hMs
  · intro hend
    have hAle : headerSize + mainBodySize + sz.authchan * (nAuthchansOf b).toNat ≤
        b.bytes.length := by
      simp only [authchansOffset] at hend
      omega
    have hDle : authchansOffset + sz.authchan * (nAuthchansOf b).toNat +
        sz.admin * (nAdminsOf b).toNat ≤ b.bytes.length := by omega
    have hadmins : adminsOf sz b = authchansOffset + sz.authchan * (nAuthchansOf b).toNat :=
      sizeT_walk (lt_of_le_of_lt hAle hsmall)
    have hmates : matesOf sz b = authchansOffset + sz.authchan * (nAuthchansOf b).toNat +
        sz.admin * (nAdminsOf b).toNat := by
      rw [matesOf, hadmins]
      exact sizeT_walk (lt_of_le_of_lt hDle hsmall)
    refine ⟨h, hAle, ?_, ?_⟩
    · rw [readVector_inside_iff hsmall sz.admin_pos _ (by rw [hadmins]; exact hAle), hadmins]
      exact hDle
    · rw [readVector_inside_iff hsmall sz.mate_pos _ (by rw [hmates]; exact hDle), hmates]
      exact hend

omit hsmall in
theorem headerSpans_subset : headerSpans ⊆ (parseImage sz b).spans := by
  rw [parseImage_eq]
  split_ifs <;> intro s hs <;> simp only [List.mem_append, hs, true_or]

omit hsmall in
theorem countSpans_subset (h : (b.readWord magicOffset).value = nvmHeaderMagic) :
    countSpans ⊆ (parseImage sz b).spans := by
  rw [parseImage_eq, if_neg (not_not.mpr h)]
  split_ifs <;> intro s hs <;> simp only [List.mem_append, hs, or_true, true_or]

theorem parse_inside_iff :
    (∀ s ∈ (parseImage sz b).spans, s.Inside b.bytes.length) ↔ Covered sz b.bytes := by
  have hheader := header_inside_iff hsmall
  have hcounts := countSpans_inside_iff hsmall
  by_cases h4 : headerSize ≤ b.bytes.length
  swap
  · refine iff_of_false (fun h => h4 ?_) (fun h => h4 h.1)
    exact hheader.mp (fun s hs => h s (headerSpans_subset sz hs))
  have hmagic : (b.readWord magicOffset).value = wordAt b.bytes magicOffset :=
    readWord_inside b h4 hsmall
  by_cases hh : wordAt b.bytes magicOffset = nvmHeaderMagic
  swap
  · have hne : (b.readWord magicOffset).value ≠ nvmHeaderMagic := hmagic ▸ hh
    rw [parseImage_eq, if_pos hne]
    exact iff_of_true (hheader.mpr h4) ⟨h4, fun e => absurd e hh⟩
  have heq : (b.readWord magicOffset).value = nvmHeaderMagic := hmagic.trans hh
  by_cases h168 : headerSize + mainBodySize ≤ b.bytes.length
  swap
  · refine iff_of_false (fun h => h168 ?_) (fun h => h168 (h.2 hh).1)
    exact hcounts.mp (fun s hs => h s (countSpans_subset sz heq hs))
  have hsize := imageSizeOf_inside sz hsmall h168
  have hoff := footerOf_inside sz hsmall h168
  have hfooter := footerSpans_inside_iff sz hsmall
  have hcontent := contentSpans_inside_iff sz hsmall h168
  rw [parseImage_eq, if_neg (not_not.mpr heq), hsize]
  rw [hoff] at hfooter ⊢
  by_cases hbig : sizeT (sectionsEnd sz b.bytes + footerSize) > flashTargetSize
  · rw [if_pos hbig, List.forall_mem_append, hheader, hcounts]
    exact iff_of_true ⟨h4, h168⟩ ⟨h4, fun _ => ⟨h168, fun hle => absurd hle (by omega)⟩⟩
  rw [if_neg hbig]
  by_cases hin : sizeT (sectionsEnd sz b.bytes) + 4 ≤ b.bytes.length
  swap
  · refine iff_of_false (fun h => hin (hfooter.mp (fun s hs => h s ?_)))
      (fun h => hin (((h.2 hh).2 (Nat.not_lt.mp hbig)).1))
    split_ifs <;> simp only [List.mem_append, hs, or_true, true_or]
  have hword : (b.readWord (sizeT (sectionsEnd sz b.bytes) + magicOffset)).value =
      wordAt b.bytes (sizeT (sectionsEnd sz b.bytes)) := readWord_inside b hin hsmall
  by_cases hf : wordAt b.bytes (sizeT (sectionsEnd sz b.bytes)) = nvmFooterMagic
  · rw [if_neg (not_not.mpr (hword.trans hf)), List.forall_mem_append, List.forall_mem_append,
      List.forall_mem_append, hheader, hcounts, hfooter, hcontent]
    exact ⟨fun h => ⟨h4, fun _ => ⟨h168, fun _ => ⟨hin, fun _ => h.2⟩⟩⟩,
      fun h => ⟨⟨⟨h4, h168⟩, hin⟩, ((h.2 hh).2 (Nat.not_lt.mp hbig)).2 hf⟩⟩
  · rw [if_pos (hword ▸ hf), List.forall_mem_append, List.forall_mem_append, hheader, hcounts,
      hfooter]
    exact iff_of_true ⟨⟨h4, h168⟩, hin⟩ ⟨h4, fun _ => ⟨h168, fun _ => ⟨hin, fun e => absurd e hf⟩⟩⟩

end Blob

theorem loadBlob_spans (g : Garbage) (blob : Bytes) (c : Configuration sz) :
    (loadBlob g blob c).spans = (parseImage sz ⟨blob, g.heap⟩).spans := by
  unfold loadBlob loadParsed
  dsimp only
  split <;> rfl

theorem delivers_small {g : Garbage} {flash : Flash} {blob : Bytes} (h : Delivers g flash blob) :
    blob.length < addressSpace := by
  obtain ⟨-, nvmMeta, hmeta, hblob⟩ := h
  have hle := (getBlob_eq_some.mp hblob).2
  have hshort := (getBlob_eq_some.mp hmeta).2
  have hlen : (nvmMeta ++ g.stack.bytes.drop nvmMeta.length).length = 4 := by
    rw [List.length_append, List.length_drop, g.stack.width]
    simp only [nvmMetaSize] at hshort
    omega
  have hlt := leNat_lt (nvmMeta ++ g.stack.bytes.drop nvmMeta.length)
  rw [hlen] at hlt
  exact lt_of_le_of_lt hle hlt

/-- The routine stays inside the delivered bytes exactly on the covered blobs. -/
theorem loadNvm_reads_inside_iff {g : Garbage} {flash : Flash} {blob : Bytes}
    (h : Delivers g flash blob) (c : Configuration sz) :
    (∀ s ∈ (loadNvm g .none flash c).spans, s.Inside blob.length) ↔ Covered sz blob := by
  rw [loadNvm_delivers h, loadBlob_spans]
  exact parse_inside_iff sz (b := ⟨blob, g.heap⟩) (delivers_small h)

def headerOnly : Bytes := (Codec.word32 nvmHeaderMagic).bytes

def headerOnlyFlash : Flash :=
  ⟨true, fun | .nvmMeta => some [4, 0, 0, 0] | .meshroof => some headerOnly⟩

theorem headerOnly_delivered : Delivers zeroGarbage headerOnlyFlash headerOnly :=
  ⟨rfl, [4, 0, 0, 0], by decide, by decide⟩

theorem headerOnly_reads : (∀ s ∈ (loadNvm zeroGarbage .none headerOnlyFlash
    (freshConfiguration sampleSizes)).spans, s.Inside headerOnly.length) ↔
      Covered sampleSizes headerOnly :=
  loadNvm_reads_inside_iff sampleSizes headerOnly_delivered _

/-- The counts are read 152 bytes behind the end of a four-byte blob. -/
theorem headerOnly_read_past : Delivers zeroGarbage headerOnlyFlash headerOnly ∧
    ∃ s ∈ (loadNvm zeroGarbage .none headerOnlyFlash (freshConfiguration sampleSizes)).spans,
      ¬ s.Inside headerOnly.length := by
  refine ⟨headerOnly_delivered, ⟨headerSize + nAuthchansOffset, 4⟩, ?_, ?_⟩
  · rw [loadNvm_delivers headerOnly_delivered, loadBlob_spans]
    exact countSpans_subset sampleSizes (by decide) List.mem_cons_self
  · intro h
    exact absurd (h 0 (by decide)) (by decide)

end MeshRoofFirmware.NvmReadBounds
