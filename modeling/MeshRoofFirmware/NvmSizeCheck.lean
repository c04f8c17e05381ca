import MeshRoofFirmware.NvmRoundTrip

set_option autoImplicit false

namespace MeshRoofFirmware.NvmSizeCheck
open Library.ByteCodec Library.ByteBlock NvmLayout NvsFlash NvmSave NvmLoad NvmRoundTrip
variable {sz : EntrySizes}

def PastSizeCheck (o : LoadOutcome sz) : Prop :=
  o.exit = .rejected .wrongFooterMagic ∨ o.exit = .loaded

section Counts
variable (sz : EntrySizes) (b : Block)

def exactTotal : ℕ :=
  imageTotal sz (nAuthchansOf b).toNat (nAdminsOf b).toNat (nMatesOf b).toNat

/-- The counts stand for an image within the limit, so no pointer wraps and the three
loops together stay within it. -/
structure ExactWalk : Prop where
  total_le : exactTotal sz b ≤ flashTargetSize
  admins_eq : adminsOf sz b = adminsOffset sz (nAuthchansOf b).toNat
  mates_eq : matesOf sz b = matesOffset sz (nAuthchansOf b).toNat (nAdminsOf b).toNat
  footer_eq : footerOf sz b =
    footerOffset sz (nAuthchansOf b).toNat (nAdminsOf b).toNat (nMatesOf b).toNat
  iterations_le :
    (nAuthchansOf b).toNat + (nAdminsOf b).toNat + (nMatesOf b).toNat ≤ flashTargetSize

theorem counts_le_total (na nd nm : ℕ) : na + nd + nm ≤ imageTotal sz na nd nm := by
  have ha := Nat.le_mul_of_pos_left na sz.authchan_pos
  have hd := Nat.le_mul_of_pos_left nd sz.admin_pos
  have hm := Nat.le_mul_of_pos_left nm sz.mate_pos
  unfold imageTotal
  omega

theorem exactWalk_of_le (h : exactTotal sz b ≤ flashTargetSize) : ExactWalk sz b := by
  have hlt : exactTotal sz b < addressSpace := lt_of_le_of_lt h (by decide)
  obtain ⟨hadmins, hmates, hfooter⟩ := walk_exact hlt
  have hA : adminsOf sz b = adminsOffset sz (nAuthchansOf b).toNat := hadmins
  have hM : matesOf sz b = matesOffset sz (nAuthchansOf b).toNat (nAdminsOf b).toNat := by
    rw [matesOf, hA]
    exact hmates
  refine ⟨h, hA, hM, ?_, (counts_le_total sz _ _ _).trans h⟩
  rw [footerOf, hM]
  exact hfooter

end Counts

theorem pastSizeCheck_iff (g : Garbage) (blob : Bytes) (c : Configuration sz) :
    PastSizeCheck (loadBlob g blob c) ↔
      ((⟨blob, g.heap⟩ : Block).readWord magicOffset).value = nvmHeaderMagic ∧
        sizeT (exactTotal sz ⟨blob, g.heap⟩) ≤ flashTargetSize := by
  change _ ↔ _ ∧ imageSizeOf sz ⟨blob, g.heap⟩ ≤ flashTargetSize
  rw [PastSizeCheck, loadBlob_exit]
  split_ifs with hmagic hsize hfooter
  · exact iff_of_false (by simp) (fun h => hmagic h.1)
  · exact iff_of_false (by simp) (fun h => Nat.not_le.mpr hsize h.2)
  · exact iff_of_true (Or.inl rfl) ⟨not_not.mp hmagic, Nat.not_lt.mp hsize⟩
  · exact iff_of_true (Or.inr rfl) ⟨not_not.mp hmagic, Nat.not_lt.mp hsize⟩

/-- The check is exact on the counts whose size does not wrap, and on those whose wrapped
size is too big all the same. -/
theorem size_check_exact_iff {g : Garbage} {flash : Flash} {blob : Bytes}
    (h : Delivers g flash blob) (c : Configuration sz) :
    (PastSizeCheck (loadNvm g .none flash c) → ExactWalk sz ⟨blob, g.heap⟩) ↔
      (((⟨blob, g.heap⟩ : Block).readWord magicOffset).value = nvmHeaderMagic →
        exactTotal sz ⟨blob, g.heap⟩ < addressSpace ∨
          flashTargetSize < sizeT (exactTotal sz ⟨blob, g.heap⟩)) := by
  rw [loadNvm_delivers h, pastSizeCheck_iff]
  constructor
  · intro hexact hmagic
    by_contra hne
    rw [not_or, Nat.not_lt, Nat.not_lt] at hne
    obtain ⟨hwraps, hle⟩ := hne
    have htotal := (hexact ⟨hmagic, hle⟩).total_le
    exact absurd (hwraps.trans htotal) (by decide)
  · rintro hcondition ⟨hmagic, hle⟩
    rcases hcondition hmagic with hlt | hbig
    · rw [sizeT_of_lt hlt] at hle
      exact exactWalk_of_le sz _ hle
    · omega

def wrapped (sz : EntrySizes) : Configuration sz :=
  { freshConfiguration sz with mainBody := { zeroBody with
      nAuthchans := UInt32.ofNat (addressSpace - sz.admin)
      nAdmins := UInt32.ofNat sz.authchan } }

def wrappedFlash (sz : EntrySizes) : Flash :=
  ⟨true, fun | .nvmMeta => some (metaBytes 176) | .meshroof => some (wrapped sz).image⟩

section Wrapped
variable (ha : sz.authchan < addressSpace) (hd : sz.admin < addressSpace) (heap : ℕ → UInt8)

theorem wrapped_length : (wrapped sz).image.length = 176 := image_length (wrapped sz)

theorem wrapped_delivered (g : Garbage) : Delivers g (wrappedFlash sz) (wrapped sz).image := by
  have hmeta : (wrappedFlash sz).getBlob .nvmMeta nvmMetaSize = some (metaBytes 176) :=
    getBlob_eq_some.mpr ⟨rfl, (Packed.width _).le⟩
  refine ⟨rfl, metaBytes 176, hmeta, getBlob_eq_some.mpr ⟨rfl, ?_⟩⟩
  rw [wrapped_length, metaBytes, metaSize_word g 176 (by decide)]

theorem wrapped_small : (wrapped sz).image.length < addressSpace := by
  rw [wrapped_length]
  decide

theorem wrapped_nMates : nMatesOf ⟨(wrapped sz).image, heap⟩ = 0 :=
  read_nMates (b := ⟨_, heap⟩) List.prefix_rfl wrapped_small

theorem wrapped_magic : ((⟨(wrapped sz).image, heap⟩ : Block).readWord magicOffset).value =
    nvmHeaderMagic := read_headerMagic (b := ⟨_, heap⟩) List.prefix_rfl wrapped_small

theorem wrapped_nAuthchans : (nAuthchansOf ⟨(wrapped sz).image, heap⟩).toNat =
    addressSpace - sz.admin := by
  have hpos := sz.admin_pos
  rw [show nAuthchansOf ⟨(wrapped sz).image, heap⟩ = (wrapped sz).mainBody.nAuthchans from
    read_nAuthchans (b := ⟨_, heap⟩) List.prefix_rfl wrapped_small]
  change (UInt32.ofNat (addressSpace - sz.admin)).toNat = _
  rw [UInt32.toNat_ofNat']
  exact Nat.mod_eq_of_lt (by simp only [addressSpace]; omega)

include ha in
theorem wrapped_nAdmins : (nAdminsOf ⟨(wrapped sz).image, heap⟩).toNat = sz.authchan := by
  rw [show nAdminsOf ⟨(wrapped sz).image, heap⟩ = (wrapped sz).mainBody.nAdmins from
    read_nAdmins (b := ⟨_, heap⟩) List.prefix_rfl wrapped_small]
  change (UInt32.ofNat sz.authchan).toNat = _
  rw [UInt32.toNat_ofNat']
  exact Nat.mod_eq_of_lt ha

include ha hd

theorem wrapped_footerOffset : footerOffset sz (nAuthchansOf ⟨(wrapped sz).image, heap⟩).toNat
    (nAdminsOf ⟨(wrapped sz).image, heap⟩).toNat (nMatesOf ⟨(wrapped sz).image, heap⟩).toNat =
      168 + sz.authchan * addressSpace := by
  have hle : sz.authchan * sz.admin ≤ sz.authchan * addressSpace := Nat.mul_le_mul_left _ hd.le
  rw [wrapped_nAuthchans, wrapped_nAdmins ha, wrapped_nMates, footerOffset, matesOffset,
    adminsOffset, Nat.mul_sub, Nat.mul_comm sz.admin]
  simp only [authchansOffset, headerSize, mainBodySize, UInt32.toNat_zero, Nat.mul_zero]
  omega

theorem wrapped_total : exactTotal sz ⟨(wrapped sz).image, heap⟩ =
    176 + sz.authchan * addressSpace := by
  rw [exactTotal, imageTotal_eq, wrapped_footerOffset ha hd, footerSize]
  omega

/-- Whatever the sizes of the entries, some image whose counts ask for more than the address
space is taken for one of 176 bytes and loaded. -/
theorem wrapped_loaded (g : Garbage) (c : Configuration sz) :
    (loadNvm g .none (wrappedFlash sz) c).exit = .loaded := by
  have hsize : ¬ imageSizeOf sz ⟨(wrapped sz).image, g.heap⟩ > flashTargetSize := by
    change ¬ sizeT (exactTotal sz _) > flashTargetSize
    rw [wrapped_total ha hd, sizeT, Nat.add_mul_mod_self_right]
    decide
  have hfooter : ((⟨(wrapped sz).image, g.heap⟩ : Block).readWord
      (footerOf sz ⟨(wrapped sz).image, g.heap⟩ + magicOffset)).value = nvmFooterMagic := by
    rw [footerOf_eq, wrapped_footerOffset ha hd, sizeT, Nat.add_mul_mod_self_right]
    exact read_footerMagic (c := wrapped sz) (b := ⟨_, g.heap⟩) List.prefix_rfl wrapped_small
  rw [loadNvm_delivers (wrapped_delivered g), loadBlob_exit,
    if_neg (not_not.mpr (wrapped_magic _)), if_neg hsize, if_neg (not_not.mpr hfooter)]

end Wrapped

theorem size_check_exact_wrapped :
    (PastSizeCheck (loadNvm zeroGarbage .none (wrappedFlash sampleSizes)
        (freshConfiguration sampleSizes)) →
      ExactWalk sampleSizes ⟨(wrapped sampleSizes).image, zeroGarbage.heap⟩) ↔
      (((⟨(wrapped sampleSizes).image, zeroGarbage.heap⟩ : Block).readWord magicOffset).value =
          nvmHeaderMagic →
        exactTotal sampleSizes ⟨(wrapped sampleSizes).image, zeroGarbage.heap⟩ < addressSpace ∨
          flashTargetSize <
            sizeT (exactTotal sampleSizes ⟨(wrapped sampleSizes).image, zeroGarbage.heap⟩)) :=
  size_check_exact_iff (wrapped_delivered zeroGarbage) _

/-- 2^32 - 36 channels of 48 bytes and 48 admins of 36: the sum wraps to 176, the check lets it
through and the first loop runs 2^32 - 36 times. -/
theorem wrapped_passes_check :
    PastSizeCheck (loadNvm zeroGarbage .none (wrappedFlash sampleSizes)
        (freshConfiguration sampleSizes)) ∧
      flashTargetSize < exactTotal sampleSizes ⟨(wrapped sampleSizes).image, zeroGarbage.heap⟩ ∧
      (nAuthchansOf ⟨(wrapped sampleSizes).image, zeroGarbage.heap⟩).toNat = 2 ^ 32 - 36 := by
  refine ⟨Or.inr (wrapped_loaded (by decide) (by decide) _ _), ?_, wrapped_nAuthchans _⟩
  rw [wrapped_total (by decide) (by decide)]
  decide

end MeshRoofFirmware.NvmSizeCheck
