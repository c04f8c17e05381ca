import MeshRoofFirmware.NvmRoundTrip

set_option autoImplicit false

namespace MeshRoofFirmware.NvmBoot
open Library.ByteCodec Library.ByteBlock Library.KeyedStore NvmLayout NvsFlash NvmSave NvmLoad
open NvmRoundTrip
variable {sz : EntrySizes}

/-- `if (loadNvm() == false) saveNvm()`, from a freshly constructed object. -/
def boot (sz : EntrySizes) (g : Garbage) (lf : LoadFaults) (sf : SaveFaults) (flash : Flash) :
    Flash :=
  let load := loadNvm g lf flash (freshConfiguration sz)
  if load.result = false then flash.after (saveNvm sf load.configuration).calls else flash

theorem boot_failed {g : Garbage} {lf : LoadFaults} {flash : Flash}
    (h : (loadNvm g lf flash (freshConfiguration sz)).result = false) (sf : SaveFaults) :
    boot sz g lf sf flash = flash.after (saveNvm sf (freshConfiguration sz)).calls := by
  have hconf : (loadNvm g lf flash (freshConfiguration sz)).configuration =
      freshConfiguration sz := by
    rcases loadNvm_cases g lf flash (freshConfiguration sz) with
      ⟨-, hconf, -⟩ | ⟨-, blob, -, hload⟩
    · exact hconf
    · rw [hload] at h ⊢
      exact loadBlob_failed h
  simp only [boot, h, hconf, ↓reduceIte]

theorem boot_loaded {g : Garbage} {lf : LoadFaults} {flash : Flash}
    (h : (loadNvm g lf flash (freshConfiguration sz)).result = true) (sf : SaveFaults) :
    boot sz g lf sf flash = flash := by
  simp only [boot, h, Bool.true_eq_false, ↓reduceIte]

def Wrote (key : NvsKey) (calls : List Call) : Prop := ∃ value, Call.nvsSetBlob key value ∈ calls

def CutBetween (calls : List Call) : Prop := Wrote .nvmMeta calls ∧ ¬ Wrote .meshroof calls

theorem wrote_iff (key : NvsKey) (calls : List Call) :
    Wrote key calls ↔ ∃ w ∈ calls.filterMap Call.write?, w.key = key := by
  constructor
  · rintro ⟨value, hmem⟩
    exact ⟨⟨key, value⟩, List.mem_filterMap.mpr ⟨_, hmem, rfl⟩, rfl⟩
  · rintro ⟨w, hmem, rfl⟩
    obtain ⟨call, hcall, hw⟩ := List.mem_filterMap.mp hmem
    cases call with
    | nvsSetBlob key value =>
      cases hw
      exact ⟨value, hcall⟩
    | _ => cases hw

/-- What every cut of a save leaves: the old image beside the old or the new size, or the new
image beside its size. -/
theorem cut_stored {old new : Configuration sz} (hnew : new.total < addressSpace) {size : ℕ}
    {flash : Flash} (h : Stored flash size old) (f : SaveFaults) {calls : List Call}
    (hcut : calls <+: (saveNvm f new).calls) :
    (¬ CutBetween calls ∧ Stored (flash.after calls) size old) ∨
      (CutBetween calls ∧ Stored (flash.after calls) new.total old) ∨
      (¬ CutBetween calls ∧ Stored (flash.after calls) new.total new.countEntries) := by
  have hblobs := after_blobs flash calls
  have hcreated := after_created flash calls h.created
  have hmeta := wrote_iff .nvmMeta calls
  have himage := wrote_iff .meshroof calls
  have hprefix := (hcut.filterMap Call.write?).trans (saveNvm_writes_begin f hnew)
  rcases prefix_pair hprefix with hw | hw | hw
  · left
    rw [hw] at hblobs hmeta
    refine ⟨fun hc => ?_, hcreated, ?_, ?_, h.counted, h.size_lt⟩
    · simp [hc.1] at hmeta
    · rw [hblobs]
      exact h.nvmMeta
    · rw [hblobs]
      exact h.meshroof
  · right
    left
    rw [hw] at hblobs hmeta himage
    refine ⟨⟨hmeta.mpr ⟨metaWrite new, List.mem_singleton_self _, rfl⟩, fun hc => ?_⟩, hcreated,
      ?_, ?_, h.counted, hnew⟩
    · obtain ⟨w, hmem, hkey⟩ := himage.mp hc
      rw [List.mem_singleton.mp hmem] at hkey
      cases hkey
    · rw [hblobs]
      rfl
    · rw [hblobs]
      exact h.meshroof
  · right
    right
    rw [hw] at hblobs himage
    refine ⟨fun hc => hc.2 (himage.mpr ⟨imageWrite new, by simp, rfl⟩), hcreated, ?_, ?_,
      countEntries_counted new, hnew⟩
    · rw [hblobs]
      rfl
    · rw [hblobs]
      rfl

/-- The next boot restores one of the two configurations and does not overwrite the flash. -/
def Restores (g : Garbage) (flash : Flash) (old new : Configuration sz) : Prop :=
  let load := loadNvm g .none flash (freshConfiguration sz)
  load.result = true ∧
    (load.configuration = old.countEntries ∨ load.configuration = new.countEntries) ∧
    ∀ sf, boot sz g .none sf flash = flash

theorem restores_of_loads {g : Garbage} {flash : Flash} {old new c : Configuration sz}
    (h : (loadNvm g .none flash (freshConfiguration sz)).result = true ∧
      (loadNvm g .none flash (freshConfiguration sz)).configuration = c)
    (hc : c = old.countEntries ∨ c = new.countEntries) : Restores g flash old new :=
  ⟨h.1, by rwa [h.2], boot_loaded h.1⟩

/-- A cut save is atomic unless it falls between the two writes and the new image is shorter
than the one already stored. -/
theorem cut_restores_iff (old new : Configuration sz) (hold : old.total ≤ flashTargetSize)
    (hnew : new.total ≤ flashTargetSize) (flash : Flash) (f : SaveFaults) (calls : List Call)
    (hcut : calls <+: (saveNvm f new).calls) (g : Garbage) :
    Restores g ((flash.after (saveNvm .none old).calls).after calls) old new ↔
      (CutBetween calls → old.total ≤ new.total) := by
  have hlt : flashTargetSize < addressSpace := by decide
  have holdlt := lt_of_le_of_lt hold hlt
  have hnewlt := lt_of_le_of_lt hnew hlt
  rcases cut_stored hnewlt (save_stored holdlt flash) f hcut with
    ⟨hno, hs⟩ | ⟨hyes, hs⟩ | ⟨hno, hs⟩
  · exact iff_of_true (restores_of_loads (load_stored hs hold le_rfl g _) (Or.inl rfl))
      (fun hc => absurd hc hno)
  · constructor
    · intro h _
      by_contra hgt
      have hfail := load_stored_short hs (Nat.not_le.mp hgt) g (freshConfiguration sz)
      rw [h.1] at hfail
      cases hfail
    · intro h
      exact restores_of_loads (load_stored hs hold (h hyes) g _) (Or.inl rfl)
  · exact iff_of_true (restores_of_loads (load_stored hs hnew le_rfl g _) (Or.inr rfl))
      (fun hc => absurd hc hno)

def sizeWritten (new : Configuration sz) : List Call :=
  [.malloc .image, .nvsOpen .readwrite, .nvsSetBlob .nvmMeta (metaBytes new.total)]

theorem sizeWritten_cut {new : Configuration sz} (h : new.total < addressSpace) :
    sizeWritten new <+: (saveNvm .none new).calls := by
  rw [saveNvm_none h]
  exact ⟨[.nvsSetBlob .meshroof new.countEntries.image, .nvsCommit, .free .image,
    .nvsClose .opened], rfl⟩

theorem sizeWritten_between (new : Configuration sz) : CutBetween (sizeWritten new) := by
  constructor
  · exact ⟨metaBytes new.total, by simp [sizeWritten]⟩
  · rintro ⟨value, hmem⟩
    simp [sizeWritten] at hmem

theorem cut_restores_channels :
    let old := channels 1 (by decide)
    let new := channels 3 (by decide)
    CutBetween (sizeWritten new) ∧ Restores zeroGarbage
      ((blankFlash.after (saveNvm .none old).calls).after (sizeWritten new)) old new := by
  intro old new
  have hold : old.total = 224 := channels_total 1 (by decide)
  have hnew : new.total = 320 := channels_total 3 (by decide)
  have hcut : sizeWritten new <+: (saveNvm .none new).calls :=
    sizeWritten_cut (by rw [hnew]; decide)
  refine ⟨sizeWritten_between new, ?_⟩
  refine (cut_restores_iff old new (by rw [hold]; decide) (by rw [hnew]; decide) blankFlash .none _
    hcut zeroGarbage).mpr fun _ => ?_
  rw [hold, hnew]
  decide

/-- Three channels are stored; a save of one channel is cut after the write of its size. The
next boot finds nothing it can load and stores the empty configuration. -/
theorem cut_loses_channels :
    let old := channels 3 (by decide)
    let new := channels 1 (by decide)
    let calls := [Call.malloc .image, .nvsOpen .readwrite, .nvsSetBlob .nvmMeta (metaBytes new.total)]
    let cut := (blankFlash.after (saveNvm .none old).calls).after calls
    old.total ≤ flashTargetSize ∧ new.total ≤ flashTargetSize ∧
      calls <+: (saveNvm .none new).calls ∧ ¬ Restores zeroGarbage cut old new ∧
      (loadNvm zeroGarbage .none (boot sampleSizes zeroGarbage .none .none cut)
        (freshConfiguration sampleSizes)).configuration = freshConfiguration sampleSizes := by
  intro old new calls cut
  have hold : old.total = 320 := by rw [channels_total]
  have hnew : new.total = 224 := by rw [channels_total]
  have holdlt : old.total < addressSpace := by rw [hold]; decide
  have hnewlt : new.total < addressSpace := by rw [hnew]; decide
  have hprefix : calls <+: (saveNvm .none new).calls := sizeWritten_cut hnewlt
  have hbetween : CutBetween calls := sizeWritten_between new
  have hcut : Stored cut new.total old.countEntries := by
    rcases cut_stored hnewlt (save_stored holdlt blankFlash) .none hprefix with
      ⟨hno, -⟩ | ⟨-, hs⟩ | ⟨hno, -⟩
    · exact absurd hbetween hno
    · exact hs
    · exact absurd hbetween hno
  have hshort : new.total < old.countEntries.total := by
    rw [countEntries_total, hold, hnew]
    decide
  have hfail := load_stored_short hcut hshort zeroGarbage (freshConfiguration sampleSizes)
  refine ⟨by rw [hold]; decide, by rw [hnew]; decide, hprefix, fun h => ?_, ?_⟩
  · rw [h.1] at hfail
    cases hfail
  · rw [boot_failed hfail]
    exact (load_stored (fresh_stored _) (by decide) le_rfl _ _).2

def Accepts (g : Garbage) (flash : Flash) (c : Configuration sz) : Prop :=
  (loadNvm g .none flash (freshConfiguration sz)).result = true ∧
    (loadNvm g .none flash (freshConfiguration sz)).configuration = c

theorem accepts_iff {g : Garbage} {flash : Flash} {c : Configuration sz} :
    Accepts g flash c ↔ ∃ blob, Delivers g flash blob ∧
      (parseImage sz ⟨blob, g.heap⟩).value = .ok c := by
  constructor
  · rintro ⟨hresult, hconf⟩
    rcases loadNvm_cases g .none flash (freshConfiguration sz) with
      ⟨hexit, -, -⟩ | ⟨-, blob, hdel, hload⟩
    · exact absurd ((result_iff_loaded _).mp hresult) hexit
    · refine ⟨blob, hdel, ?_⟩
      rw [hload] at hresult hconf
      cases hparse : (parseImage sz ⟨blob, g.heap⟩).value with
      | error error =>
        rw [(result_of_error hparse).1] at hresult
        cases hresult
      | ok loaded =>
        rw [(result_of_ok hparse).2] at hconf
        rw [hconf]
  · rintro ⟨blob, hdel, hparse⟩
    rw [Accepts, loadNvm_delivers hdel]
    exact result_of_ok hparse

theorem load_faults {g : Garbage} {f : LoadFaults} (hf : f ≠ .none) (flash : Flash)
    (c : Configuration sz) : (loadNvm g f flash c).result = false := by
  rcases loadNvm_cases g f flash c with ⟨hexit, -, -⟩ | ⟨hnone, -⟩
  · rw [← Bool.not_eq_true, result_iff_loaded]
    exact hexit
  · exact absurd hnone hf

def BootKeeps (lf : LoadFaults) (sf : SaveFaults) (flash : Flash) (c : Configuration sz) : Prop :=
  lf = .none ∨ sf.malloc = true ∨ sf.nvsOpen = true ∨ sf.setMeta = true ∨
    (sf.setBlob = true ∧ ∃ blob, flash.blobs .meshroof = some blob ∧
      blob.length ≤ (freshConfiguration sz).total) ∨
    (sf.setBlob = false ∧ c = freshConfiguration sz)

theorem accepts_unique {g : Garbage} {flash : Flash} {c d : Configuration sz}
    (hc : Accepts g flash c) (hd : Accepts g flash d) : c = d := hc.2.symm.trans hd.2

theorem accepts_stored {g : Garbage} {flash : Flash} {size : ℕ} {c d : Configuration sz}
    (h : Stored flash size c) (hfit : c.total ≤ flashTargetSize) (hsize : c.total ≤ size) :
    Accepts g flash d ↔ d = c := by
  have hload := load_stored h hfit hsize g (freshConfiguration sz)
  exact ⟨fun hd => accepts_unique hd hload, fun hd => hd ▸ hload⟩

theorem accepts_resized {g : Garbage} {flash : Flash} {c : Configuration sz} {blob : Bytes}
    {size : ℕ} (h : Accepts g flash c) (hblob : flash.blobs .meshroof = some blob)
    (hsize : size < addressSpace) :
    Accepts g ⟨true, flash.blobs.set ⟨.nvmMeta, metaBytes size⟩⟩ c ↔ blob.length ≤ size := by
  obtain ⟨_, ⟨-, nvmMeta, -, hget⟩, hparse⟩ := accepts_iff.mp h
  have hsame := (getBlob_eq_some.mp hget).1
  rw [hblob] at hsame
  cases hsame
  have hlen : metaSize g (metaBytes size) = size := metaSize_word g size hsize
  let resized : Flash := ⟨true, flash.blobs.set ⟨.nvmMeta, metaBytes size⟩⟩
  have hmeta : resized.getBlob .nvmMeta nvmMetaSize = some (metaBytes size) :=
    getBlob_eq_some.mpr ⟨set_same flash.blobs ⟨.nvmMeta, metaBytes size⟩, (Packed.width _).le⟩
  have himage : resized.blobs .meshroof = some blob :=
    (set_other flash.blobs ⟨.nvmMeta, metaBytes size⟩ .meshroof nofun).trans hblob
  constructor
  · intro hacc
    obtain ⟨_, ⟨-, value, hm, hb⟩, -⟩ := accepts_iff.mp hacc
    rw [hmeta] at hm
    cases hm
    rw [hlen, getBlob_eq_some, himage] at hb
    cases hb.1
    exact hb.2
  · intro hle
    refine accepts_iff.mpr ⟨blob, ⟨rfl, _, hmeta, ?_⟩, hparse⟩
    rw [hlen, getBlob_eq_some]
    exact ⟨himage, hle⟩

/-- For every pattern of failures, the boot leaves a readable blob readable as before exactly
when nothing failed in the load, the save came to no write, or what it wrote does not matter. -/
theorem boot_keeps_iff {g later : Garbage} {flash : Flash} {c : Configuration sz}
    (hnow : Accepts g flash c) (hlater : Accepts later flash c) (lf : LoadFaults)
    (sf : SaveFaults) : Accepts later (boot sz g lf sf flash) c ↔ BootKeeps lf sf flash c := by
  by_cases hlf : lf = .none
  · subst hlf
    rw [boot_loaded hnow.1]
    exact iff_of_true hlater (Or.inl rfl)
  obtain ⟨blob, ⟨hcreated, nvmMeta, -, hget⟩, -⟩ := accepts_iff.mp hnow
  have hblob := (getBlob_eq_some.mp hget).1
  have hfit : (freshConfiguration sz).total < addressSpace := by rw [fresh_total]; decide
  have hwrites := saveNvm_writes sf hfit
  rw [boot_failed (load_faults hlf flash _), after_created_blobs hcreated, BootKeeps]
  by_cases hnowrite : (sf.malloc || sf.nvsOpen || sf.setMeta) = true
  · have hflash : (⟨true, flash.blobs⟩ : Flash) = flash := by rw [← hcreated]
    rw [hwrites, if_pos hnowrite]
    change Accepts later ⟨true, flash.blobs⟩ c ↔ _
    rw [hflash]
    refine iff_of_true hlater (Or.inr ?_)
    simp only [Bool.or_eq_true] at hnowrite
    rcases hnowrite with (h | h) | h
    · exact Or.inl h
    · exact Or.inr (Or.inl h)
    · exact Or.inr (Or.inr (Or.inl h))
  rw [hwrites, if_neg hnowrite]
  simp only [Bool.or_eq_true, not_or, Bool.not_eq_true] at hnowrite
  obtain ⟨⟨hmalloc, hopen⟩, hmeta⟩ := hnowrite
  simp only [hlf, hmalloc, hopen, hmeta, Bool.false_eq_true, false_or]
  by_cases hset : sf.setBlob = true
  · rw [if_pos hset]
    change Accepts later ⟨true, flash.blobs.set (metaWrite (freshConfiguration sz))⟩ c ↔ _
    rw [metaWrite, accepts_resized hlater hblob hfit]
    simp [hset, hblob]
  · rw [if_neg hset]
    have hstored : Stored ⟨true, flash.blobs.apply
        [metaWrite (freshConfiguration sz), imageWrite (freshConfiguration sz)]⟩
        (freshConfiguration sz).total (freshConfiguration sz) :=
      ⟨rfl, rfl, rfl, fresh_counted sz, hfit⟩
    rw [accepts_stored hstored (by rw [fresh_total]; decide) le_rfl]
    simp [hset]

def storedChannel : Flash := blankFlash.after (saveNvm .none (channels 1 (by decide))).calls

theorem storedChannel_accepted :
    Accepts zeroGarbage storedChannel (channels 1 (by decide)).countEntries := by
  have hlt : (channels 1 (by decide)).total < addressSpace := by rw [channels_total]; decide
  have hfit : (channels 1 (by decide)).total ≤ flashTargetSize := by rw [channels_total]; decide
  exact load_stored (save_stored hlt blankFlash) hfit le_rfl zeroGarbage _

def noMemory : LoadFaults := { LoadFaults.none with mallocHead := true }

theorem boot_keeps_channel :
    Accepts zeroGarbage (boot sampleSizes zeroGarbage noMemory .none storedChannel)
        (channels 1 (by decide)).countEntries ↔
      BootKeeps noMemory .none storedChannel (channels 1 (by decide)).countEntries :=
  boot_keeps_iff storedChannel_accepted storedChannel_accepted noMemory .none

theorem boot_erases_channel :
    Accepts zeroGarbage storedChannel (channels 1 (by decide)).countEntries ∧
      (loadNvm zeroGarbage .none (boot sampleSizes zeroGarbage noMemory .none storedChannel)
        (freshConfiguration sampleSizes)).configuration = freshConfiguration sampleSizes ∧
      freshConfiguration sampleSizes ≠ (channels 1 (by decide)).countEntries := by
  have hfail := load_faults (g := zeroGarbage) (f := noMemory) (by decide) storedChannel
    (freshConfiguration sampleSizes)
  refine ⟨storedChannel_accepted, ?_, fun h => ?_⟩
  · rw [boot_failed hfail]
    exact (load_stored (fresh_stored storedChannel) (by decide) le_rfl _ _).2
  · exact absurd (congrArg (fun c => c.authchans.entries.length) h) (by decide)

end MeshRoofFirmware.NvmBoot
