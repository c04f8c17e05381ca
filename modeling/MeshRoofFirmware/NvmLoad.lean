import MeshRoofFirmware.NvmLayout
import MeshRoofFirmware.NvsFlash

set_option autoImplicit false

/-! `MeshRoof::loadNvm`. What the routine dereferences through its image pointer is
recorded; memory that no call has filled holds arbitrary bytes. -/
namespace MeshRoofFirmware.NvmLoad
open Library.ByteCodec Library.ByteBlock NvmLayout NvsFlash
variable {sz : EntrySizes}

structure LoadFaults where
  mallocHead : Bool
  nvsOpen : Bool
  getMeta : Bool
  mallocImage : Bool
  getBlob : Bool
  deriving DecidableEq

def LoadFaults.none : LoadFaults := ⟨false, false, false, false, false⟩

theorem faults_none {f : LoadFaults} (hhead : ¬ f.mallocHead = true) (hopen : ¬ f.nvsOpen = true)
    (hmeta : ¬ f.getMeta = true) (himage : ¬ f.mallocImage = true) (hblob : ¬ f.getBlob = true) :
    f = .none := by
  obtain ⟨mallocHead, nvsOpen, getMeta, mallocImage, getBlob⟩ := f
  simp only [Bool.not_eq_true] at hhead hopen hmeta himage hblob
  subst hhead hopen hmeta himage hblob
  rfl

/-- The local `nvm_meta` before it is read, and the heap behind the delivered blob. -/
structure Garbage where
  stack : Packed 4
  heap : ℕ → UInt8

inductive ImageError where
  | wrongHeaderMagic
  | tooBigSize
  | wrongFooterMagic
  deriving DecidableEq

inductive LoadExit where
  | mallocFailed
  | nvsOpenFailed
  | metaNotRead
  | metaTooBig
  | blobNotRead
  | rejected (error : ImageError)
  | loaded
  deriving DecidableEq

structure LoadOutcome (sz : EntrySizes) where
  exit : LoadExit
  configuration : Configuration sz
  calls : List Call
  spans : List Span

def LoadOutcome.result (o : LoadOutcome sz) : Bool := o.exit == .loaded

theorem result_iff_loaded (o : LoadOutcome sz) : o.result = true ↔ o.exit = .loaded := by
  simp [LoadOutcome.result]

def readVector (b : Block) (base w : ℕ) (count : UInt32) : Access (EntryVector w) :=
  ⟨⟨(b.readArray base w 0 count.toNat).value, by rw [readArray_length]; exact count.toNat_lt⟩,
    (b.readArray base w 0 count.toNat).spans⟩

/-- Each count is read once, of memory that stays as it is during the call; `NvmRereads` reads
them as often as the routine does. -/
def parseImage (sz : EntrySizes) (b : Block) : Access (Except ImageError (Configuration sz)) := do
  let header := 0
  let magic ← b.readWord (header + magicOffset)
  if magic ≠ nvmHeaderMagic then pure (.error .wrongHeaderMagic) else do
  let mainBody := header + headerSize
  let na ← b.readWord (mainBody + nAuthchansOffset)
  let nd ← b.readWord (mainBody + nAdminsOffset)
  let nm ← b.readWord (mainBody + nMatesOffset)
  let size := sizeT (imageTotal sz na.toNat nd.toNat nm.toNat)
  if size > flashTargetSize then pure (.error .tooBigSize) else do
  let authchans := mainBody + mainBodySize
  let admins := sizeT (authchans + sizeT (sz.authchan * na.toNat))
  let mates := sizeT (admins + sizeT (sz.admin * nd.toNat))
  let footer := sizeT (mates + sizeT (sz.mate * nm.toNat))
  let magic ← b.readWord (footer + magicOffset)
  if magic ≠ nvmFooterMagic then pure (.error .wrongFooterMagic) else do
  let body ← b.read mainBody mainBodySize
  let authchanEntries ← readVector b authchans sz.authchan na
  let adminEntries ← readVector b admins sz.admin nd
  let mateEntries ← readVector b mates sz.mate nm
  pure (.ok ⟨mainBodyCodec.symm body, authchanEntries, adminEntries, mateEntries⟩)

section ClosedForm
variable (sz : EntrySizes) (b : Block)

def nAuthchansOf : UInt32 := (b.readWord (headerSize + nAuthchansOffset)).value
def nAdminsOf : UInt32 := (b.readWord (headerSize + nAdminsOffset)).value
def nMatesOf : UInt32 := (b.readWord (headerSize + nMatesOffset)).value

def imageSizeOf : ℕ :=
  sizeT (imageTotal sz (nAuthchansOf b).toNat (nAdminsOf b).toNat (nMatesOf b).toNat)

def adminsOf : ℕ := sizeT (authchansOffset + sizeT (sz.authchan * (nAuthchansOf b).toNat))
def matesOf : ℕ := sizeT (adminsOf sz b + sizeT (sz.admin * (nAdminsOf b).toNat))
def footerOf : ℕ := sizeT (matesOf sz b + sizeT (sz.mate * (nMatesOf b).toNat))

def configurationOf : Configuration sz :=
  ⟨mainBodyCodec.symm (b.slice headerSize mainBodySize),
    (readVector b authchansOffset sz.authchan (nAuthchansOf b)).value,
    (readVector b (adminsOf sz b) sz.admin (nAdminsOf b)).value,
    (readVector b (matesOf sz b) sz.mate (nMatesOf b)).value⟩

def headerSpans : List Span := [⟨magicOffset, 4⟩]

def countSpans : List Span :=
  [⟨headerSize + nAuthchansOffset, 4⟩, ⟨headerSize + nAdminsOffset, 4⟩,
    ⟨headerSize + nMatesOffset, 4⟩]

def footerSpans : List Span := [⟨footerOf sz b + magicOffset, 4⟩]

def contentSpans : List Span :=
  ⟨headerSize, mainBodySize⟩ ::
    ((readVector b authchansOffset sz.authchan (nAuthchansOf b)).spans ++
      ((readVector b (adminsOf sz b) sz.admin (nAdminsOf b)).spans ++
        (readVector b (matesOf sz b) sz.mate (nMatesOf b)).spans))

theorem parseImage_eq : parseImage sz b =
    if (b.readWord magicOffset).value ≠ nvmHeaderMagic then
      ⟨.error .wrongHeaderMagic, headerSpans⟩
    else if imageSizeOf sz b > flashTargetSize then
      ⟨.error .tooBigSize, headerSpans ++ countSpans⟩
    else if (b.readWord (footerOf sz b + magicOffset)).value ≠ nvmFooterMagic then
      ⟨.error .wrongFooterMagic, headerSpans ++ countSpans ++ footerSpans sz b⟩
    else ⟨.ok (configurationOf sz b),
      headerSpans ++ countSpans ++ footerSpans sz b ++ contentSpans sz b⟩ := by
  have hmain : headerSize + mainBodySize = authchansOffset := rfl
  by_cases hmagic : (b.readWord magicOffset).value ≠ nvmHeaderMagic
  · rw [if_pos hmagic]
    apply Access.ext_parts
    · simp only [parseImage, Nat.zero_add, bind_value, if_pos hmagic, pure_value]
    · simp only [parseImage, Nat.zero_add, bind_spans, if_pos hmagic, pure_spans]
      rfl
  by_cases hsize : imageSizeOf sz b > flashTargetSize
  · rw [if_neg hmagic, if_pos hsize]
    unfold imageSizeOf nAuthchansOf nAdminsOf nMatesOf at hsize
    apply Access.ext_parts
    · simp only [parseImage, Nat.zero_add, bind_value, if_neg hmagic, if_pos hsize, pure_value]
    · simp only [parseImage, Nat.zero_add, bind_spans, if_neg hmagic, if_pos hsize, pure_spans]
      rfl
  by_cases hfooter : (b.readWord (footerOf sz b + magicOffset)).value ≠ nvmFooterMagic
  · rw [if_neg hmagic, if_neg hsize, if_pos hfooter]
    unfold imageSizeOf nAuthchansOf nAdminsOf nMatesOf at hsize
    unfold footerOf matesOf adminsOf nAuthchansOf nAdminsOf nMatesOf at hfooter
    apply Access.ext_parts
    · simp only [parseImage, Nat.zero_add, hmain, bind_value, if_neg hmagic, if_neg hsize,
        if_pos hfooter, pure_value]
    · simp only [parseImage, Nat.zero_add, hmain, bind_spans, if_neg hmagic, if_neg hsize,
        if_pos hfooter, pure_spans]
      rfl
  · rw [if_neg hmagic, if_neg hsize, if_neg hfooter]
    unfold imageSizeOf nAuthchansOf nAdminsOf nMatesOf at hsize
    unfold footerOf matesOf adminsOf nAuthchansOf nAdminsOf nMatesOf at hfooter
    apply Access.ext_parts
    · simp only [parseImage, Nat.zero_add, hmain, bind_value, if_neg hmagic, if_neg hsize,
        if_neg hfooter, pure_value]
      rfl
    · simp only [parseImage, Nat.zero_add, hmain, bind_spans, if_neg hmagic, if_neg hsize,
        if_neg hfooter, pure_spans, List.append_nil]
      rfl

theorem footerOf_eq : footerOf sz b = sizeT (footerOffset sz (nAuthchansOf b).toNat
    (nAdminsOf b).toNat (nMatesOf b).toNat) := by
  simp only [footerOf, matesOf, adminsOf, sizeT_add_right, sizeT_add_left, footerOffset,
    matesOffset, adminsOffset]

end ClosedForm

def nvmMetaSize : ℕ := 4

/-- `nvm_meta.size` once `blob` has been copied over the local. -/
def metaSize (g : Garbage) (blob : Bytes) : ℕ := leNat (blob ++ g.stack.bytes.drop blob.length)

/-- The label `done`. -/
def loadDone (c : Configuration sz) (calls : List Call) (buf : Option Buffer) (handle : Handle)
    (exit : LoadExit) (spans : List Span) : LoadOutcome sz :=
  ⟨exit, c, calls ++ (buf.toList.map Call.free) ++ [.nvsClose handle], spans⟩

/-- What follows the check of the image. -/
def loadParsed (parsed : Access (Except ImageError (Configuration sz))) (c : Configuration sz) :
    LoadOutcome sz :=
  let calls := [.malloc .scratch, .nvsOpen .readonly, .nvsGetBlob .nvmMeta, .malloc .image,
    .nvsGetBlob .meshroof]
  match parsed.value with
  | .error error => loadDone c calls (some .image) .opened (.rejected error) parsed.spans
  | .ok loaded => loadDone loaded calls (some .image) .opened .loaded parsed.spans

def loadBlob (g : Garbage) (blob : Bytes) (c : Configuration sz) : LoadOutcome sz :=
  loadParsed (parseImage sz ⟨blob, g.heap⟩) c

theorem loadBlob_exit (g : Garbage) (blob : Bytes) (c : Configuration sz) :
    (loadBlob g blob c).exit =
      if ((⟨blob, g.heap⟩ : Block).readWord magicOffset).value ≠ nvmHeaderMagic then
        .rejected .wrongHeaderMagic
      else if imageSizeOf sz ⟨blob, g.heap⟩ > flashTargetSize then .rejected .tooBigSize
      else if ((⟨blob, g.heap⟩ : Block).readWord
          (footerOf sz ⟨blob, g.heap⟩ + magicOffset)).value ≠ nvmFooterMagic then
        .rejected .wrongFooterMagic
      else .loaded := by
  rw [loadBlob, loadParsed, parseImage_eq]
  split_ifs <;> rfl

theorem loadBlob_failed {g : Garbage} {blob : Bytes} {c : Configuration sz}
    (h : (loadBlob g blob c).result = false) : (loadBlob g blob c).configuration = c := by
  cases hparse : (parseImage sz ⟨blob, g.heap⟩).value with
  | error error => simp only [loadBlob, loadParsed, hparse, loadDone]
  | ok loaded => simp [loadBlob, loadParsed, hparse, loadDone, LoadOutcome.result] at h

/-- The calls of the routine, up to what it does with the image it is handed. -/
def loadWith (withImage : Bytes → LoadOutcome sz) (g : Garbage) (f : LoadFaults) (flash : Flash)
    (c : Configuration sz) : LoadOutcome sz :=
  if f.mallocHead then loadDone c [] none .uninitialised .mallocFailed []
  else if f.nvsOpen || !flash.created then
    loadDone c [.malloc .scratch] (some .scratch) .uninitialised .nvsOpenFailed []
  else match (if f.getMeta then none else flash.getBlob .nvmMeta nvmMetaSize) with
  | none =>
    loadDone c [.malloc .scratch, .nvsOpen .readonly] (some .scratch) .opened .metaNotRead []
  | some nvmMeta =>
    if nvmMeta.length > flashTargetSize then
      loadDone c [.malloc .scratch, .nvsOpen .readonly, .nvsGetBlob .nvmMeta]
        (some .scratch) .opened .metaTooBig []
    -- the first buffer is no longer reachable from here on
    else if f.mallocImage then
      loadDone c [.malloc .scratch, .nvsOpen .readonly, .nvsGetBlob .nvmMeta]
        none .opened .mallocFailed []
    else match (if f.getBlob then none else flash.getBlob .meshroof (metaSize g nvmMeta)) with
    | none =>
      loadDone c [.malloc .scratch, .nvsOpen .readonly, .nvsGetBlob .nvmMeta, .malloc .image]
        (some .image) .opened .blobNotRead []
    | some blob => withImage blob

def loadNvm (g : Garbage) (f : LoadFaults) (flash : Flash) (c : Configuration sz) :
    LoadOutcome sz :=
  loadWith (fun blob => loadBlob g blob c) g f flash c

/-- The flash hands the routine this blob when no call fails. -/
def Delivers (g : Garbage) (flash : Flash) (blob : Bytes) : Prop :=
  flash.created = true ∧ ∃ nvmMeta, flash.getBlob .nvmMeta nvmMetaSize = some nvmMeta ∧
    flash.getBlob .meshroof (metaSize g nvmMeta) = some blob

theorem loadWith_delivers {g : Garbage} {flash : Flash} {blob : Bytes}
    (h : Delivers g flash blob) (withImage : Bytes → LoadOutcome sz) (c : Configuration sz) :
    loadWith withImage g .none flash c = withImage blob := by
  obtain ⟨hcreated, nvmMeta, hmeta, hblob⟩ := h
  have hshort : ¬ nvmMeta.length > flashTargetSize := by
    have hle := (getBlob_eq_some.mp hmeta).2
    simp only [nvmMetaSize, flashTargetSize] at hle ⊢
    omega
  simp [loadWith, LoadFaults.none, hcreated, hmeta, hshort, hblob]

theorem loadNvm_delivers {g : Garbage} {flash : Flash} {blob : Bytes}
    (h : Delivers g flash blob) (c : Configuration sz) :
    loadNvm g .none flash c = loadBlob g blob c := loadWith_delivers h _ c

theorem loadWith_cases (g : Garbage) (f : LoadFaults) (flash : Flash) (c : Configuration sz) :
    (∃ o : LoadOutcome sz, (o.exit ≠ .loaded ∧ o.configuration = c ∧ o.spans = []) ∧
        ∀ withImage, loadWith withImage g f flash c = o) ∨
      (f = .none ∧ ∃ blob, Delivers g flash blob ∧
        ∀ withImage, loadWith withImage g f flash c = withImage blob) := by
  have stop (calls buf handle exit) (h : exit ≠ LoadExit.loaded) :
      (loadDone c calls buf handle exit []).exit ≠ .loaded ∧
        (loadDone c calls buf handle exit []).configuration = c ∧
        (loadDone c calls buf handle exit []).spans = [] := ⟨h, rfl, rfl⟩
  unfold loadWith
  split
  · exact Or.inl ⟨_, stop _ _ _ _ (by decide), fun _ => rfl⟩
  rename_i hhead
  split
  · exact Or.inl ⟨_, stop _ _ _ _ (by decide), fun _ => rfl⟩
  rename_i hopen
  split
  · exact Or.inl ⟨_, stop _ _ _ _ (by decide), fun _ => rfl⟩
  rename_i nvmMeta hmeta
  split
  · exact Or.inl ⟨_, stop _ _ _ _ (by decide), fun _ => rfl⟩
  split
  · exact Or.inl ⟨_, stop _ _ _ _ (by decide), fun _ => rfl⟩
  rename_i himage
  split
  · exact Or.inl ⟨_, stop _ _ _ _ (by decide), fun _ => rfl⟩
  rename_i blob hblob
  rw [Bool.or_eq_true, not_or, Bool.not_eq_true', Bool.not_eq_false] at hopen
  obtain ⟨hmetaRead, hmeta⟩ := Option.ite_none_left_eq_some.mp hmeta
  obtain ⟨hblobRead, hblob⟩ := Option.ite_none_left_eq_some.mp hblob
  exact Or.inr ⟨faults_none hhead hopen.1 hmetaRead himage hblobRead, blob,
    ⟨hopen.2, nvmMeta, hmeta, hblob⟩, fun _ => rfl⟩

theorem loadNvm_cases (g : Garbage) (f : LoadFaults) (flash : Flash) (c : Configuration sz) :
    ((loadNvm g f flash c).exit ≠ .loaded ∧ (loadNvm g f flash c).configuration = c ∧
        (loadNvm g f flash c).spans = []) ∨
      (f = .none ∧ ∃ blob, Delivers g flash blob ∧ loadNvm g f flash c = loadBlob g blob c) := by
  rcases loadWith_cases g f flash c with ⟨o, ho, hload⟩ | ⟨hf, blob, hdel, hload⟩
  · rw [loadNvm, hload]
    exact Or.inl ho
  · exact Or.inr ⟨hf, blob, hdel, hload _⟩

theorem metaSize_word (g : Garbage) (size : ℕ) (h : size < addressSpace) :
    metaSize g (Codec.word32 (UInt32.ofNat size)).bytes = size := by
  have hdrop : g.stack.bytes.drop (Codec.word32 (UInt32.ofNat size)).bytes.length = [] := by
    rw [Packed.width]
    exact List.drop_eq_nil_of_le g.stack.width.le
  rw [metaSize, hdrop, List.append_nil]
  change leNat (leBytes 4 (UInt32.ofNat size).toNat) = size
  rw [leNat_leBytes, UInt32.toNat_ofNat']
  simp only [addressSpace] at h
  omega

theorem count_in_body (b : Block) {off : ℕ} (front : Bytes) (w : UInt32)
    (hfit : off + 4 ≤ mainBodySize) (hoff : off = front.length)
    (hb : front ++ (Codec.word32 w).bytes <+: (b.slice headerSize mainBodySize).bytes) :
    w = (b.readWord (headerSize + off)).value := by
  obtain ⟨rest, hrest⟩ := hb
  have hslice : Codec.word32 w = b.slice (headerSize + off) 4 := by
    apply Packed.ext_bytes
    rw [← slice_within b hfit, ← hrest, List.append_assoc, List.drop_left' hoff.symm,
      List.take_left' (Packed.width _)]
  change w = Codec.word32.symm (b.slice (headerSize + off) 4)
  rw [← hslice, Equiv.symm_apply_apply]

/-- The counts of the loaded main body are the counts the three loops ran to. -/
theorem loadedBody_counts (b : Block) :
    (mainBodyCodec.symm (b.slice headerSize mainBodySize)).nAuthchans = nAuthchansOf b ∧
      (mainBodyCodec.symm (b.slice headerSize mainBodySize)).nAdmins = nAdminsOf b ∧
      (mainBodyCodec.symm (b.slice headerSize mainBodySize)).nMates = nMatesOf b := by
  generalize hbody : mainBodyCodec.symm (b.slice headerSize mainBodySize) = body
  have hbytes : settingsBytes body ++ (Codec.word32 body.nAuthchans).bytes ++
      (Codec.word32 body.nAdmins).bytes ++ (Codec.word32 body.nMates).bytes =
        (b.slice headerSize mainBodySize).bytes := by
    rw [← mainBody_bytes, ← hbody, Equiv.apply_symm_apply]
  have hmates : settingsBytes body ++ (Codec.word32 body.nAuthchans).bytes ++
      (Codec.word32 body.nAdmins).bytes ++ (Codec.word32 body.nMates).bytes <+:
        (b.slice headerSize mainBodySize).bytes := hbytes ▸ List.prefix_rfl
  have hadmins := (List.prefix_append _ _).trans hmates
  have hauthchans := (List.prefix_append _ _).trans hadmins
  refine ⟨count_in_body b _ _ (by decide) (settingsBytes_length body).symm hauthchans,
    count_in_body b _ _ (by decide) ?_ hadmins, count_in_body b _ _ (by decide) ?_ hmates⟩
  · rw [List.length_append, settingsBytes_length, Packed.width]
    rfl
  · rw [List.length_append, List.length_append, settingsBytes_length, Packed.width, Packed.width]
    rfl

theorem readVector_size (b : Block) (base w : ℕ) (count : UInt32) :
    (readVector b base w count).value.size = count := by
  have hlen : (readVector b base w count).value.entries.length = count.toNat :=
    readArray_length b base w 0 count.toNat
  rw [EntryVector.size, hlen, UInt32.ofNat_toNat]

theorem configurationOf_counted (sz : EntrySizes) (b : Block) : (configurationOf sz b).Counted := by
  obtain ⟨ha, hd, hm⟩ := loadedBody_counts b
  refine ⟨ha.trans ?_, hd.trans ?_, hm.trans ?_⟩ <;>
  · rw [configurationOf, readVector_size]

theorem loadBlob_loaded {g : Garbage} {blob : Bytes} {c : Configuration sz}
    (h : (loadBlob g blob c).exit = .loaded) (m : Configuration sz) :
    (loadBlob g blob m).configuration = configurationOf sz ⟨blob, g.heap⟩ := by
  rw [loadBlob_exit] at h
  split_ifs at h with hmagic hsize hfooter
  rw [loadBlob, parseImage_eq, if_neg hmagic, if_neg hsize, if_neg hfooter]
  rfl

end MeshRoofFirmware.NvmLoad
