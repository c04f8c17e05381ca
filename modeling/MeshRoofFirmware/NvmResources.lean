import MeshRoofFirmware.NvmRoundTrip
import MeshRoofFirmware.Library.Lifetimes

set_option autoImplicit false

namespace MeshRoofFirmware.NvmResources
open Library.ByteCodec Library.ByteBlock Library.Lifetimes NvmLayout NvsFlash NvmLoad NvmSave
open NvmRoundTrip
variable {sz : EntrySizes}

inductive Resource where
  | buffer (b : Buffer)
  | handle (h : Handle)
  deriving DecidableEq

/-- `nvs_open` acquires the handle it returns; `nvs_close` releases whatever it is passed. -/
def use? : Call → Option (Use Resource)
  | .malloc b => some (.acquire (.buffer b))
  | .free b => some (.release (.buffer b))
  | .nvsOpen _ => some (.acquire (.handle .opened))
  | .nvsClose h => some (.release (.handle h))
  | _ => none

/-- Every buffer is freed once, an opened handle is closed once, and no other handle is. -/
def Disciplined (calls : List Call) : Prop := Settled (calls.filterMap use?)

instance (calls : List Call) : Decidable (Disciplined calls) :=
  inferInstanceAs (Decidable (Settled (calls.filterMap use?)))

def opens : Call → Bool
  | .nvsOpen _ => true
  | _ => false

theorem count_uses {u : Use Resource} {p : Call → Bool}
    (h : ∀ c, use? c = some u ↔ p c = true) (calls : List Call) :
    (calls.filterMap use?).count u = calls.countP p := by
  rw [List.count_filterMap]
  exact List.countP_congr fun c _ => beq_iff_eq.trans (h c)

theorem count_acquired (calls : List Call) (b : Buffer) :
    (calls.filterMap use?).count (.acquire (.buffer b)) = calls.count (.malloc b) :=
  count_uses (fun c => by cases c <;> simp [use?]) calls

theorem count_released (calls : List Call) (b : Buffer) :
    (calls.filterMap use?).count (.release (.buffer b)) = calls.count (.free b) :=
  count_uses (fun c => by cases c <;> simp [use?]) calls

theorem count_opened (calls : List Call) :
    (calls.filterMap use?).count (.acquire (.handle .opened)) = calls.countP opens :=
  count_uses (fun c => by cases c <;> simp [use?, opens]) calls

theorem count_closed (calls : List Call) (h : Handle) :
    (calls.filterMap use?).count (.release (.handle h)) = calls.count (.nvsClose h) :=
  count_uses (fun c => by cases c <;> simp [use?]) calls

theorem disciplined_freed {calls : List Call} (h : Disciplined calls) (b : Buffer) :
    calls.count (.free b) = calls.count (.malloc b) := by
  have hcount := settled_count h (.buffer b)
  rw [count_acquired, count_released] at hcount
  omega

theorem disciplined_freed_le {calls done : List Call} (h : Disciplined calls) (hdone : done <+: calls)
    (b : Buffer) : done.count (.free b) ≤ done.count (.malloc b) := by
  have hle := settled_released_le h (hdone.filterMap use?) (.buffer b)
  rw [count_acquired, count_released] at hle
  exact hle

theorem disciplined_closed {calls : List Call} (h : Disciplined calls) :
    calls.count (.nvsClose .opened) = calls.countP opens ∧ .nvsClose .uninitialised ∉ calls := by
  have hopened := settled_count h (.handle .opened)
  have hother := settled_count h (.handle .uninitialised)
  rw [count_opened, count_closed] at hopened
  constructor
  · omega
  · -- nothing acquires the handle that was never opened, so nothing releases it either
    have hnone : (calls.filterMap use?).count (.acquire (.handle .uninitialised)) = 0 := by
      rw [count_uses (p := fun _ => false) (fun c => by cases c <;> simp [use?]), List.countP_false,
        Function.const_apply]
    rw [count_closed, hnone] at hother
    exact List.count_eq_zero.mp (by omega)

theorem loadBlob_calls (g : Garbage) (blob : Bytes) (c : Configuration sz) :
    (loadBlob g blob c).calls = [.malloc .scratch, .nvsOpen .readonly, .nvsGetBlob .nvmMeta,
      .malloc .image, .nvsGetBlob .meshroof, .free .image, .nvsClose .opened] := by
  rw [loadBlob, loadParsed]
  split <;> rfl

theorem loadDone_calls (c : Configuration sz) (calls : List Call) (buf : Option Buffer)
    (handle : Handle) (exit : LoadExit) (spans : List Span) :
    (loadDone c calls buf handle exit spans).calls =
      calls ++ buf.toList.map Call.free ++ [.nvsClose handle] := rfl

/-- The load stops when it reads the size of the image, after its first buffer was allocated and
the flash opened. -/
def StopsAtMeta (f : LoadFaults) (flash : Flash) : Prop :=
  f.mallocHead = false ∧ f.nvsOpen = false ∧ flash.created = true ∧
    (f.getMeta = true ∨ flash.getBlob .nvmMeta nvmMetaSize = none)

def OpensForSave (f : SaveFaults) (c : Configuration sz) : Prop :=
  f.malloc = false ∧ f.nvsOpen = false ∧ c.total < addressSpace

theorem loadNvm_disciplined_iff (g : Garbage) (f : LoadFaults) (flash : Flash)
    (c : Configuration sz) :
    Disciplined (loadNvm g f flash c).calls ↔ StopsAtMeta f flash := by
  have hmeta : (f.getMeta = true ∨ flash.getBlob .nvmMeta nvmMetaSize = none) ↔
      (if f.getMeta then none else flash.getBlob .nvmMeta nvmMetaSize) = none := by
    cases f.getMeta <;> simp
  rw [StopsAtMeta, hmeta]
  unfold loadNvm loadWith
  split
  · rename_i hhead
    rw [loadDone_calls]
    exact iff_of_false (by decide) (fun h => absurd hhead (Bool.eq_false_iff.mp h.1))
  rename_i hhead
  split
  · rename_i hopen
    rw [loadDone_calls]
    refine iff_of_false (by decide) (fun h => ?_)
    rw [h.2.1, h.2.2.1] at hopen
    cases hopen
  rename_i hopen
  rw [Bool.or_eq_true, not_or, Bool.not_eq_true, Bool.not_eq_true', Bool.not_eq_false] at hopen
  split
  · rename_i hnone
    rw [loadDone_calls]
    exact iff_of_true (by decide) ⟨Bool.eq_false_iff.mpr hhead, hopen.1, hopen.2, hnone⟩
  rename_i nvmMeta hsome
  have hle := (getBlob_eq_some.mp (Option.ite_none_left_eq_some.mp hsome).2).2
  refine iff_of_false ?_ (fun h => absurd (hsome.symm.trans h.2.2.2) (Option.some_ne_none nvmMeta))
  split
  · -- an `nvm_meta` that could be read is never too big
    simp only [nvmMetaSize, flashTargetSize] at *
    omega
  split
  · rw [loadDone_calls]
    decide
  split
  · rw [loadDone_calls]
    decide
  · rw [loadBlob_calls]
    decide

theorem saveDone_calls (c : Configuration sz) (calls : List Call) (buf : Option Buffer)
    (handle : Handle) (result : Bool) : (saveDone c calls buf handle result).calls =
      calls ++ buf.toList.map Call.free ++ [.nvsClose handle] := rfl

theorem fillImage_fits_iff (c : Configuration sz) :
    fillImage c.countEntries ≠ none ↔ c.total < addressSpace := by
  constructor
  · intro hfill
    obtain ⟨buf, hbuf⟩ := Option.ne_none_iff_exists'.mp hfill
    exact fits_of_fillImage (c := c.countEntries) (countEntries_counted c) hbuf
  · intro hfit
    rw [fillImage_of_fits (countEntries_counted c) hfit]
    exact Option.some_ne_none _

theorem saveNvm_disciplined_iff (f : SaveFaults) (c : Configuration sz) :
    Disciplined (saveNvm f c).calls ↔ OpensForSave f c := by
  rw [OpensForSave, ← fillImage_fits_iff]
  unfold saveNvm
  dsimp only
  split
  · rename_i hmalloc
    rw [saveDone_calls]
    exact iff_of_false (by decide) (fun h => absurd hmalloc (Bool.eq_false_iff.mp h.1))
  rename_i hmalloc
  split
  · rename_i hfill
    exact iff_of_false (by decide : ¬ Disciplined [.malloc .image]) (fun h => h.2.2 hfill)
  rename_i buf hfill
  split
  · rename_i hopen
    rw [saveDone_calls]
    exact iff_of_false (by decide) (fun h => absurd hopen (Bool.eq_false_iff.mp h.2.1))
  rename_i hopen
  have hright : f.malloc = false ∧ f.nvsOpen = false ∧ fillImage c.countEntries ≠ none := by
    rw [hfill]
    exact ⟨Bool.eq_false_iff.mpr hmalloc, Bool.eq_false_iff.mpr hopen, Option.some_ne_none buf⟩
  refine iff_of_true ?_ hright
  split_ifs <;> rfl

/-- The load gives everything back only where it stops at the size of the image, the save only
once it has opened the flash. -/
theorem nvm_disciplined_iff (g : Garbage) (lf : LoadFaults) (flash : Flash) (c : Configuration sz)
    (sf : SaveFaults) (d : Configuration sz) :
    (Disciplined (loadNvm g lf flash c).calls ↔ StopsAtMeta lf flash) ∧
      (Disciplined (saveNvm sf d).calls ↔ OpensForSave sf d) :=
  ⟨loadNvm_disciplined_iff g lf flash c, saveNvm_disciplined_iff sf d⟩

theorem loads_undisciplined :
    let onBlank := loadNvm zeroGarbage .none blankFlash (freshConfiguration sampleSizes)
    let onStored := loadNvm zeroGarbage .none
      (blankFlash.after (saveNvm .none (freshConfiguration sampleSizes)).calls)
      (freshConfiguration sampleSizes)
    onBlank.calls = [.malloc .scratch, .free .scratch, .nvsClose .uninitialised] ∧
      onStored.calls = [.malloc .scratch, .nvsOpen .readonly, .nvsGetBlob .nvmMeta,
        .malloc .image, .nvsGetBlob .meshroof, .free .image, .nvsClose .opened] ∧
      ¬ Disciplined onBlank.calls ∧ ¬ Disciplined onStored.calls := by
  intro onBlank onStored
  have hblank : onBlank.calls = [.malloc .scratch, .free .scratch, .nvsClose .uninitialised] := rfl
  have hstored : onStored.calls = [.malloc .scratch, .nvsOpen .readonly, .nvsGetBlob .nvmMeta,
      .malloc .image, .nvsGetBlob .meshroof, .free .image, .nvsClose .opened] := by
    have hfresh : Stored _ _ (freshConfiguration sampleSizes) := fresh_stored blankFlash
    have hdelivers := (hfresh.delivers_iff zeroGarbage _).mpr ⟨rfl, le_rfl⟩
    rw [show onStored = _ from loadNvm_delivers hdelivers _, loadBlob_calls]
  rw [hblank, hstored]
  exact ⟨rfl, rfl, by decide, by decide⟩

end MeshRoofFirmware.NvmResources
