import MeshRoofFirmware.Library.ByteCodec
import MeshRoofFirmware.Library.KeyedStore

set_option autoImplicit false

namespace MeshRoofFirmware.NvsFlash
open Library.ByteCodec Library.KeyedStore

inductive NvsKey where
  | nvmMeta
  | meshroof
  deriving DecidableEq

structure Flash where
  created : Bool
  blobs : Store NvsKey Bytes

/-- The two buffers `loadNvm` allocates into one variable; `saveNvm` has only the second. -/
inductive Buffer where
  | scratch
  | image
  deriving DecidableEq

inductive OpenMode where
  | readonly
  | readwrite
  deriving DecidableEq

inductive Handle where
  | opened
  | uninitialised
  deriving DecidableEq

/-- Successful library calls, in order. -/
inductive Call where
  | malloc (buffer : Buffer)
  | free (buffer : Buffer)
  | nvsOpen (mode : OpenMode)
  | nvsGetBlob (key : NvsKey)
  | nvsSetBlob (key : NvsKey) (value : Bytes)
  | nvsCommit
  | nvsClose (handle : Handle)
  deriving DecidableEq

/-- `nvs_get_blob`: a missing key or a buffer shorter than the blob is an error. -/
def Flash.getBlob (flash : Flash) (key : NvsKey) (size : ℕ) : Option Bytes :=
  match flash.blobs key with
  | none => none
  | some blob => if blob.length ≤ size then some blob else none

theorem getBlob_eq_some {flash : Flash} {key : NvsKey} {size : ℕ} {blob : Bytes} :
    flash.getBlob key size = some blob ↔ flash.blobs key = some blob ∧ blob.length ≤ size := by
  unfold Flash.getBlob
  cases h : flash.blobs key with
  | none => simp
  | some stored =>
    by_cases hle : stored.length ≤ size
    · simp only [hle, ↓reduceIte, Option.some.injEq]
      exact ⟨fun e => ⟨e, e ▸ hle⟩, fun e => e.1⟩
    · simp only [hle, ↓reduceIte, reduceCtorEq, Option.some.injEq, false_iff, not_and]
      exact fun e hb => hle (e ▸ hb)

def Flash.perform (flash : Flash) : Call → Flash
  | .nvsOpen .readwrite => { flash with created := true }
  | .nvsSetBlob key value => { flash with blobs := flash.blobs.set ⟨key, value⟩ }
  | _ => flash

def Flash.after (flash : Flash) (calls : List Call) : Flash := calls.foldl Flash.perform flash

def Call.write? : Call → Option (Write NvsKey Bytes)
  | .nvsSetBlob key value => some ⟨key, value⟩
  | _ => none

theorem after_blobs (flash : Flash) (calls : List Call) :
    (flash.after calls).blobs = flash.blobs.apply (calls.filterMap Call.write?) := by
  induction calls generalizing flash with
  | nil => rfl
  | cons call calls ih =>
    change ((flash.perform call).after calls).blobs = _
    rw [ih]
    cases call with
    | nvsOpen mode => cases mode <;> rfl
    | _ => rfl

theorem after_created (flash : Flash) (calls : List Call) (h : flash.created = true) :
    (flash.after calls).created = true := by
  induction calls generalizing flash with
  | nil => exact h
  | cons call calls ih =>
    refine ih (flash.perform call) ?_
    cases call with
    | nvsOpen mode => cases mode <;> first | rfl | exact h
    | _ => exact h

theorem after_created_blobs {flash : Flash} (h : flash.created = true) (calls : List Call) :
    flash.after calls = ⟨true, flash.blobs.apply (calls.filterMap Call.write?)⟩ := by
  have hcreated := after_created flash calls h
  have hblobs := after_blobs flash calls
  calc flash.after calls = ⟨(flash.after calls).created, (flash.after calls).blobs⟩ := rfl
    _ = _ := by rw [hcreated, hblobs]

end MeshRoofFirmware.NvsFlash
