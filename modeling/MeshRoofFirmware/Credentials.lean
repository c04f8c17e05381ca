import MeshRoofFirmware.NvmSave
import MeshRoofFirmware.WifiStation

set_option autoImplicit false

namespace MeshRoofFirmware.Credentials
open Library.ByteCodec Library.ByteBlock Library.CText NvmLayout NvmSave ConfigFields WifiStation
variable {sz : EntrySizes}

inductive Credential where
  | wifiSsid
  | wifiPasswd
  | netifPasswd
  deriving DecidableEq

namespace Credential

def field : Credential → Field
  | .wifiSsid => .wifiSsid
  | .wifiPasswd => .wifiPasswd
  | .netifPasswd => .netifPasswd

def width : Credential → ℕ
  | .wifiSsid => 32
  | .wifiPasswd => 64
  | .netifPasswd => 32

def setter : Credential → Bytes → NvmMainBody → Bool × NvmMainBody
  | .wifiSsid => setWifiSsid
  | .wifiPasswd => setWifiPasswd
  | .netifPasswd => setNetIfPasswd

def getter : Credential → NvmMainBody → Bytes → Bytes
  | .wifiSsid => getWifiSsid
  | .wifiPasswd => getWifiPasswd
  | .netifPasswd => getNetIfPassword

def nextByte : Credential → NvmMainBody → Option UInt8
  | .wifiSsid, b => b.wifiPasswd.bytes.head?
  | .wifiPasswd, b => (Codec.word32 b.ip).bytes.head?
  | .netifPasswd, b => (Codec.word32 b.nAuthchans).bytes.head?

end Credential

def addressBytes (b : NvmMainBody) : Bytes :=
  (Codec.word32 b.ip).bytes ++ (Codec.word32 b.netmask).bytes ++ (Codec.word32 b.gateway).bytes ++
    (Codec.word32 b.dns1).bytes ++ (Codec.word32 b.dns2).bytes ++ (Codec.word32 b.dns3).bytes

def countBytes (b : NvmMainBody) : Bytes :=
  (Codec.word32 b.nAuthchans).bytes ++ (Codec.word32 b.nAdmins).bytes ++
    (Codec.word32 b.nMates).bytes

def leading : Credential → NvmMainBody → Bytes
  | .wifiSsid, _ => []
  | .wifiPasswd, b => b.wifiSsid.bytes
  | .netifPasswd, b => b.wifiSsid.bytes ++ b.wifiPasswd.bytes ++ addressBytes b

def following : Credential → NvmMainBody → Bytes
  | .wifiSsid, b => b.wifiPasswd.bytes ++ addressBytes b ++ b.netifPasswd.bytes ++ countBytes b
  | .wifiPasswd, b => addressBytes b ++ b.netifPasswd.bytes ++ countBytes b
  | .netifPasswd, b => countBytes b

theorem body_around (k : Credential) (b : NvmMainBody) :
    (mainBodyCodec b).bytes = leading k b ++ (b.field k.field ++ following k b) := by
  rw [mainBody_bytes, settingsBytes]
  cases k <;>
    simp only [leading, following, Credential.field, NvmMainBody.field, addressBytes, countBytes,
      List.append_assoc, List.nil_append]

theorem getter_eq (k : Credential) (b : NvmMainBody) (behind : Bytes) :
    k.getter b behind = cString (b.field k.field ++ (following k b ++ behind)) := by
  have hdrop {off : ℕ} (h : (leading k b).length = off) :
      ((mainBodyCodec b).bytes ++ behind).drop off =
        b.field k.field ++ (following k b ++ behind) := by
    rw [body_around k, List.append_assoc, List.append_assoc, List.drop_left' h]
  cases k with
  | wifiSsid => exact congrArg cString (hdrop rfl)
  | wifiPasswd => exact congrArg cString (hdrop b.wifiSsid.width)
  | netifPasswd =>
    refine congrArg cString (hdrop ?_)
    simp only [leading, addressBytes, List.length_append, Packed.width]
    rfl

theorem packed_ne_nil {n : ℕ} (p : Packed (n + 1)) : p.bytes ≠ [] := by
  intro h
  have hwidth := p.width
  rw [h] at hwidth
  cases hwidth

theorem following_head (k : Credential) (b : NvmMainBody) (behind : Bytes) :
    following k b ++ behind ≠ [] ∧ (following k b ++ behind).head? = k.nextByte b := by
  have hfirst {n : ℕ} (p : Packed (n + 1)) (rest : Bytes) :
      p.bytes ++ rest ≠ [] ∧ (p.bytes ++ rest).head? = p.bytes.head? :=
    ⟨List.append_ne_nil_of_left_ne_nil (packed_ne_nil p) rest,
      List.head?_append_of_ne_nil _ (packed_ne_nil p)⟩
  cases k <;>
    simp only [following, addressBytes, countBytes, List.append_assoc] <;>
    exact hfirst _ _

/-- Reading the field ends in it or right behind it. -/
def Terminated (k : Credential) (b : NvmMainBody) : Prop :=
  0 ∈ b.field k.field ∨ k.nextByte b = some 0

theorem cString_eq_nil {s : Bytes} (h : s ≠ []) : cString s = [] ↔ s.head? = some 0 := by
  cases s with
  | nil => exact absurd rfl h
  | cons a s =>
    by_cases ha : a = 0 <;> simp [cString, ha]

/-- A getter reads nothing but its own field exactly if that is terminated. -/
theorem getter_own_iff (k : Credential) (b : NvmMainBody) (behind : Bytes) :
    k.getter b behind = cString (b.field k.field) ↔ Terminated k b := by
  obtain ⟨hne, hhead⟩ := following_head k b behind
  rw [getter_eq, cString_append, Terminated]
  by_cases hzero : 0 ∈ b.field k.field
  · rw [if_pos hzero]
    exact iff_of_true rfl (Or.inl hzero)
  · rw [if_neg hzero, cString_self_iff.mpr hzero, List.append_right_eq_self, cString_eq_nil hne, hhead]
    simp only [hzero, false_or]

inductive Op where
  | set (f : Field) (s : Bytes)
  | save (faults : SaveFaults)

def perform (inetAton : Bytes → Option UInt32) (c : Configuration sz) : Op → Configuration sz
  | .set f s => { c with mainBody := (setField inetAton f s c.mainBody).2 }
  | .save faults => (saveNvm faults c).configuration

section Ops
variable (inetAton : Bytes → Option UInt32)

def performAll (c : Configuration sz) (ops : List Op) : Configuration sz :=
  ops.foldl (perform inetAton) c

def Keeps (f : Field) (op : Op) : Prop := ∀ s, op = .set f s → encode inetAton f s = none

theorem perform_keeps {f : Field} {op : Op} (h : Keeps inetAton f op) (c : Configuration sz) :
    (perform inetAton c op).mainBody.field f = c.mainBody.field f := by
  cases op with
  | set g s =>
    have hsets := setField_sets inetAton g s c.mainBody
    by_cases hf : f = g
    · subst hf
      change (setField inetAton f s c.mainBody).2.field f = _
      rw [hsets.refused (h s rfl)]
    · exact hsets.frame f hf
  | save faults =>
    change (saveNvm faults c).configuration.mainBody.field f = _
    rw [saveNvm_configuration, countEntries_field]

theorem performAll_keeps {f : Field} {ops : List Op} (h : ∀ op ∈ ops, Keeps inetAton f op)
    (c : Configuration sz) : (performAll inetAton c ops).mainBody.field f = c.mainBody.field f := by
  induction ops generalizing c with
  | nil => rfl
  | cons op ops ih =>
    change (performAll inetAton (perform inetAton c op) ops).mainBody.field f = _
    rw [ih (fun o ho => h o (List.mem_cons_of_mem _ ho)),
      perform_keeps inetAton (h op List.mem_cons_self)]

theorem setField_setter (k : Credential) (s : Bytes) (b : NvmMainBody) :
    setField inetAton k.field s b = k.setter s b := by
  cases k <;> rfl

theorem setter_accepted {k : Credential} {s : Bytes} {b : NvmMainBody}
    (h : (k.setter s b).1 = true) :
    s.length ≤ k.width ∧ (k.setter s b).2.field k.field = filled k.width s := by
  have hsets := setField_sets (fun _ => none) k.field s b
  have hencode : encode (fun _ => none) k.field s = encodeChars k.width s := by
    cases k <;> rfl
  rw [setField_setter, hencode, encodeChars] at hsets
  by_cases hlen : s.length ≤ k.width
  · rw [if_pos hlen] at hsets
    exact ⟨hlen, (hsets.accepted _ rfl).2⟩
  · rw [if_neg hlen] at hsets
    rw [hsets.refused rfl] at h
    cases h

theorem cString_of_filled {size : ℕ} {s : Bytes} (hs : 0 ∉ s) : cString (filled size s) = s := by
  rw [filled, cString_append_zeros]
  exact cString_self_iff.mpr hs

/-- A getter gives back what was set, and none gives a byte that is not of its own field. -/
structure Kept (k : Credential) (s : Bytes) (b : NvmMainBody) (behind : Bytes) : Prop where
  returned : k.getter b behind = s
  own : ∀ j : Credential, j.getter b behind = cString (b.field j.field)

/-- In every state after the set, whatever else is set and saved, the getters are right exactly if
every character field is terminated there. -/
theorem credentials_kept_iff (c : Configuration sz) (k : Credential) (s : Bytes) (hs : 0 ∉ s)
    (hset : (k.setter s c.mainBody).1 = true) (ops : List Op)
    (hkeeps : ∀ op ∈ ops, Keeps inetAton k.field op) :
    (∀ done, done <+: ops → ∀ behind, Kept k s (performAll inetAton
        { c with mainBody := (k.setter s c.mainBody).2 } done).mainBody behind) ↔
      ∀ done, done <+: ops → ∀ j, Terminated j (performAll inetAton
        { c with mainBody := (k.setter s c.mainBody).2 } done).mainBody := by
  constructor
  · intro h done hdone j
    exact (getter_own_iff j _ []).mp ((h done hdone []).own j)
  · intro h done hdone behind
    have hown (j : Credential) := (getter_own_iff j _ behind).mpr (h done hdone j)
    refine ⟨?_, hown⟩
    rw [hown k, performAll_keeps inetAton (fun op hop => hkeeps op (hdone.subset hop))]
    change cString ((k.setter s c.mainBody).2.field k.field) = s
    rw [(setter_accepted hset).2, cString_of_filled hs]

end Ops

def longSsid : Bytes := List.replicate 32 97

theorem credentials_kept_short :
    (∀ done, done <+: [Op.set .wifiPasswd (ascii "secret")] → ∀ behind,
        Kept .wifiSsid (ascii "roof") (performAll (fun _ => none)
          { freshConfiguration sampleSizes with
            mainBody := (setWifiSsid (ascii "roof") zeroBody).2 } done).mainBody behind) ↔
      ∀ done, done <+: [Op.set .wifiPasswd (ascii "secret")] → ∀ j, Terminated j
        (performAll (fun _ => none) { freshConfiguration sampleSizes with
          mainBody := (setWifiSsid (ascii "roof") zeroBody).2 } done).mainBody :=
  credentials_kept_iff (fun _ => none) (freshConfiguration sampleSizes) .wifiSsid (ascii "roof")
    (by decide) (by decide) _ (by
      intro op hop s hs
      rw [List.mem_singleton.mp hop] at hs
      cases hs)

theorem longSsid_leaks : (setWifiSsid longSsid zeroBody).1 = true ∧
    getWifiSsid (performAll (fun _ => none) { freshConfiguration sampleSizes with
        mainBody := (setWifiSsid longSsid zeroBody).2 }
      [.set .wifiPasswd (ascii "secret")]).mainBody [] = longSsid ++ ascii "secret" := by
  refine ⟨by decide, ?_⟩
  decide

theorem clip_of_filled {n : ℕ} {s : Bytes} (hs : 0 ∉ s) (hlen : s.length ≤ n) (rest : Bytes) :
    (cString (filled n s ++ rest)).take n = s := by
  rcases Nat.lt_or_eq_of_le hlen with hlt | rfl
  · rw [cString_filled hlt, cString_self_iff.mpr hs, List.take_of_length_le hlen]
  · rw [filled_full, cString_append, if_neg hs, List.take_left' rfl]

/-- The last string that the operations stored in the field. -/
def Settled (inetAton : Bytes → Option UInt32) (c : Configuration sz) (k : Credential) (s : Bytes)
    (ops : List Op) : Prop :=
  ∃ before later, ops = before ++ .set k.field s :: later ∧
    (k.setter s (performAll inetAton c before).mainBody).1 = true ∧
      ∀ op ∈ later, Keeps inetAton k.field op

theorem settled_field {inetAton : Bytes → Option UInt32} {c : Configuration sz} {k : Credential}
    {s : Bytes} {ops : List Op} (h : Settled inetAton c k s ops) : s.length ≤ k.width ∧
      (performAll inetAton c ops).mainBody.field k.field = filled k.width s := by
  obtain ⟨before, later, rfl, hset, hlater⟩ := h
  obtain ⟨hlen, hfield⟩ := setter_accepted hset
  refine ⟨hlen, ?_⟩
  rw [performAll, List.foldl_append, List.foldl_cons]
  change (performAll inetAton _ later).mainBody.field k.field = _
  rw [performAll_keeps inetAton hlater]
  change (setField inetAton k.field s _).2.field k.field = _
  rw [setField_setter]
  exact hfield

theorem clipped_getter {k : Credential} {s : Bytes} {b : NvmMainBody} (hs : 0 ∉ s)
    (hlen : s.length ≤ k.width) (hfield : b.field k.field = filled k.width s) (behind : Bytes) :
    (clipped k.width (k.getter b behind)).bytes = s ++ List.replicate (k.width - s.length) 0 := by
  change filled k.width ((k.getter b behind).take k.width) = filled k.width s
  rw [getter_eq, hfield, clip_of_filled hs hlen]

/-- Starting from a station that is not started configures it with the two strings that were
stored last, padded with zeros, whatever lies around them. -/
theorem start_configures (inetAton : Bytes → Option UInt32) (c : Configuration sz) (ops : List Op)
    (s p : Bytes) (hs : 0 ∉ s) (hp : 0 ∉ p) (hssid : Settled inetAton c .wifiSsid s ops)
    (hpasswd : Settled inetAton c .wifiPasswd p ops) (w : EspWifi) (hw : w.started = false)
    (behind : Bytes) :
    let started := start (performAll inetAton c ops).mainBody behind w
    started.1.config.ssid.bytes = s ++ List.replicate (32 - s.length) 0 ∧
      started.1.config.password.bytes = p ++ List.replicate (64 - p.length) 0 ∧
      Request.setConfig started.1.config ∈ started.2 := by
  intro started
  obtain ⟨hslen, hsfield⟩ := settled_field hssid
  obtain ⟨hplen, hpfield⟩ := settled_field hpasswd
  have hstart : ¬ w.started = true := Bool.eq_false_iff.mp hw
  have hstarted : started = start (performAll inetAton c ops).mainBody behind w := rfl
  rw [start, if_neg hstart] at hstarted
  rw [hstarted]
  exact ⟨clipped_getter hs hslen hsfield behind, clipped_getter hp hplen hpfield behind,
    List.mem_append_left _ (List.mem_append_left _ (List.mem_cons_of_mem _ List.mem_cons_self))⟩

def longPasswd : Bytes := List.replicate 64 98

def fullCredentials : List Op := [.set .wifiSsid longSsid, .set .wifiPasswd longPasswd]

theorem start_configures_full :
    let started := start (performAll (fun _ => none) (freshConfiguration sampleSizes)
      fullCredentials).mainBody [] idleStation
    started.1.config.ssid.bytes = longSsid ++ List.replicate (32 - longSsid.length) 0 ∧
      started.1.config.password.bytes = longPasswd ++ List.replicate (64 - longPasswd.length) 0 ∧
      Request.setConfig started.1.config ∈ started.2 := by
  refine start_configures (fun _ => none) (freshConfiguration sampleSizes) fullCredentials longSsid
    longPasswd (by decide) (by decide) ⟨[], [.set .wifiPasswd longPasswd], rfl, by decide, ?_⟩
    ⟨[.set .wifiSsid longSsid], [], rfl, by decide, nofun⟩ idleStation rfl []
  intro op hop t ht
  rw [List.mem_singleton.mp hop] at ht
  cases ht

end MeshRoofFirmware.Credentials
