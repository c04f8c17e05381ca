import MeshRoofFirmware.Library.ByteBlock

set_option autoImplicit false

/-! The packed structures of the configuration image and the configuration held in
memory. The entry types belong to the client library; only their sizes matter. -/
namespace MeshRoofFirmware.NvmLayout
open Library.ByteCodec Library.ByteBlock

def nvmHeaderMagic : UInt32 := 0x6a87f421
def nvmFooterMagic : UInt32 := 0xe8148afd
def flashTargetSize : ℕ := 8192

structure NvmMainBody where
  wifiSsid : Packed 32
  wifiPasswd : Packed 64
  ip : UInt32
  netmask : UInt32
  gateway : UInt32
  dns1 : UInt32
  dns2 : UInt32
  dns3 : UInt32
  netifPasswd : Packed 32
  nAuthchans : UInt32
  nAdmins : UInt32
  nMates : UInt32
  deriving DecidableEq

def mainBodyFields : NvmMainBody ≃
    Packed 32 × Packed 64 × UInt32 × UInt32 × UInt32 × UInt32 × UInt32 × UInt32 ×
      Packed 32 × UInt32 × UInt32 × UInt32 where
  toFun b := (b.wifiSsid, b.wifiPasswd, b.ip, b.netmask, b.gateway, b.dns1, b.dns2, b.dns3,
    b.netifPasswd, b.nAuthchans, b.nAdmins, b.nMates)
  invFun := fun (ssid, passwd, ip, netmask, gateway, dns1, dns2, dns3, netif, na, nd, nm) =>
    ⟨ssid, passwd, ip, netmask, gateway, dns1, dns2, dns3, netif, na, nd, nm⟩
  left_inv _ := rfl
  right_inv _ := rfl

def headerSize : ℕ := 4
def mainBodySize : ℕ := 164
def footerSize : ℕ := 8
def magicOffset : ℕ := 0
def nAuthchansOffset : ℕ := 152
def nAdminsOffset : ℕ := 156
def nMatesOffset : ℕ := 160
def crc32Offset : ℕ := 4

def mainBodyCodec : Codec NvmMainBody mainBodySize :=
  mainBodyFields.trans
    ((Codec.raw 32).seq ((Codec.raw 64).seq (Codec.word32.seq (Codec.word32.seq
      (Codec.word32.seq (Codec.word32.seq (Codec.word32.seq (Codec.word32.seq
        ((Codec.raw 32).seq (Codec.word32.seq (Codec.word32.seq Codec.word32)))))))))))

def settingsBytes (b : NvmMainBody) : Bytes :=
  b.wifiSsid.bytes ++ b.wifiPasswd.bytes ++ (Codec.word32 b.ip).bytes ++
    (Codec.word32 b.netmask).bytes ++ (Codec.word32 b.gateway).bytes ++
    (Codec.word32 b.dns1).bytes ++ (Codec.word32 b.dns2).bytes ++ (Codec.word32 b.dns3).bytes ++
    b.netifPasswd.bytes

theorem settingsBytes_length (b : NvmMainBody) : (settingsBytes b).length = nAuthchansOffset := by
  simp only [settingsBytes, List.length_append, Packed.width]
  rfl

theorem mainBody_bytes (b : NvmMainBody) :
    (mainBodyCodec b).bytes = settingsBytes b ++ (Codec.word32 b.nAuthchans).bytes ++
      (Codec.word32 b.nAdmins).bytes ++ (Codec.word32 b.nMates).bytes := by
  simp only [settingsBytes, List.append_assoc]
  rfl

/-- The credential and address fields of a main body. -/
inductive Field where
  | wifiSsid
  | wifiPasswd
  | ip
  | netmask
  | gateway
  | dns1
  | dns2
  | dns3
  | netifPasswd
  deriving DecidableEq

def NvmMainBody.field (b : NvmMainBody) : Field → Bytes
  | .wifiSsid => b.wifiSsid.bytes
  | .wifiPasswd => b.wifiPasswd.bytes
  | .ip => (Codec.word32 b.ip).bytes
  | .netmask => (Codec.word32 b.netmask).bytes
  | .gateway => (Codec.word32 b.gateway).bytes
  | .dns1 => (Codec.word32 b.dns1).bytes
  | .dns2 => (Codec.word32 b.dns2).bytes
  | .dns3 => (Codec.word32 b.dns3).bytes
  | .netifPasswd => b.netifPasswd.bytes

/-- Sizes of the packed entries that the client library keeps in its three vectors. -/
structure EntrySizes where
  authchan : ℕ
  admin : ℕ
  mate : ℕ
  authchan_pos : 0 < authchan
  admin_pos : 0 < admin
  mate_pos : 0 < mate

def sampleSizes : EntrySizes := ⟨48, 36, 36, by decide, by decide, by decide⟩

/-- A `std::vector` of packed entries; its size fits a 32-bit `size_t`. -/
structure EntryVector (w : ℕ) where
  entries : List (Packed w)
  size_lt : entries.length < addressSpace
  deriving DecidableEq

def EntryVector.size {w : ℕ} (v : EntryVector w) : UInt32 := UInt32.ofNat v.entries.length

theorem EntryVector.size_toNat {w : ℕ} (v : EntryVector w) : v.size.toNat = v.entries.length := by
  rw [size, UInt32.toNat_ofNat']
  exact Nat.mod_eq_of_lt v.size_lt

theorem EntryVector.ext_entries {w : ℕ} {u v : EntryVector w} (h : u.entries = v.entries) :
    u = v := by
  cases u
  cases v
  congr

def EntryVector.empty (w : ℕ) : EntryVector w := ⟨[], Nat.two_pow_pos 32⟩

/-- The members of `MeshRoof` that the flash image carries. -/
structure Configuration (sz : EntrySizes) where
  mainBody : NvmMainBody
  authchans : EntryVector sz.authchan
  admins : EntryVector sz.admin
  mates : EntryVector sz.mate
  deriving DecidableEq

def zeroBody : NvmMainBody :=
  ⟨.zero 32, .zero 64, 0, 0, 0, 0, 0, 0, .zero 32, 0, 0, 0⟩

/-- What the constructor leaves: a zeroed main body and empty vectors. -/
def freshConfiguration (sz : EntrySizes) : Configuration sz :=
  ⟨zeroBody, .empty _, .empty _, .empty _⟩

section Totals
variable {sz : EntrySizes}

def authchansOffset : ℕ := headerSize + mainBodySize

def adminsOffset (sz : EntrySizes) (na : ℕ) : ℕ := authchansOffset + sz.authchan * na

def matesOffset (sz : EntrySizes) (na nd : ℕ) : ℕ := adminsOffset sz na + sz.admin * nd

def footerOffset (sz : EntrySizes) (na nd nm : ℕ) : ℕ := matesOffset sz na nd + sz.mate * nm

def imageTotal (sz : EntrySizes) (na nd nm : ℕ) : ℕ :=
  headerSize + mainBodySize + sz.authchan * na + sz.admin * nd + sz.mate * nm + footerSize

theorem imageTotal_eq (sz : EntrySizes) (na nd nm : ℕ) :
    imageTotal sz na nd nm = footerOffset sz na nd nm + footerSize := rfl

/-- In an image that fits the address space the pointer walk does not wrap. -/
theorem walk_exact {na nd nm : ℕ} (h : imageTotal sz na nd nm < addressSpace) :
    sizeT (authchansOffset + sizeT (sz.authchan * na)) = adminsOffset sz na ∧
      sizeT (adminsOffset sz na + sizeT (sz.admin * nd)) = matesOffset sz na nd ∧
      sizeT (matesOffset sz na nd + sizeT (sz.mate * nm)) = footerOffset sz na nd nm := by
  rw [imageTotal_eq, footerOffset, matesOffset, adminsOffset] at h
  rw [footerOffset, matesOffset, adminsOffset]
  exact ⟨sizeT_walk (by omega), sizeT_walk (by omega), sizeT_walk (by omega)⟩

def Configuration.total (c : Configuration sz) : ℕ :=
  imageTotal sz c.authchans.entries.length c.admins.entries.length c.mates.entries.length

/-- The counts written into `_main_body` before it is copied. -/
def Configuration.countEntries (c : Configuration sz) : Configuration sz :=
  { c with mainBody := { c.mainBody with
      nAuthchans := c.authchans.size
      nAdmins := c.admins.size
      nMates := c.mates.size } }

def Configuration.Counted (c : Configuration sz) : Prop :=
  c.mainBody.nAuthchans = c.authchans.size ∧ c.mainBody.nAdmins = c.admins.size ∧
    c.mainBody.nMates = c.mates.size

theorem countEntries_counted (c : Configuration sz) : c.countEntries.Counted := ⟨rfl, rfl, rfl⟩

theorem countEntries_field (c : Configuration sz) (f : Field) :
    c.countEntries.mainBody.field f = c.mainBody.field f := by
  cases f <;> rfl

theorem countEntries_total (c : Configuration sz) : c.countEntries.total = c.total := rfl

theorem fresh_counted (sz : EntrySizes) : (freshConfiguration sz).Counted := ⟨rfl, rfl, rfl⟩

theorem fresh_total (sz : EntrySizes) : (freshConfiguration sz).total = 176 := rfl

def beforeAuthchans (c : Configuration sz) : Bytes :=
  (Codec.word32 nvmHeaderMagic).bytes ++ (mainBodyCodec c.mainBody).bytes

def beforeAdmins (c : Configuration sz) : Bytes := beforeAuthchans c ++ flatten c.authchans.entries

def beforeMates (c : Configuration sz) : Bytes := beforeAdmins c ++ flatten c.admins.entries

def beforeFooter (c : Configuration sz) : Bytes := beforeMates c ++ flatten c.mates.entries

def Configuration.image (c : Configuration sz) : Bytes :=
  beforeFooter c ++ (Codec.word32 nvmFooterMagic).bytes ++ (Codec.word32 0).bytes

theorem beforeFooter_leads (c : Configuration sz) :
    beforeFooter c ++ (Codec.word32 nvmFooterMagic).bytes <+: c.image := List.prefix_append _ _

theorem beforeMates_leads (c : Configuration sz) :
    beforeMates c ++ flatten c.mates.entries <+: c.image :=
  (List.prefix_append _ _).trans (beforeFooter_leads c)

theorem beforeAdmins_leads (c : Configuration sz) :
    beforeAdmins c ++ flatten c.admins.entries <+: c.image :=
  (List.prefix_append _ _).trans (beforeMates_leads c)

theorem beforeAuthchans_leads (c : Configuration sz) :
    beforeAuthchans c ++ flatten c.authchans.entries <+: c.image :=
  (List.prefix_append _ _).trans (beforeAdmins_leads c)

theorem mainBody_leads (c : Configuration sz) :
    (Codec.word32 nvmHeaderMagic).bytes ++ (mainBodyCodec c.mainBody).bytes <+: c.image :=
  (List.prefix_append _ _).trans (beforeAuthchans_leads c)

def beforeCounts (c : Configuration sz) : Bytes :=
  (Codec.word32 nvmHeaderMagic).bytes ++ settingsBytes c.mainBody

theorem beforeCounts_length (c : Configuration sz) :
    (beforeCounts c).length = headerSize + nAuthchansOffset := by
  rw [beforeCounts, List.length_append, Packed.width, settingsBytes_length]
  rfl

theorem counts_leads (c : Configuration sz) :
    beforeCounts c ++ (Codec.word32 c.mainBody.nAuthchans).bytes ++
      (Codec.word32 c.mainBody.nAdmins).bytes ++ (Codec.word32 c.mainBody.nMates).bytes <+:
        c.image := by
  have h := mainBody_leads c
  rw [mainBody_bytes] at h
  simpa only [beforeCounts, List.append_assoc] using h

theorem beforeAuthchans_length (c : Configuration sz) :
    (beforeAuthchans c).length = authchansOffset := by
  rw [beforeAuthchans, List.length_append, Packed.width, Packed.width]
  rfl

theorem beforeAdmins_length (c : Configuration sz) :
    (beforeAdmins c).length = adminsOffset sz c.authchans.entries.length := by
  rw [beforeAdmins, List.length_append, beforeAuthchans_length, flatten_length, Nat.mul_comm]
  rfl

theorem beforeMates_length (c : Configuration sz) : (beforeMates c).length =
    matesOffset sz c.authchans.entries.length c.admins.entries.length := by
  rw [beforeMates, List.length_append, beforeAdmins_length, flatten_length, Nat.mul_comm]
  rfl

theorem beforeFooter_length (c : Configuration sz) : (beforeFooter c).length =
    footerOffset sz c.authchans.entries.length c.admins.entries.length
      c.mates.entries.length := by
  rw [beforeFooter, List.length_append, beforeMates_length, flatten_length, Nat.mul_comm]
  rfl

theorem image_length (c : Configuration sz) : c.image.length = c.total := by
  rw [Configuration.image, List.length_append, List.length_append, beforeFooter_length,
    Packed.width, Packed.width]
  rfl

end Totals
end MeshRoofFirmware.NvmLayout
