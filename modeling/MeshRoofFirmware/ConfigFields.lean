import MeshRoofFirmware.NvmLayout
import MeshRoofFirmware.Library.CText

set_option autoImplicit false

namespace MeshRoofFirmware.ConfigFields
open Library.ByteCodec Library.ByteBlock Library.CText NvmLayout

/-- The field zeroed and the string copied to its start. -/
def padded (n : ℕ) (s : Bytes) (h : s.length ≤ n) : Packed n :=
  ⟨filled n s, filled_length h⟩

def setChars {n : ℕ} (put : Packed n → NvmMainBody) (s : Bytes) (old : NvmMainBody) :
    Bool × NvmMainBody :=
  if h : s.length > n then (false, old) else (true, put (padded n s (Nat.not_lt.mp h)))

def setWifiSsid (ssid : Bytes) (b : NvmMainBody) : Bool × NvmMainBody :=
  setChars (fun v => { b with wifiSsid := v }) ssid b

def setWifiPasswd (passwd : Bytes) (b : NvmMainBody) : Bool × NvmMainBody :=
  setChars (fun v => { b with wifiPasswd := v }) passwd b

def setNetIfPasswd (passwd : Bytes) (b : NvmMainBody) : Bool × NvmMainBody :=
  setChars (fun v => { b with netifPasswd := v }) passwd b

def setAddr (inetAton : Bytes → Option UInt32) (put : UInt32 → NvmMainBody) (addr : Bytes)
    (old : NvmMainBody) : Bool × NvmMainBody :=
  match inetAton (cString addr) with
  | none => (false, old)
  | some sAddr => (true, put sAddr)

section Addresses
variable (inetAton : Bytes → Option UInt32) (addr : Bytes) (b : NvmMainBody)

def setIp : Bool × NvmMainBody := setAddr inetAton (fun a => { b with ip := a }) addr b
def setNetmask : Bool × NvmMainBody := setAddr inetAton (fun a => { b with netmask := a }) addr b
def setGateway : Bool × NvmMainBody := setAddr inetAton (fun a => { b with gateway := a }) addr b
def setDns1 : Bool × NvmMainBody := setAddr inetAton (fun a => { b with dns1 := a }) addr b
def setDns2 : Bool × NvmMainBody := setAddr inetAton (fun a => { b with dns2 := a }) addr b
def setDns3 : Bool × NvmMainBody := setAddr inetAton (fun a => { b with dns3 := a }) addr b

end Addresses

def setField (inetAton : Bytes → Option UInt32) : Field → Bytes → NvmMainBody → Bool × NvmMainBody
  | .wifiSsid => setWifiSsid
  | .wifiPasswd => setWifiPasswd
  | .ip => setIp inetAton
  | .netmask => setNetmask inetAton
  | .gateway => setGateway inetAton
  | .dns1 => setDns1 inetAton
  | .dns2 => setDns2 inetAton
  | .dns3 => setDns3 inetAton
  | .netifPasswd => setNetIfPasswd

def encodeChars (n : ℕ) (s : Bytes) : Option Bytes :=
  if s.length ≤ n then some (filled n s) else none

def encodeAddr (inetAton : Bytes → Option UInt32) (addr : Bytes) : Option Bytes :=
  (inetAton (cString addr)).map (fun a => (Codec.word32 a).bytes)

/-- The bytes a string stands for in a field, if it is a value of that field. -/
def encode (inetAton : Bytes → Option UInt32) : Field → Bytes → Option Bytes
  | .wifiSsid => encodeChars 32
  | .wifiPasswd => encodeChars 64
  | .netifPasswd => encodeChars 32
  | _ => encodeAddr inetAton

/-- A setter refuses what is no value of its field, and otherwise replaces that field alone. -/
structure Sets (f : Field) (v : Option Bytes) (old : NvmMainBody) (new : Bool × NvmMainBody) :
    Prop where
  refused : v = none → new = (false, old)
  accepted : ∀ bytes, v = some bytes → new.1 = true ∧ new.2.field f = bytes
  frame : ∀ g, g ≠ f → new.2.field g = old.field g

theorem setChars_sets {n : ℕ} (f : Field) {put : Packed n → NvmMainBody} (s : Bytes)
    {old : NvmMainBody} (hput : ∀ v, (put v).field f = v.bytes)
    (hframe : ∀ v g, g ≠ f → (put v).field g = old.field g) :
    Sets f (encodeChars n s) old (setChars put s old) := by
  by_cases hlen : s.length > n
  · have hnone : encodeChars n s = none := if_neg (Nat.not_le.mpr hlen)
    have hset : setChars put s old = (false, old) := dif_pos hlen
    rw [hnone, hset]
    exact ⟨fun _ => rfl, nofun, fun _ _ => rfl⟩
  · have hsome : encodeChars n s = some (filled n s) := if_pos (Nat.not_lt.mp hlen)
    have hset : setChars put s old = (true, put (padded n s (Nat.not_lt.mp hlen))) := dif_neg hlen
    rw [hsome, hset]
    refine ⟨nofun, ?_, fun g hg => hframe _ g hg⟩
    intro bytes hbytes
    cases hbytes
    exact ⟨rfl, hput _⟩

theorem setAddr_sets (inetAton : Bytes → Option UInt32) (f : Field)
    {put : UInt32 → NvmMainBody} (addr : Bytes) {old : NvmMainBody}
    (hput : ∀ a, (put a).field f = (Codec.word32 a).bytes)
    (hframe : ∀ a g, g ≠ f → (put a).field g = old.field g) :
    Sets f (encodeAddr inetAton addr) old (setAddr inetAton put addr old) := by
  unfold encodeAddr setAddr
  cases inetAton (cString addr) with
  | none => exact ⟨fun _ => rfl, nofun, fun _ _ => rfl⟩
  | some a =>
    refine ⟨nofun, ?_, fun g hg => hframe a g hg⟩
    intro bytes hbytes
    cases hbytes
    exact ⟨rfl, hput a⟩

theorem setField_sets (inetAton : Bytes → Option UInt32) (f : Field) (s : Bytes)
    (b : NvmMainBody) : Sets f (encode inetAton f s) b (setField inetAton f s b) := by
  cases f with
  | wifiSsid | wifiPasswd | netifPasswd =>
    simp only [encode, setField, setWifiSsid, setWifiPasswd, setNetIfPasswd]
    apply setChars_sets
    · intro v
      rfl
    · intro v g hg
      cases g <;> first | rfl | exact absurd rfl hg
  | ip | netmask | gateway | dns1 | dns2 | dns3 =>
    apply setAddr_sets
    · intro a
      rfl
    · intro a g hg
      cases g <;> first | rfl | exact absurd rfl hg

/-- A `char` array of the main body read as a C string, from its offset through the struct
and on into what lies behind it. -/
def getChars (off : ℕ) (b : NvmMainBody) (behind : Bytes) : Bytes :=
  cString (((mainBodyCodec b).bytes ++ behind).drop off)

def wifiSsidOffset : ℕ := 0
def wifiPasswdOffset : ℕ := 32
def netifPasswdOffset : ℕ := 120

def getWifiSsid (b : NvmMainBody) (behind : Bytes) : Bytes := getChars wifiSsidOffset b behind
def getWifiPasswd (b : NvmMainBody) (behind : Bytes) : Bytes := getChars wifiPasswdOffset b behind
def getNetIfPassword (b : NvmMainBody) (behind : Bytes) : Bytes :=
  getChars netifPasswdOffset b behind

def getIpString (b : NvmMainBody) : Bytes := dotted b.ip
def getNetmaskString (b : NvmMainBody) : Bytes := dotted b.netmask
def getGatewayString (b : NvmMainBody) : Bytes := dotted b.gateway
def getDns1String (b : NvmMainBody) : Bytes := dotted b.dns1
def getDns2String (b : NvmMainBody) : Bytes := dotted b.dns2
def getDns3String (b : NvmMainBody) : Bytes := dotted b.dns3

end MeshRoofFirmware.ConfigFields
