import MeshRoofFirmware.ConfigFields

set_option autoImplicit false

namespace MeshRoofFirmware.WifiStation
open Library.ByteCodec NvmLayout ConfigFields

/-- `wifi_event_sta_connected_t`; its last two members are never read. -/
structure StaConnected where
  ssid : Packed 32
  ssidLen : UInt8
  bssid : Fin 6 → UInt8
  channel : UInt8

structure IpInfo where
  ip : UInt32
  netmask : UInt32
  gw : UInt32

structure StaConfig where
  ssid : Packed 32
  password : Packed 64

structure EspWifi where
  started : Bool
  config : StaConfig
  staConnected : StaConnected
  ipInfo : IpInfo
  dns1Info : UInt32
  dns2Info : UInt32
  dns3Info : UInt32

/-- The constructor sets `_started` and leaves the status members as it finds them. -/
def construct (garbage : EspWifi) : EspWifi := { garbage with started := false }

inductive DnsSlot where
  | main
  | backup
  | fallback
  deriving DecidableEq

/-- The driver and interface calls, in the order they are made. None of their results is
looked at beyond a log message. -/
inductive Request where
  | setMode
  | setConfig (config : StaConfig)
  | dhcpcStart
  | dhcpcStop
  | setIpInfo (info : IpInfo)
  | setDnsInfo (slot : DnsSlot) (addr : UInt32)
  | start
  | stop
  | connect
  | disconnect

inductive Event where
  | staStart
  | staStop
  | staDisconnected
  | homeChannelChange
  | staConnected (payload : StaConnected)
  | staGotIp (info : IpInfo) (dns1 dns2 dns3 : UInt32)
  | unhandled

def clipped (n : ℕ) (s : Bytes) : Packed n := padded n (s.take n) (List.length_take_le n s)

def applyNetIf (b : NvmMainBody) : List Request :=
  if b.ip ≠ 0 then
    [.dhcpcStop, .setIpInfo ⟨b.ip, b.netmask, b.gateway⟩, .setDnsInfo .main b.dns1,
      .setDnsInfo .backup b.dns2, .setDnsInfo .fallback b.dns3]
  else [.dhcpcStart]

def start (b : NvmMainBody) (behind : Bytes) (w : EspWifi) : EspWifi × List Request :=
  if w.started then (w, [])
  else
    let config := ⟨clipped 32 (getWifiSsid b behind), clipped 64 (getWifiPasswd b behind)⟩
    ({ w with started := true, config := config },
      [.setMode, .setConfig config] ++ applyNetIf b ++ [.start])

def stop (w : EspWifi) : EspWifi × List Request :=
  if !w.started then (w, []) else ({ w with started := false }, [.stop])

/-- `rssi` is what the driver answers, if it does. -/
def getRssi (rssi : Option ℤ) (w : EspWifi) : ℤ := if w.started then rssi.getD 0 else 0

def zeroConnected : StaConnected := ⟨.zero 32, 0, fun _ => 0, 0⟩

def idleStation : EspWifi := ⟨false, ⟨.zero 32, .zero 64⟩, zeroConnected, ⟨0, 0, 0⟩, 0, 0, 0⟩

def resetStatus (w : EspWifi) : EspWifi :=
  { w with
    staConnected := zeroConnected
    ipInfo := ⟨0, 0, 0⟩
    dns1Info := 0
    dns2Info := 0
    dns3Info := 0 }

def gotStaStart (w : EspWifi) : EspWifi × List Request := ({ w with started := true }, [.connect])

def gotStaStop (w : EspWifi) : EspWifi × List Request :=
  ({ w with started := false }, [.disconnect])

def gotStaDisconnected (w : EspWifi) : EspWifi × List Request :=
  (resetStatus w, if w.started then [.connect] else [])

def gotHomeChannelChange (w : EspWifi) : EspWifi × List Request := (w, [])

def gotStaConnected (payload : StaConnected) (w : EspWifi) : EspWifi × List Request :=
  ({ w with staConnected := payload }, [])

def gotStaGotIp (info : IpInfo) (dns1 dns2 dns3 : UInt32) (w : EspWifi) :
    EspWifi × List Request :=
  ({ w with ipInfo := info, dns1Info := dns1, dns2Info := dns2, dns3Info := dns3 }, [])

def espEventHandler (w : EspWifi) : Event → EspWifi × List Request
  | .staStart => gotStaStart w
  | .staStop => gotStaStop w
  | .staDisconnected => gotStaDisconnected w
  | .homeChannelChange => gotHomeChannelChange w
  | .staConnected payload => gotStaConnected payload w
  | .staGotIp info dns1 dns2 dns3 => gotStaGotIp info dns1 dns2 dns3 w
  | .unhandled => (w, [])

end MeshRoofFirmware.WifiStation
