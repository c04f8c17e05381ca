import MeshRoofFirmware.WifiStation

set_option autoImplicit false

namespace MeshRoofFirmware.StatusReport
open Library.ByteCodec Library.ByteBlock Library.CText NvmLayout ConfigFields WifiStation

/-- The members read through the SSID pointer, as they lie in memory. -/
def connectedMemory (e : StaConnected) : Bytes :=
  e.ssid.bytes ++ [e.ssidLen] ++ List.ofFn e.bssid ++ [e.channel]

/-- The local `char ssid[40]`, printed up to its first NUL; `stack` lies behind it. -/
def ssidText (stack : Bytes) (e : StaConnected) : Bytes :=
  cString (filled 40 ((connectedMemory e).take (min e.ssidLen.toNat 40)) ++ stack)

def bssidText (bssid : Fin 6 → UInt8) : Bytes :=
  (ascii ":").intercalate ((List.ofFn bssid).map hexByte)

def shellWifi (stack : Bytes) (rssi : Option ℤ) (w : EspWifi) : List Bytes :=
  let staConnected := w.staConnected
  if staConnected.bssid 0 = 0 then [ascii "Wifi not connected\n"]
  else
    [ascii "ssid: " ++ ssidText stack staConnected ++ ascii "\n",
      ascii "bssid: " ++ bssidText staConnected.bssid ++ ascii "\n",
      ascii "channel: " ++ decimal staConnected.channel.toNat ++ ascii "\n",
      ascii "rssi: " ++ signedDecimal (getRssi rssi w) ++ ascii "\n"]

def handleWifi (stack : Bytes) (rssi : Option ℤ) (w : EspWifi) : Bytes :=
  let staConnected := w.staConnected
  if staConnected.bssid 0 = 0 then ascii "Wifi not connected"
  else
    ascii "Wifi is connected" ++ ascii "\n" ++
      ascii "ssid: " ++ ssidText stack staConnected ++ ascii "\n" ++
      snprintf (40 - 1) (ascii "bssid: " ++ bssidText staConnected.bssid) ++ ascii "\n" ++
      ascii "channel: " ++ decimal staConnected.channel.toNat ++ ascii "\n" ++
      ascii "rssi: " ++ signedDecimal (getRssi rssi w)

def shellNet (b : NvmMainBody) (w : EspWifi) : List Bytes :=
  [if b.ip = 0 then ascii "(dhcp)\n" else ascii "(static ip)\n",
    ascii "ip:      " ++ dotted w.ipInfo.ip ++ ascii "\n",
    ascii "netmask: " ++ dotted w.ipInfo.netmask ++ ascii "\n",
    ascii "gateway: " ++ dotted w.ipInfo.gw ++ ascii "\n",
    ascii "dns1:    " ++ dotted w.dns1Info ++ ascii "\n",
    ascii "dns2:    " ++ dotted w.dns2Info ++ ascii "\n",
    ascii "dns3:    " ++ dotted w.dns3Info ++ ascii "\n"]

def leadingOctet (e : StaConnected) : UInt8 := e.bssid 0

structure NetReply where
  reply : Bytes
  console : List Bytes

def handleNet (b : NvmMainBody) (w : EspWifi) : NetReply :=
  let line (label : Bytes) (addr : UInt32) := snprintf (80 - 1) (label ++ dotted addr)
  ⟨line (ascii "ip:      ") w.ipInfo.ip ++ ascii "\n" ++
      line (ascii "netmask: ") w.ipInfo.netmask ++ ascii "\n" ++
      line (ascii "gateway: ") w.ipInfo.gw ++ ascii "\n" ++
      line (ascii "dns1:    ") w.dns1Info ++ ascii "\n" ++
      line (ascii "dns2:    ") w.dns2Info ++ ascii "\n" ++
      line (ascii "dns3:    ") w.dns3Info,
    [if b.ip = 0 then ascii "(dhcp)\n" else ascii "(static ip)\n"]⟩

theorem ssidText_of_short (stack : Bytes) {e : StaConnected} (h : e.ssidLen.toNat ≤ 32) :
    ssidText stack e = cString (e.ssid.bytes.take e.ssidLen.toNat) := by
  have hmin : min e.ssidLen.toNat 40 = e.ssidLen.toNat := by omega
  have htake : (connectedMemory e).take e.ssidLen.toNat =
      e.ssid.bytes.take e.ssidLen.toNat := by
    rw [connectedMemory, List.append_assoc, List.append_assoc]
    exact List.take_append_of_le_length (by rw [e.ssid.width]; exact h)
  have hshort : (e.ssid.bytes.take e.ssidLen.toNat).length < 40 := by
    rw [List.length_take, e.ssid.width]
    omega
  rw [ssidText, hmin, htake, cString_filled hshort]

def link? : Event → Option (Option StaConnected)
  | .staConnected payload => some (some payload)
  | .staDisconnected => some none
  | _ => none

def lastLink (events : List Event) : Option (Option StaConnected) :=
  (events.filterMap link?).getLast?

def delivered (w : EspWifi) (events : List Event) : EspWifi :=
  events.foldl (fun w e => (espEventHandler w e).1) w

theorem handler_staConnected (w : EspWifi) (e : Event) :
    (espEventHandler w e).1.staConnected =
      ((link? e).map (fun link => link.getD zeroConnected)).getD w.staConnected := by
  cases e <;> rfl

theorem delivered_staConnected (w : EspWifi) (events : List Event) :
    (delivered w events).staConnected =
      ((lastLink events).map (fun link => link.getD zeroConnected)).getD w.staConnected := by
  induction events generalizing w with
  | nil => rfl
  | cons e events ih =>
    have htail := ih (espEventHandler w e).1
    rw [handler_staConnected] at htail
    change (delivered (espEventHandler w e).1 events).staConnected = _
    rw [htail, lastLink, lastLink, List.filterMap_cons]
    cases link? e with
    | none => rfl
    | some link =>
      simp only [List.getLast?_cons]
      cases (events.filterMap link?).getLast? with
      | none => rfl
      | some last => rfl

/-- Both reports show this association, or none. -/
def Reports (w : EspWifi) (link : Option StaConnected) : Prop :=
  ∀ stack rssi, match link with
  | none => shellWifi stack rssi w = [ascii "Wifi not connected\n"] ∧
      handleWifi stack rssi w = ascii "Wifi not connected"
  | some e =>
      shellWifi stack rssi w =
        [ascii "ssid: " ++ cString (e.ssid.bytes.take e.ssidLen.toNat) ++ ascii "\n",
          ascii "bssid: " ++ bssidText e.bssid ++ ascii "\n",
          ascii "channel: " ++ decimal e.channel.toNat ++ ascii "\n",
          ascii "rssi: " ++ signedDecimal (getRssi rssi w) ++ ascii "\n"] ∧
      handleWifi stack rssi w =
        ascii "Wifi is connected\nssid: " ++ cString (e.ssid.bytes.take e.ssidLen.toNat) ++
          ascii "\nbssid: " ++ bssidText e.bssid ++
          ascii "\nchannel: " ++ decimal e.channel.toNat ++
          ascii "\nrssi: " ++ signedDecimal (getRssi rssi w)

theorem bssidText_length (bssid : Fin 6 → UInt8) : (bssidText bssid).length = 17 := rfl

theorem reports_none_iff (w : EspWifi) : Reports w none ↔ w.staConnected.bssid 0 = 0 := by
  constructor
  · intro h
    by_contra hne
    have hshell := (h [] none).1
    rw [shellWifi, if_neg hne] at hshell
    cases hshell
  · intro h stack rssi
    exact ⟨if_pos h, if_pos h⟩

theorem reports_some_iff {w : EspWifi} {e : StaConnected} (hw : w.staConnected = e)
    (hshort : e.ssidLen.toNat ≤ 32) : Reports w (some e) ↔ e.bssid 0 ≠ 0 := by
  constructor
  · intro h hzero
    have hshell := (h [] none).1
    rw [shellWifi, hw, if_pos hzero] at hshell
    cases hshell
  · intro h stack rssi
    have hline : snprintf (40 - 1) (ascii "bssid: " ++ bssidText e.bssid) =
        ascii "bssid: " ++ bssidText e.bssid := by
      apply List.take_of_length_le
      rw [List.length_append, bssidText_length]
      decide
    have hbreak : ascii "Wifi is connected\nssid: " =
        ascii "Wifi is connected" ++ ascii "\n" ++ ascii "ssid: " := by decide
    have hbssid : ascii "\nbssid: " = ascii "\n" ++ ascii "bssid: " := by decide
    have hchannel : ascii "\nchannel: " = ascii "\n" ++ ascii "channel: " := by decide
    have hrssi : ascii "\nrssi: " = ascii "\n" ++ ascii "rssi: " := by decide
    constructor
    · simp only [shellWifi, hw, if_neg h, ssidText_of_short stack hshort]
    · simp only [handleWifi, hw, if_neg h, ssidText_of_short stack hshort, hline, hbreak, hbssid,
        hchannel, hrssi, List.append_assoc]

/-- The reports take the first byte of the stored BSSID for the association itself. -/
theorem reports_follow_iff (garbage : EspWifi) (events : List Event)
    (hssid : ∀ e, Event.staConnected e ∈ events → e.ssidLen.toNat ≤ 32) :
    Reports (delivered (construct garbage) events) (lastLink events).join ↔
      (lastLink events = none → garbage.staConnected.bssid 0 = 0) ∧
        ∀ e, lastLink events = some (some e) → e.bssid 0 ≠ 0 := by
  have hstate := delivered_staConnected (construct garbage) events
  cases hlast : lastLink events with
  | none =>
    rw [hlast] at hstate
    change Reports _ none ↔ _
    rw [reports_none_iff, hstate]
    exact ⟨fun h => ⟨fun _ => h, nofun⟩, fun h => h.1 rfl⟩
  | some link =>
    rw [hlast] at hstate
    cases link with
    | none =>
      change Reports _ none ↔ _
      rw [reports_none_iff, hstate]
      exact ⟨fun _ => ⟨nofun, nofun⟩, fun _ => rfl⟩
    | some e =>
      have hmem : Event.staConnected e ∈ events := by
        obtain ⟨event, hevent, hlink⟩ := List.mem_filterMap.mp (List.mem_of_getLast? hlast)
        cases event with
        | staConnected payload =>
          cases hlink
          exact hevent
        | _ => cases hlink
      change _ = e at hstate
      change Reports _ (some e) ↔ _
      rw [reports_some_iff hstate (hssid e hmem)]
      refine ⟨fun h => ⟨nofun, ?_⟩, fun h => h.2 e rfl⟩
      intro d hd
      cases hd
      exact h

def accessPoint (first : UInt8) : StaConnected :=
  ⟨padded 32 (ascii "roof") (by decide), 4, fun i => if i = 0 then first else 0x5e, 6⟩

def roaming : List Event :=
  [.staStart, .staConnected (accessPoint 0x10), .staGotIp ⟨1, 2, 3⟩ 4 5 6, .staDisconnected,
    .staConnected (accessPoint 0x20)]

theorem reports_follow_roaming :
    Reports (delivered (construct idleStation) roaming) (lastLink roaming).join ↔
      (lastLink roaming = none → idleStation.staConnected.bssid 0 = 0) ∧
        ∀ e, lastLink roaming = some (some e) → e.bssid 0 ≠ 0 := by
  apply reports_follow_iff idleStation
  intro e he
  simp only [roaming, List.mem_cons, List.not_mem_nil, or_false, reduceCtorEq, false_or,
    Event.staConnected.injEq] at he
  rcases he with rfl | rfl <;> decide

theorem zero_octet_not_reported :
    lastLink [.staConnected (accessPoint 0)] = some (some (accessPoint 0)) ∧
      (accessPoint 0).ssidLen.toNat ≤ 32 ∧
      shellWifi [] none (delivered (construct idleStation) [.staConnected (accessPoint 0)]) =
        [ascii "Wifi not connected\n"] ∧
      handleWifi [] none (delivered (construct idleStation) [.staConnected (accessPoint 0)]) =
        ascii "Wifi not connected" :=
  ⟨rfl, by decide, rfl, rfl⟩

end MeshRoofFirmware.StatusReport
