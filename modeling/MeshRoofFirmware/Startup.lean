import MeshRoofFirmware.Library.TryAll
import MeshRoofFirmware.DeviceSession
import MeshRoofFirmware.Credentials

set_option autoImplicit false

namespace MeshRoofFirmware.Startup
open Library.ByteCodec Library.ByteBlock Library.CText Library.TryAll
open NvmLayout NvsFlash NvmSave NvmLoad NvmRoundTrip DeviceSession Credentials WifiStation
open ShellConfig
variable {sz : EntrySizes} {σ : Type}

inductive InitResult where
  | ok
  | noFreePages
  | newVersionFound
  | failed
  deriving DecidableEq

/-- `nvs_flash_init` in `app_main`; `none` where `ESP_ERROR_CHECK` stops the program. -/
def initFlash (first : InitResult) (erased : Bool) (second : InitResult) (flash : Flash) :
    Option Flash :=
  if first = .noFreePages ∨ first = .newVersionFound then
    if erased then if second = .ok then some blankFlash else none else none
  else if first = .ok then some flash else none

structure HomeChat (σ : Type) (sz : EntrySizes) where
  clearAuthchansAdminsMates : σ → σ
  addAuthChannel : Packed sz.authchan → σ → Bool × σ
  addAdmin : Packed sz.admin → σ → Bool × σ
  addMate : Packed sz.mate → σ → Bool × σ

def applyNvmToHomeChat (h : HomeChat σ sz) (c : Configuration sz) (chat : σ) : Bool × σ :=
  let acc := (true, h.clearAuthchansAdminsMates chat)
  let acc := tryAll h.addAuthChannel c.authchans.entries acc
  let acc := tryAll h.addAdmin c.admins.entries acc
  tryAll h.addMate c.mates.entries acc

structure PowerOn where
  first : InitResult
  erased : Bool
  second : InitResult
  boot : BootFaults
  behind : Bytes
  station : EspWifi

structure Started (σ : Type) (sz : EntrySizes) where
  device : Device sz
  chat : σ
  station : EspWifi
  requests : List Request

/-- `app_main` and `meshtastic_task` up to the loop. The result of `applyNvmToHomeChat` is not
looked at. -/
def startUp (h : HomeChat σ sz) (on : PowerOn) (chat : σ) (flash : Flash) :
    Option (Started σ sz) :=
  (initFlash on.first on.erased on.second flash).map fun flash =>
    let device := bootDevice sz on.boot flash
    let applied := applyNvmToHomeChat h device.configuration chat
    let (station, requests) := start device.configuration.mainBody on.behind (construct on.station)
    ⟨device, applied.2, station, requests⟩

inductive ChatEntry (sz : EntrySizes) where
  | authchan (entry : Packed sz.authchan)
  | admin (entry : Packed sz.admin)
  | mate (entry : Packed sz.mate)

def HomeChat.add (h : HomeChat σ sz) : ChatEntry sz → σ → Bool × σ
  | .authchan entry => h.addAuthChannel entry
  | .admin entry => h.addAdmin entry
  | .mate entry => h.addMate entry

def chatEntries (c : Configuration sz) : List (ChatEntry sz) :=
  c.authchans.entries.map .authchan ++ c.admins.entries.map .admin ++ c.mates.entries.map .mate

theorem apply_eq (h : HomeChat σ sz) (c : Configuration sz) (chat : σ) :
    applyNvmToHomeChat h c chat =
      tryAll h.add (chatEntries c) (true, h.clearAuthchansAdminsMates chat) := by
  rw [chatEntries, tryAll_append, tryAll_append, tryAll_map, tryAll_map, tryAll_map]
  rfl

theorem chatEntries_same {c d : Configuration sz} (h : SameLists c d) :
    chatEntries c = chatEntries d := by
  obtain ⟨hauthchans, hadmins, hmates⟩ := h
  rw [chatEntries, chatEntries, hauthchans, hadmins, hmates]

/-- The loops go through all three lists whatever is refused, and their result tells whether
every entry was accepted. -/
theorem apply_result_iff (h : HomeChat σ sz) (c : Configuration sz) (chat : σ) :
    let cleared := h.clearAuthchansAdminsMates chat
    (applyNvmToHomeChat h c chat).2 = addAll h.add (chatEntries c) cleared ∧
      ((applyNvmToHomeChat h c chat).1 = true ↔
        ∀ done e todo, chatEntries c = done ++ e :: todo →
          (h.add e (addAll h.add done cleared)).1 = true) := by
  intro cleared
  rw [apply_eq]
  refine ⟨tryAll_state h.add (chatEntries c) true cleared, ?_⟩
  rw [tryAll_result_iff]
  exact ⟨fun hall => hall.2, fun hall => ⟨rfl, hall⟩⟩

section Session
variable {c : Configuration sz} {flash : Flash} {as : List Action} {on : PowerOn}

theorem startUp_session (hfit : c.total ≤ flashTargetSize) (hclean : ∀ a ∈ as, a.Clean)
    (hfirst : on.first = .ok) (hboot : on.boot.load = .none) (h : HomeChat σ sz) (chat : σ) :
    ∃ r : Started σ sz, startUp h on chat (session (savedDevice flash c) as).flash = some r ∧
      SameLists r.device.configuration c ∧
      (∀ f, r.device.configuration.mainBody.field f =
        ((copiesOf c).after (as.flatMap Action.ops)).saved f) ∧
      r.chat = (applyNvmToHomeChat h r.device.configuration chat).2 ∧
      (r.station, r.requests) =
        start r.device.configuration.mainBody on.behind (construct on.station) := by
  obtain ⟨d, hstored, hlists, hsaved⟩ := (saved_session_mirrors hfit flash hclean).stored
  have hdevice : bootDevice sz on.boot (session (savedDevice flash c) as).flash =
      ⟨d, (session (savedDevice flash c) as).flash⟩ :=
    boot_stored hstored (hlists.total ▸ hfit) hlists.total.le hboot
  have hinit : initFlash on.first on.erased on.second (session (savedDevice flash c) as).flash =
      some (session (savedDevice flash c) as).flash := by
    rw [hfirst]
    rfl
  rw [startUp, hinit, Option.map_some, hdevice]
  exact ⟨_, rfl, hlists, hsaved, rfl, rfl⟩

end Session

/-- After any session a restart hands the chat exactly the entries that were saved with the
device, in their order, whatever the chat refuses. -/
theorem startUp_chat {c : Configuration sz} (hfit : c.total ≤ flashTargetSize) {flash : Flash}
    {as : List Action} (hclean : ∀ a ∈ as, a.Clean) {on : PowerOn} (hfirst : on.first = .ok)
    (hboot : on.boot.load = .none) (h : HomeChat σ sz) (chat : σ) :
    ∃ r : Started σ sz, startUp h on chat (session (savedDevice flash c) as).flash = some r ∧
      r.chat = addAll h.add (chatEntries c) (h.clearAuthchansAdminsMates chat) := by
  obtain ⟨r, hstart, hlists, -, hchat, -⟩ := startUp_session hfit hclean hfirst hboot h chat
  refine ⟨r, hstart, ?_⟩
  rw [hchat, apply_eq, tryAll_state, chatEntries_same hlists]

def smallChat : HomeChat (List Bytes) sampleSizes where
  clearAuthchansAdminsMates _ := []
  addAuthChannel entry names :=
    if names.isEmpty then (true, [entry.bytes.take 8]) else (false, names)
  addAdmin _ names := (true, names)
  addMate _ names := (true, names)

def coldStart : PowerOn := ⟨.ok, true, .ok, cleanBoot, [], idleStation⟩

theorem channels_fit : (channels 2 (by decide)).total ≤ flashTargetSize := by
  rw [channels_total]
  decide

theorem startUp_chat_small : ∃ r : Started (List Bytes) sampleSizes,
    startUp smallChat coldStart [ascii "old"]
        (session (savedDevice blankFlash (channels 2 (by decide))) roughActions).flash = some r ∧
      r.chat = addAll smallChat.add (chatEntries (channels 2 (by decide)))
        (smallChat.clearAuthchansAdminsMates [ascii "old"]) ∧
      r.chat = [List.replicate 8 0] := by
  obtain ⟨r, hstart, hchat⟩ : ∃ r : Started (List Bytes) sampleSizes,
      startUp smallChat coldStart [ascii "old"]
        (session (savedDevice blankFlash (channels 2 (by decide))) roughActions).flash = some r ∧
      r.chat = addAll smallChat.add (chatEntries (channels 2 (by decide)))
        (smallChat.clearAuthchansAdminsMates [ascii "old"]) :=
    startUp_chat channels_fit roughActions_clean rfl rfl smallChat [ascii "old"]
  exact ⟨r, hstart, hchat, hchat.trans (by decide)⟩

/-- After any session a restart configures the station with the credentials and the static
address that were reported as ok last. -/
theorem startUp_configures {c : Configuration sz} (hfit : c.total ≤ flashTargetSize) {flash : Flash}
    {as : List Action} (hclean : ∀ a ∈ as, a.Clean) {on : PowerOn} (hfirst : on.first = .ok)
    (hboot : on.boot.load = .none) {s p : Bytes} (hs : 0 ∉ s) (hp : 0 ∉ p) (hslen : s.length ≤ 32)
    (hplen : p.length ≤ 64) (hssid : Confirmed flash c as .wifiSsid (filled 32 s))
    (hpasswd : Confirmed flash c as .wifiPasswd (filled 64 p)) {ip netmask gateway : UInt32}
    (hip : Confirmed flash c as .ip (Codec.word32 ip).bytes)
    (hnetmask : Confirmed flash c as .netmask (Codec.word32 netmask).bytes)
    (hgateway : Confirmed flash c as .gateway (Codec.word32 gateway).bytes) (hstatic : ip ≠ 0)
    (h : HomeChat σ sz) (chat : σ) :
    ∃ r : Started σ sz, startUp h on chat (session (savedDevice flash c) as).flash = some r ∧
      r.station.config.ssid.bytes = filled 32 s ∧ r.station.config.password.bytes = filled 64 p ∧
      ∃ dns, r.requests = [.setMode, .setConfig r.station.config, .dhcpcStop,
        .setIpInfo ⟨ip, netmask, gateway⟩] ++ dns ++ [.start] ∧ .dhcpcStart ∉ dns := by
  obtain ⟨r, hstart, -, hfields, -, hstation⟩ := startUp_session hfit hclean hfirst hboot h chat
  have hfield {f : Field} {bytes : Bytes} (hf : Confirmed flash c as f bytes) :
      r.device.configuration.mainBody.field f = bytes :=
    (hfields f).trans (confirmed_copies hfit hclean hf).2
  have hipWord : r.device.configuration.mainBody.ip = ip := word32_field (hfield hip)
  have hnetmaskWord : r.device.configuration.mainBody.netmask = netmask :=
    word32_field (hfield hnetmask)
  have hgatewayWord : r.device.configuration.mainBody.gateway = gateway :=
    word32_field (hfield hgateway)
  have hidle : ¬ (construct on.station).started = true := Bool.false_ne_true
  rw [start, if_neg hidle, applyNetIf, hipWord, if_pos hstatic, hnetmaskWord, hgatewayWord] at hstation
  obtain ⟨hmember, hrequests⟩ := Prod.mk.inj hstation
  refine ⟨r, hstart, ?_, ?_, [.setDnsInfo .main r.device.configuration.mainBody.dns1,
    .setDnsInfo .backup r.device.configuration.mainBody.dns2,
    .setDnsInfo .fallback r.device.configuration.mainBody.dns3], ?_, by simp⟩
  · rw [hmember]
    exact clipped_getter (k := .wifiSsid) hs hslen (hfield hssid) on.behind
  · rw [hmember]
    exact clipped_getter (k := .wifiPasswd) hp hplen (hfield hpasswd) on.behind
  · rw [hrequests, hmember]
    rfl

def staticLine : Line :=
  ⟨.net, [ascii "net", ascii "ip", ascii "10.0.0.1", ascii "netmask", ascii "10.0.0.1", ascii "gw",
    ascii "10.0.0.1"], sampleEnv, .none⟩

def setUpActions : List Action :=
  [.line (ssidLine (ascii "roof") .none), .line (passwdLine (ascii "secret") .none),
    .line staticLine,
    .cut ⟨.net, [ascii "net", ascii "dns1", ascii "10.0.0.1"], sampleEnv, .none⟩ 3 cleanBoot]

theorem setUpActions_clean : ∀ a ∈ setUpActions, a.Clean := by
  simp only [setUpActions, List.forall_mem_cons]
  exact ⟨trivial, trivial, trivial, rfl, List.forall_mem_nil _⟩

theorem startUp_configures_setUp : ∃ r : Started (List Bytes) sampleSizes,
    startUp smallChat coldStart []
        (session (savedDevice blankFlash (freshConfiguration sampleSizes)) setUpActions).flash = some r ∧
      r.station.config.ssid.bytes = filled 32 (ascii "roof") ∧
      r.station.config.password.bytes = filled 64 (ascii "secret") ∧
      ∃ dns, r.requests = [.setMode, .setConfig r.station.config, .dhcpcStop,
        .setIpInfo ⟨0x0100000a, 0x0100000a, 0x0100000a⟩] ++ dns ++ [.start] ∧ .dhcpcStart ∉ dns := by
  have hnone : ∀ a ∈ ([] : List Action), a.Clean := List.forall_mem_nil _
  have hone : ∀ a ∈ [Action.line (ssidLine (ascii "roof") .none)], a.Clean := by
    simp only [List.forall_mem_cons]
    exact ⟨trivial, List.forall_mem_nil _⟩
  have htwo : ∀ a ∈ [Action.line (ssidLine (ascii "roof") .none),
      .line (passwdLine (ascii "secret") .none)], a.Clean := by
    simp only [List.forall_mem_cons]
    exact ⟨trivial, trivial, List.forall_mem_nil _⟩
  have hssid : Confirmed blankFlash (freshConfiguration sampleSizes) setUpActions .wifiSsid
      (filled 32 (ascii "roof")) := by
    refine confirmed_line fresh_fits blankFlash hnone (.ssid _ _) (by decide) rfl
      (List.mem_singleton_self _) rfl ?_
    simp only [List.forall_mem_cons]
    exact ⟨by decide, by decide, by decide, List.forall_mem_nil _⟩
  have hpasswd : Confirmed blankFlash (freshConfiguration sampleSizes) setUpActions .wifiPasswd
      (filled 64 (ascii "secret")) := by
    refine confirmed_line fresh_fits blankFlash hone (.passwd _ _) (by decide) rfl
      (List.mem_singleton_self _) rfl ?_
    simp only [List.forall_mem_cons]
    exact ⟨by decide, by decide, List.forall_mem_nil _⟩
  have hstatic {f : Field} (hf : f = .ip ∨ f = .netmask ∨ f = .gateway) :
      Confirmed blankFlash (freshConfiguration sampleSizes) setUpActions f
        (Codec.word32 0x0100000a).bytes := by
    have hset : (f, ascii "10.0.0.1") ∈ staticLine.settings := by
      rcases hf with rfl | rfl | rfl <;> decide
    refine confirmed_line fresh_fits blankFlash htwo (.static _ _ _ _ _ (Or.inr rfl)) (by decide) rfl
      hset ?_ ?_
    · rcases hf with rfl | rfl | rfl <;> decide
    · simp only [List.forall_mem_cons]
      refine ⟨?_, List.forall_mem_nil _⟩
      rcases hf with rfl | rfl | rfl <;> decide
  exact startUp_configures fresh_fits setUpActions_clean rfl rfl (by decide) (by decide) (by decide)
    (by decide) hssid hpasswd (hstatic (Or.inl rfl)) (hstatic (Or.inr (Or.inl rfl)))
    (hstatic (Or.inr (Or.inr rfl))) (by decide) smallChat []

theorem initFlash_cases {first second : InitResult} {erased : Bool} {flash ready : Flash}
    (h : initFlash first erased second flash = some ready) :
    (first = .ok ∧ ready = flash) ∨ (first ≠ .ok ∧ ready = blankFlash) := by
  unfold initFlash at h
  split_ifs at h with herase _ _ hfirst
  · cases h
    refine Or.inr ⟨?_, rfl⟩
    rcases herase with rfl | rfl <;> decide
  · cases h
    exact Or.inl ⟨hfirst, rfl⟩

theorem boot_blank (boot : BootFaults) :
    (bootDevice sz boot blankFlash).configuration = freshConfiguration sz := by
  have hload : (loadNvm boot.garbage boot.load blankFlash (freshConfiguration sz)).result = false ∧
      (loadNvm boot.garbage boot.load blankFlash (freshConfiguration sz)).configuration =
        freshConfiguration sz := by
    rcases loadNvm_cases boot.garbage boot.load blankFlash (freshConfiguration sz) with
      ⟨hexit, hconf, -⟩ | ⟨-, blob, hdelivers, -⟩
    · exact ⟨Bool.eq_false_iff.mpr (mt (result_iff_loaded _).mp hexit), hconf⟩
    · cases hdelivers.1
  rw [bootDevice, if_pos hload.1, hload.2]
  exact saveNvm_configuration boot.save (freshConfiguration sz)

/-- A stored configuration survives a restart exactly if the flash needs no erasing; otherwise
the device starts with the fresh one. -/
theorem startUp_keeps_iff {flash : Flash} {d : Configuration sz} (hstored : Stored flash d.total d)
    (hfit : d.total ≤ flashTargetSize) (hfresh : d ≠ freshConfiguration sz) {on : PowerOn}
    (hboot : on.boot.load = .none) {h : HomeChat σ sz} {chat : σ} {r : Started σ sz}
    (hstart : startUp h on chat flash = some r) :
    (r.device.configuration = d ↔ on.first = .ok) ∧
      (on.first ≠ .ok → r.device.configuration = freshConfiguration sz) := by
  obtain ⟨ready, hready, rfl⟩ := Option.map_eq_some_iff.mp hstart
  change ((bootDevice sz on.boot ready).configuration = d ↔ _) ∧
    (_ → (bootDevice sz on.boot ready).configuration = _)
  rcases initFlash_cases hready with ⟨hfirst, rfl⟩ | ⟨hfirst, rfl⟩
  · rw [boot_stored hstored hfit le_rfl hboot]
    exact ⟨iff_of_true rfl hfirst, fun hne => absurd hfirst hne⟩
  · rw [boot_blank]
    exact ⟨iff_of_false (fun e => hfresh e.symm) hfirst, fun _ => rfl⟩

theorem startUp_keeps_erased :
    let on := { coldStart with first := .noFreePages }
    ∃ r : Started (List Bytes) sampleSizes, startUp smallChat on []
        (blankFlash.after (saveNvm .none (channels 1 (by decide))).calls) = some r ∧
      (r.device.configuration = (channels 1 (by decide)).countEntries ↔ on.first = .ok) ∧
      (on.first ≠ .ok → r.device.configuration = freshConfiguration sampleSizes) := by
  intro on
  have htotal : (channels 1 (by decide)).total = 224 := channels_total 1 (by decide)
  have hlt : (channels 1 (by decide)).total < addressSpace := by
    rw [htotal]
    decide
  have hfit : (channels 1 (by decide)).countEntries.total ≤ flashTargetSize := by
    rw [countEntries_total, htotal]
    decide
  have hfresh : (channels 1 (by decide)).countEntries ≠ freshConfiguration sampleSizes := by
    intro h
    have hlength := congrArg (fun c : Configuration sampleSizes => c.authchans.entries.length) h
    exact absurd hlength (by decide)
  exact ⟨_, rfl, startUp_keeps_iff (save_stored hlt blankFlash) hfit hfresh rfl rfl⟩

end MeshRoofFirmware.Startup
