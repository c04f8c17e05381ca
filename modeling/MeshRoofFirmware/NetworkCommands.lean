import MeshRoofFirmware.DeviceSession
import MeshRoofFirmware.ConsoleInterleaving
import MeshRoofFirmware.WifiCommands

set_option autoImplicit false

/-! The configuration commands together with the station they drive. A command calls the station
after it has changed and saved the configuration; the driver and the other console may do
something before each of its calls. -/
namespace MeshRoofFirmware.NetworkCommands
open Library.ByteCodec Library.ByteBlock Library.CText Library.Runs Library.CachedSwitch
open Library.TwoCopies NvmLayout NvsFlash NvmRoundTrip ConfigFields WifiStation ShellConfig
open WifiCommands hiding Step step initial
open DeviceSession hiding step
open ConsoleInterleaving (Console)
variable {sz : EntrySizes}

structure NetIf where
  dhcpc : Bool
  info : IpInfo
  dns : DnsSlot → UInt32

def NetIf.perform (n : NetIf) : Request → NetIf
  | .dhcpcStart => { n with dhcpc := true }
  | .dhcpcStop => { n with dhcpc := false }
  | .setIpInfo info => { n with info := info }
  | .setDnsInfo slot addr => { n with dns := Function.update n.dns slot addr }
  | _ => n

def given (config : Option StaConfig) : Request → Option StaConfig
  | .setConfig new => some new
  | _ => config

/-- Beside the device: the calls that the command on each console has still to make. -/
structure Network (sz : EntrySizes) where
  device : Device sz
  wifi : Wifi
  netif : NetIf
  config : Option StaConfig
  pending : Console → List StationCall

def stationCall (b : NvmMainBody) (behind : Bytes) :
    StationCall → EspWifi → EspWifi × List Request
  | .start => start b behind
  | .stop => stop
  | .applyNetIf => fun w => (w, applyNetIf b)

def Network.call (s : Network sz) (f : EspWifi → EspWifi × List Request) : Network sz :=
  { s with
    wifi := s.wifi.apply f
    netif := (f s.wifi.station).2.foldl NetIf.perform s.netif
    config := (f s.wifi.station).2.foldl given s.config }

def Network.awaits (s : Network sz) (k : Console) (calls : List StationCall) : Network sz :=
  { s with pending := Function.update s.pending k calls }

theorem awaits_self (s : Network sz) (k : Console) (calls : List StationCall) :
    (s.awaits k calls).pending k = calls := Function.update_self _ _ _

theorem awaits_other (s : Network sz) {j k : Console} (h : k ≠ j) (calls : List StationCall) :
    (s.awaits j calls).pending k = s.pending k := Function.update_of_ne h _ _

/-- A command on a console, which reads the station that is there. -/
def Line.at (l : Line) (w : EspWifi) : Line := { l with env := { l.env with station := w } }

/-- A command on a console up to its first call of the station, its next call, or an event or
step of the driver; the handlers neither configure the driver nor ask anything of the
interface. -/
inductive Step where
  | line (k : Console) (l : Line)
  | call (k : Console) (behind : Bytes)
  | wifi (a : WifiCommands.Step)

def step (s : Network sz) : Step → Option (Network sz)
  | .line k l =>
    if s.pending k = [] then
      let l := Line.at l s.wifi.station
      let r := l.run s.device.configuration
      some (Network.awaits { s with device := DeviceSession.step s.device (.line l) } k
        r.stationCalls)
    else none
  | .call k behind =>
    match s.pending k with
    | [] => none
    | call :: calls =>
      some ((s.awaits k calls).call (stationCall s.device.configuration.mainBody behind call))
  | .wifi a =>
    if a.wants? = none then
      (WifiCommands.step s.wifi a).map fun wifi => { s with wifi := wifi }
    else none

inductive Does (s : Network sz) : Step → Network sz → Prop
  | line (k : Console) (l : Line) (hidle : s.pending k = []) :
    Does s (.line k l) (Network.awaits
      { s with device := DeviceSession.step s.device (.line (Line.at l s.wifi.station)) } k
      ((Line.at l s.wifi.station).run s.device.configuration).stationCalls)
  | call (k : Console) (behind : Bytes) (call : StationCall) (calls : List StationCall)
    (hnext : s.pending k = call :: calls) :
    Does s (.call k behind)
      ((s.awaits k calls).call (stationCall s.device.configuration.mainBody behind call))
  | wifi (a : WifiCommands.Step) (wifi : Wifi) (hquiet : a.wants? = none)
    (hwifi : WifiCommands.step s.wifi a = some wifi) : Does s (.wifi a) { s with wifi := wifi }

theorem step_does {s t : Network sz} {a : Step} (h : step s a = some t) : Does s a t := by
  cases a with
  | line k l =>
    obtain ⟨hidle, h⟩ := Option.ite_none_right_eq_some.mp h
    cases h
    exact .line k l hidle
  | call k behind =>
    change (match s.pending k with | [] => none | call :: calls => _) = some t at h
    cases hnext : s.pending k with
    | nil =>
      rw [hnext] at h
      cases h
    | cons call calls =>
      rw [hnext] at h
      cases h
      exact .call k behind call calls hnext
  | wifi a =>
    obtain ⟨hquiet, hmap⟩ := Option.ite_none_right_eq_some.mp h
    obtain ⟨wifi, hwifi, rfl⟩ := Option.map_eq_some_iff.mp hmap
    exact .wifi a wifi hquiet hwifi

def Step.console? : Step → Option Console
  | .line k _ => some k
  | .call k _ => some k
  | .wifi _ => none

theorem pending_other {s t : Network sz} {k : Console} {acts : List Step}
    (hother : ∀ a ∈ acts, a.console? ≠ some k) (hrun : run step s acts = some t) :
    t.pending k = s.pending k := by
  have hstep (u : Network sz) (a : Step) (v : Network sz) (ha : a.console? ≠ some k)
      (hu : u.pending k = s.pending k) (huv : step u a = some v) : v.pending k = s.pending k := by
    cases step_does huv with
    | line j l hidle => exact (awaits_other _ (fun e => ha (congrArg some e.symm)) _).trans hu
    | call j behind call calls hnext =>
      exact (awaits_other u (fun e => ha (congrArg some e.symm)) calls).trans hu
    | wifi a wifi hquiet hwifi => exact hu
  exact run_invariant_of_forall hstep rfl hother hrun

/-- The interface has been asked for the addresses of the configuration, or for DHCP. -/
structure InStep (b : NvmMainBody) (n : NetIf) : Prop where
  dynamic : b.ip = 0 → n.dhcpc = true
  static : b.ip ≠ 0 → n.dhcpc = false ∧ n.info = ⟨b.ip, b.netmask, b.gateway⟩ ∧
    n.dns .main = b.dns1 ∧ n.dns .backup = b.dns2 ∧ n.dns .fallback = b.dns3

theorem applyNetIf_inStep (b : NvmMainBody) (n : NetIf) :
    InStep b ((applyNetIf b).foldl NetIf.perform n) := by
  unfold applyNetIf
  split_ifs with hip
  · exact ⟨fun h => absurd h hip, fun _ => ⟨rfl, rfl, rfl, rfl, rfl⟩⟩
  · exact ⟨fun _ => rfl, fun h => absurd h hip⟩

def staConfig (b : NvmMainBody) (behind : Bytes) : StaConfig :=
  ⟨clipped 32 (getWifiSsid b behind), clipped 64 (getWifiPasswd b behind)⟩

theorem start_netif (b : NvmMainBody) (behind : Bytes) {w : EspWifi} (hstopped : w.started = false)
    (n : NetIf) (config : Option StaConfig) :
    InStep b ((start b behind w).2.foldl NetIf.perform n) ∧
      (start b behind w).2.foldl given config = some (staConfig b behind) := by
  have hstart : (start b behind w).2 = [.setMode, .setConfig (staConfig b behind)] ++
      applyNetIf b ++ [.start] := by
    rw [start, hstopped]
    rfl
  rw [hstart]
  constructor
  · rw [List.foldl_append, List.foldl_append]
    exact applyNetIf_inStep b _
  · unfold applyNetIf
    split_ifs <;> rfl

theorem call_tracks {s : Network sz} (h : Tracks (view s.wifi)) (b : NvmMainBody) (behind : Bytes)
    (call : StationCall) : Tracks (view (s.call (stationCall b behind call)).wifi) := by
  cases call with
  | start =>
    change Tracks (view (s.wifi.apply (start b behind)))
    rw [start_view]
    exact command_tracks h true
  | stop =>
    change Tracks (view (s.wifi.apply stop))
    rw [stop_view]
    exact command_tracks h false
  | applyNetIf =>
    have hsame : s.wifi.apply (fun w => (w, applyNetIf b)) = s.wifi := by
      rw [Wifi.apply, perform_applyNetIf]
    change Tracks (view (s.wifi.apply fun w => (w, applyNetIf b)))
    rw [hsame]
    exact h

theorem step_tracks (s : Network sz) (a : Step) (t : Network sz) (h : Tracks (view s.wifi))
    (hstep : step s a = some t) : Tracks (view t.wifi) := by
  cases step_does hstep with
  | line k l hidle => exact h
  | call k behind call calls hnext => exact call_tracks (s := s.awaits k calls) h _ behind call
  | wifi a wifi hquiet hwifi =>
    obtain ⟨ms, hms, -⟩ := step_view hwifi
    exact run_tracks h hms

theorem quiet_run {s t : Network sz} {acts : List Step} (hquiet : ∀ a ∈ acts, ∃ w, a = .wifi w)
    (hrun : run step s acts = some t) :
    (t.device = s.device ∧ t.netif = s.netif ∧ t.config = s.config) ∧
      ∃ ms, run move (view s.wifi) ms = some (view t.wifi) ∧ ms.filterMap Move.command? = [] := by
  induction acts generalizing s with
  | nil =>
    cases hrun
    exact ⟨⟨rfl, rfl, rfl⟩, [], rfl, rfl⟩
  | cons a acts ih =>
    obtain ⟨u, hu, hrest⟩ := run_cons_iff.mp hrun
    obtain ⟨w, rfl⟩ := hquiet a List.mem_cons_self
    obtain ⟨hnone, hmap⟩ := Option.ite_none_right_eq_some.mp hu
    obtain ⟨wifi, hwifi, rfl⟩ := Option.map_eq_some_iff.mp hmap
    obtain ⟨ms, hms, hcommands⟩ := step_view hwifi
    rw [hnone] at hcommands
    obtain ⟨hkept, ns, hns, hlater⟩ := ih (fun b hb => hquiet b (List.mem_cons_of_mem _ hb)) hrest
    refine ⟨hkept, ms ++ ns, run_append_iff.mpr ⟨_, hms, hns⟩, ?_⟩
    rw [List.filterMap_append, hcommands, hlater]
    rfl

/-- What a step writes into `_started`. -/
def setsFlag (s : Network sz) : Step → Option Bool
  | .line _ _ => none
  | .call k _ => match s.pending k with
    | .start :: _ => some true
    | .stop :: _ => some false
    | _ => none
  | .wifi .deliver => s.wifi.driver.queue.head?.bind Event.switches?
  | .wifi _ => none

theorem step_flag {s t : Network sz} {a : Step} (h : step s a = some t) :
    t.wifi.station.started = (setsFlag s a).getD s.wifi.station.started := by
  cases step_does h with
  | line k l hidle => rfl
  | call k behind call calls hnext =>
    rw [setsFlag, hnext]
    cases call with
    | start => exact (congrArg Switch.flag (start_view _ behind s.wifi)).trans (command_flag _ true)
    | stop => exact (congrArg Switch.flag (stop_view s.wifi)).trans (command_flag _ false)
    | applyNetIf => rfl
  | wifi a wifi hquiet hwifi =>
    cases a with
    | start | stop => cases hquiet
    | deliver =>
      cases hqueue : s.wifi.driver.queue with
      | nil => simp [WifiCommands.step, hqueue] at hwifi
      | cons event rest =>
        simp only [WifiCommands.step, hqueue, Option.some.injEq] at hwifi
        rw [setsFlag, hqueue, ← hwifi]
        exact handler_started s.wifi.station event
    | associate | lose | post =>
      simp only [WifiCommands.step, Option.ite_none_right_eq_some, Option.some.injEq] at hwifi
      obtain ⟨-, rfl⟩ := hwifi
      rfl

theorem flag_of_run {s t : Network sz} {acts : List Step} (hrun : run step s acts = some t) :
    t.wifi.station.started =
      (observed step setsFlag s acts).getLast?.getD s.wifi.station.started := by
  have hstep (seen : List Bool) (u : Network sz) (a : Step) (v : Network sz)
      (hu : u.wifi.station.started = seen.getLast?.getD s.wifi.station.started)
      (huv : step u a = some v) : v.wifi.station.started =
        (seen ++ (setsFlag u a).toList).getLast?.getD s.wifi.station.started := by
    rw [step_flag huv, hu]
    cases setsFlag u a <;> simp
  have hstart : s.wifi.station.started =
      ([] : List Bool).getLast?.getD s.wifi.station.started := rfl
  exact run_observed hstep hstart hrun

def poweredOn (garbage : EspWifi) (device : Device sz) (netif : NetIf)
    (config : Option StaConfig) : Network sz :=
  ⟨device, WifiCommands.initial garbage, netif, config, fun _ => []⟩

def WifiApply (l : Line) : Prop := l.command = .wifi ∧ ∃ argv₀, l.argv = [argv₀, ascii "apply"]

theorem wifiApply_calls {l : Line} (h : WifiApply l) (w : EspWifi) (c : Configuration sz) :
    ((Line.at l w).run c).stationCalls = [.stop, .start] := by
  obtain ⟨command, argv, env, save⟩ := l
  obtain ⟨hcommand, argv₀, hargv⟩ := h
  dsimp only at hcommand hargv
  subst hcommand hargv
  rfl

theorem wifiApply_stopped {k : Console} {l : Line} (happly : WifiApply l) {mid : List Step}
    (hmid : ∀ a ∈ mid, a.console? ≠ some k) {behind : Bytes} {q u : Network sz}
    (hrun : run step q (.line k l :: mid ++ [.call k behind]) = some u) :
    u.wifi.station.started = false ∧ u.pending k = [.start] := by
  obtain ⟨r, hline, hrest⟩ := run_cons_iff.mp hrun
  obtain ⟨s, hs, hcall⟩ := run_append_iff.mp hrest
  obtain ⟨u', hu', hnil⟩ := run_cons_iff.mp hcall
  cases hnil
  have hpending : s.pending k = [.stop, .start] := by
    rw [pending_other hmid hs]
    cases step_does hline with
    | line k l hidle => exact (awaits_self _ k _).trans (wifiApply_calls happly _ _)
  cases step_does hu' with
  | call k behind call calls hnext =>
    rw [hpending] at hnext
    cases hnext
    refine ⟨?_, awaits_self s k _⟩
    exact (congrArg Switch.flag (stop_view s.wifi)).trans (command_flag _ false)

/-- A start with nothing but events behind it is heard unless it finds `_started` set while the
driver is off. -/
theorem last_start_iff {s t : Network sz} {k : Console} {behind : Bytes}
    {calls : List StationCall} {later : List Step} (htracks : Tracks (view s.wifi))
    (hpending : s.pending k = .start :: calls) (hlater : ∀ a ∈ later, ∃ w, a = .wifi w)
    (hrun : run step s (.call k behind :: later) = some t) (hdone : t.wifi.driver.queue = []) :
    ((t.wifi.station.started = true ∧ t.wifi.driver.running = true) ↔
        (s.wifi.station.started = true → s.wifi.driver.running = true)) ∧
      (s.wifi.station.started = false →
        t.config = some (staConfig t.device.configuration.mainBody behind) ∧
          InStep t.device.configuration.mainBody t.netif) := by
  obtain ⟨v, hv, hrest⟩ := run_cons_iff.mp hrun
  cases step_does hv with
  | call k behind call left hnext =>
    rw [hpending] at hnext
    cases hnext
    obtain ⟨⟨hdevice, hnetif, hconfig⟩, ms, hms, hcommands⟩ := quiet_run hlater hrest
    have hview : view ((s.awaits k calls).call (stationCall s.device.configuration.mainBody behind
        .start)).wifi = (view s.wifi).command true := start_view _ behind s.wifi
    rw [hview] at hms
    have hempty : (view t.wifi).pending = [] := by
      change t.wifi.driver.queue.filterMap Event.switches? = []
      rw [hdone]
      rfl
    have hwins := last_command_wins_iff htracks hcommands hms hempty
    refine ⟨and_comm.trans hwins, fun hoff => ?_⟩
    obtain ⟨hinStep, hgiven⟩ :=
      start_netif s.device.configuration.mainBody behind hoff s.netif s.config
    rw [hdevice, hnetif, hconfig]
    exact ⟨hgiven, hinStep⟩

/-- Whatever has happened before, and whatever happens between the two calls of `wifi apply`:
when the events after it have been delivered, the station and the driver are on exactly if its
start did not find `_started` set again while the driver was off. A start that found it off has
given the driver the credentials and the interface the addresses of the configuration. -/
theorem wifiApply_heard_iff {garbage : EspWifi} {device : Device sz} {netif : NetIf}
    {config : Option StaConfig} {k : Console} {l : Line} (happly : WifiApply l)
    {before mid between later : List Step} {stopBehind behind : Bytes} {u s t : Network sz}
    (hmid : ∀ a ∈ mid, a.console? ≠ some k) (hbetween : ∀ a ∈ between, a.console? ≠ some k)
    (hlater : ∀ a ∈ later, ∃ w, a = .wifi w)
    (hstop : run step (poweredOn garbage device netif config)
      (before ++ (.line k l :: mid ++ [.call k stopBehind])) = some u)
    (hrun : run step u between = some s)
    (hstart : run step s (.call k behind :: later) = some t)
    (hdone : t.wifi.driver.queue = []) :
    ((t.wifi.station.started = true ∧ t.wifi.driver.running = true) ↔
        ((observed step setsFlag u between).getLast? = some true → s.wifi.driver.running = true)) ∧
      ((observed step setsFlag u between).getLast? ≠ some true →
        t.config = some (staConfig t.device.configuration.mainBody behind) ∧
          InStep t.device.configuration.mainBody t.netif) := by
  have htracks : Tracks (view s.wifi) := by
    have hpower : Tracks (view (poweredOn garbage device netif config).wifi) :=
      initial_tracks garbage
    exact run_invariant step_tracks hpower (run_append_iff.mpr ⟨u, hstop, hrun⟩)
  obtain ⟨q, -, hq⟩ := run_append_iff.mp hstop
  obtain ⟨hstopped, hleft⟩ := wifiApply_stopped happly hmid hq
  have hpending : s.pending k = [.start] := (pending_other hbetween hrun).trans hleft
  -- the stop has left the flag off, so that only a later write can have set it
  have hflag : s.wifi.station.started = true ↔
      (observed step setsFlag u between).getLast? = some true := by
    rw [flag_of_run hrun, hstopped]
    cases (observed step setsFlag u between).getLast? <;> simp
  obtain ⟨hheard, hgiven⟩ := last_start_iff htracks hpending hlater hstart hdone
  rw [← hflag]
  exact ⟨hheard, fun hoff => hgiven (Bool.eq_false_iff.mpr (mt hflag.mp hoff))⟩

def freshNetwork : Network sampleSizes :=
  poweredOn idleStation ⟨freshConfiguration sampleSizes, blankFlash⟩
    ⟨true, ⟨0, 0, 0⟩, fun _ => 0⟩ none

def wifiLine (sub : String) : Line := ⟨.wifi, [ascii "wifi", ascii sub], sampleEnv, .none⟩

def applying (mid : List Step) : List Step :=
  [.line .usb (wifiLine "start"), .call .usb []] ++
    (.line .usb (wifiLine "apply") :: mid ++ [.call .usb []])

def announced : List Step := [.wifi .deliver, .line .tcp (wifiLine "nvm")]

/-- The announcement of the first start arrives after the stop, and then the second start is
swallowed; or both announcements arrive in time. -/
theorem wifiApply_heard_late :
    (∃ u s t, run step freshNetwork (applying []) = some u ∧ run step u [.wifi .deliver] = some s ∧
      run step s [.call .usb [], .wifi .deliver] = some t ∧
      ¬ (t.wifi.station.started = true ∧ t.wifi.driver.running = true)) ∧
    ∃ u s t, run step freshNetwork (applying announced) = some u ∧
      run step u [.wifi .deliver] = some s ∧
      run step s [.call .usb [], .wifi .deliver] = some t ∧
      (t.wifi.station.started = true ∧ t.wifi.driver.running = true) ∧
      t.config = some (staConfig t.device.configuration.mainBody []) ∧
      InStep t.device.configuration.mainBody t.netif := by
  have hdeliver : ∀ a ∈ [Step.wifi .deliver], a.console? ≠ some .usb := by simp [Step.console?]
  have hevent : ∀ a ∈ [Step.wifi .deliver], ∃ w, a = .wifi w :=
    fun a ha => ⟨_, List.mem_singleton.mp ha⟩
  constructor
  · obtain ⟨u, s, t, hu, hs, ht, hdone, hset, hoff⟩ : ∃ u s t,
        run step freshNetwork (applying []) = some u ∧ run step u [.wifi .deliver] = some s ∧
        run step s [.call .usb [], .wifi .deliver] = some t ∧ t.wifi.driver.queue = [] ∧
        (observed step setsFlag u [.wifi .deliver]).getLast? = some true ∧
        s.wifi.driver.running = false := ⟨_, _, _, rfl, rfl, rfl, rfl, rfl, rfl⟩
    have hiff := (wifiApply_heard_iff ⟨rfl, _, rfl⟩ (List.forall_mem_nil _) hdeliver hevent hu hs ht
      hdone).1
    refine ⟨u, s, t, hu, hs, ht, fun hheard => ?_⟩
    have hrunning := hiff.mp hheard hset
    rw [hoff] at hrunning
    cases hrunning
  · obtain ⟨u, s, t, hu, hs, ht, hdone, hset⟩ : ∃ u s t,
        run step freshNetwork (applying announced) = some u ∧
        run step u [.wifi .deliver] = some s ∧
        run step s [.call .usb [], .wifi .deliver] = some t ∧ t.wifi.driver.queue = [] ∧
        (observed step setsFlag u [.wifi .deliver]).getLast? ≠ some true :=
      ⟨_, _, _, rfl, rfl, rfl, rfl, by decide⟩
    have hmid : ∀ a ∈ announced, a.console? ≠ some .usb := by
      simp [announced, Step.console?]
    obtain ⟨hiff, hgiven⟩ := wifiApply_heard_iff ⟨rfl, _, rfl⟩ hmid hdeliver hevent hu hs ht hdone
    exact ⟨u, s, t, hu, hs, ht, hiff.mpr fun h => absurd h hset, hgiven hset⟩

def addresses (b : NvmMainBody) : List UInt32 :=
  [b.ip, b.netmask, b.gateway, b.dns1, b.dns2, b.dns3]

def isAddress : Field → Bool
  | .ip | .netmask | .gateway | .dns1 | .dns2 | .dns3 => true
  | _ => false

theorem addresses_of_fields {b d : NvmMainBody}
    (h : ∀ f, isAddress f = true → b.field f = d.field f) : addresses b = addresses d := by
  have hip := word32_field (h .ip rfl)
  have hnetmask := word32_field (h .netmask rfl)
  have hgateway := word32_field (h .gateway rfl)
  have hdns1 := word32_field (h .dns1 rfl)
  have hdns2 := word32_field (h .dns2 rfl)
  have hdns3 := word32_field (h .dns3 rfl)
  rw [addresses, hip, hnetmask, hgateway, hdns1, hdns2, hdns3]
  rfl

theorem InStep.congr {b d : NvmMainBody} {n : NetIf} (h : InStep b n)
    (hsame : addresses d = addresses b) : InStep d n := by
  simp only [addresses, List.cons.injEq, and_true] at hsame
  obtain ⟨hip, hnetmask, hgateway, hdns1, hdns2, hdns3⟩ := hsame
  constructor
  · rw [hip]
    exact h.dynamic
  · rw [hip, hnetmask, hgateway, hdns1, hdns2, hdns3]
    exact h.static

theorem line_addresses {l : Line} (h : ∀ f ∈ l.settings.map Prod.fst, isAddress f = false)
    (c : Configuration sz) :
    addresses (l.run c).configuration.mainBody = addresses c.mainBody := by
  obtain ⟨b, hran⟩ := line_ran l c
  refine addresses_of_fields fun f hf => ?_
  have hother : f ∉ l.taken.map Prod.fst := by
    intro hmem
    have hnamed := h f ((taken_sublist l.env.inetAton l.settings).subset hmem)
    rw [hf] at hnamed
    cases hnamed
  rw [hran.fields f, hran.put ⟨c.mainBody.field, c.mainBody.field⟩ (fun _ => rfl) f,
    after_puts_other _ hother]

theorem call_inStep {s : Network sz} {b : NvmMainBody} (h : InStep b s.netif) (behind : Bytes)
    (call : StationCall) : InStep b (s.call (stationCall b behind call)).netif := by
  cases call with
  | start =>
    change InStep b ((start b behind s.wifi.station).2.foldl NetIf.perform s.netif)
    cases hstarted : s.wifi.station.started with
    | false => exact (start_netif b behind hstarted s.netif s.config).1
    | true =>
      rw [start, hstarted]
      exact h
  | stop =>
    change InStep b ((stop s.wifi.station).2.foldl NetIf.perform s.netif)
    unfold stop
    split_ifs <;> exact h
  | applyNetIf => exact applyNetIf_inStep b s.netif

def Kept (wanted : List UInt32) (s : Network sz) : Prop :=
  InStep s.device.configuration.mainBody s.netif ∧
    addresses s.device.configuration.mainBody = wanted

/-- The interface is in step, or the console has still to apply the addresses. -/
def KeptSoon (wanted : List UInt32) (k : Console) (s : Network sz) : Prop :=
  (InStep s.device.configuration.mainBody s.netif ∨ .applyNetIf ∈ s.pending k) ∧
    addresses s.device.configuration.mainBody = wanted

def Step.Leaves : Step → Prop
  | .line _ l => ∀ f ∈ l.settings.map Prod.fst, isAddress f = false
  | _ => True

theorem step_addresses {s t : Network sz} {a : Step} (hleaves : a.Leaves)
    (hstep : step s a = some t) :
    addresses t.device.configuration.mainBody = addresses s.device.configuration.mainBody := by
  cases step_does hstep with
  | line k l hidle =>
    exact line_addresses (l := Line.at l s.wifi.station) hleaves s.device.configuration
  | call k behind call calls hnext => rfl
  | wifi a wifi hquiet hwifi => rfl

theorem step_inStep {s t : Network sz} {a : Step} (hleaves : a.Leaves)
    (hstep : step s a = some t) (h : InStep s.device.configuration.mainBody s.netif) :
    InStep t.device.configuration.mainBody t.netif := by
  have hsame := step_addresses hleaves hstep
  cases step_does hstep with
  | line k l hidle => exact h.congr hsame
  | call k behind call calls hnext => exact call_inStep (s := s.awaits k calls) h behind call
  | wifi a wifi hquiet hwifi => exact h

theorem step_kept (wanted : List UInt32) (s : Network sz) (a : Step) (t : Network sz)
    (hleaves : a.Leaves) (h : Kept wanted s) (hstep : step s a = some t) : Kept wanted t :=
  ⟨step_inStep hleaves hstep h.1, (step_addresses hleaves hstep).trans h.2⟩

theorem step_keptSoon (wanted : List UInt32) (k : Console) (s : Network sz) (a : Step)
    (t : Network sz) (hleaves : a.Leaves) (h : KeptSoon wanted k s) (hstep : step s a = some t) :
    KeptSoon wanted k t := by
  refine ⟨?_, (step_addresses hleaves hstep).trans h.2⟩
  rcases h.1 with hin | hsoon
  · exact Or.inl (step_inStep hleaves hstep hin)
  cases step_does hstep with
  | line j l hidle =>
    by_cases hj : k = j
    · subst hj
      rw [hidle] at hsoon
      cases hsoon
    · exact Or.inr (by rwa [awaits_other _ hj])
  | call j behind call calls hnext =>
    by_cases hj : k = j
    · subst hj
      rw [hnext] at hsoon
      rcases List.mem_cons.mp hsoon with rfl | hmem
      · exact Or.inl (applyNetIf_inStep s.device.configuration.mainBody s.netif)
      · refine Or.inr ?_
        rw [show ((s.awaits k calls).call _).pending k = calls from awaits_self s k calls]
        exact hmem
    · refine Or.inr ?_
      rw [show ((s.awaits j calls).call _).pending k = s.pending k from awaits_other s hj calls]
      exact hsoon
  | wifi a wifi hquiet hwifi => exact Or.inr hsoon

/-- Once a command has applied the addresses, the interface stays in step with them through any
starts, stops, events and commands of both consoles, until one names an address. -/
theorem applied_stays {s t u v : Network sz} {k : Console} {l : Line} {made acts : List Step}
    (hline : step s (.line k l) = some t)
    (happlied : StationCall.applyNetIf ∈
      ((Line.at l s.wifi.station).run s.device.configuration).stationCalls)
    (hmade : run step t made = some u) (hidle : u.pending k = [])
    (hrun : run step u acts = some v) (hleaves : ∀ a ∈ made ++ acts, a.Leaves) :
    InStep v.device.configuration.mainBody v.netif ∧
      addresses v.device.configuration.mainBody = addresses t.device.configuration.mainBody := by
  have hstart : KeptSoon (addresses t.device.configuration.mainBody) k t := by
    cases step_does hline with
    | line k l hbefore => exact ⟨Or.inr (by rwa [awaits_self]), rfl⟩
  rw [List.forall_mem_append] at hleaves
  obtain ⟨hin, hsame⟩ :=
    run_invariant_of_forall (step_keptSoon _ k) hstart hleaves.1 hmade
  rw [hidle] at hin
  have hkept : Kept _ u := ⟨hin.resolve_right List.not_mem_nil, hsame⟩
  exact run_invariant_of_forall (step_kept _) hkept hleaves.2 hrun

def staticLine : Line :=
  ⟨.net, [ascii "net", ascii "ip", ascii "10.0.0.1", ascii "netmask", ascii "10.0.0.1", ascii "gw",
    ascii "10.0.0.1"], sampleEnv, .none⟩

def crowded : List Step := [.line .tcp (wifiLine "start"), .call .tcp [], .call .usb []]

def restless : List Step :=
  [.line .usb (ssidLine (ascii "roof") .none), .line .usb (wifiLine "stop"), .wifi .deliver,
    .call .usb []]

theorem applied_stays_static : ∃ t u v, step freshNetwork (.line .usb staticLine) = some t ∧
    run step t crowded = some u ∧ run step u restless = some v ∧
      InStep v.device.configuration.mainBody v.netif ∧
      addresses v.device.configuration.mainBody = addresses t.device.configuration.mainBody := by
  obtain ⟨u, hu, hidle⟩ : ∃ u, run step freshNetwork (.line .usb staticLine :: crowded) = some u ∧
      u.pending .usb = [] := Option.map_eq_some_iff.mp (by decide +kernel)
  obtain ⟨v, hv⟩ : ∃ v,
      run step freshNetwork (.line .usb staticLine :: crowded ++ restless) = some v :=
    Option.isSome_iff_exists.mp (by decide +kernel)
  obtain ⟨u', hu', hrun⟩ := run_append_iff.mp hv
  obtain rfl : u = u' := Option.some.inj (hu.symm.trans hu')
  obtain ⟨t, hline, hmade⟩ := run_cons_iff.mp hu
  refine ⟨t, u, v, hline, hmade, hrun, ?_⟩
  refine applied_stays hline (by decide +kernel) hmade hidle hrun ?_
  simp only [crowded, restless, List.cons_append, List.nil_append, List.forall_mem_cons,
    Step.Leaves]
  exact ⟨by decide, trivial, trivial, by decide, by decide, trivial, trivial, List.forall_mem_nil _⟩

end MeshRoofFirmware.NetworkCommands
