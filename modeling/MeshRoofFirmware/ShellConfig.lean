import MeshRoofFirmware.StatusReport
import MeshRoofFirmware.NvmSave

set_option autoImplicit false

namespace MeshRoofFirmware.ShellConfig
open Library.ByteCodec Library.CText NvmLayout NvsFlash NvmSave ConfigFields
open WifiStation StatusReport
variable {sz : EntrySizes}

/-- What a command reads besides the configuration: the address parser, the station with the
driver's answer for its signal, and the memory behind the two buffers that are read as C
strings. -/
structure ShellEnv where
  inetAton : Bytes → Option UInt32
  station : EspWifi
  rssi : Option ℤ
  stack : Bytes
  behind : Bytes

inductive StationCall where
  | start
  | stop
  | applyNetIf
  deriving DecidableEq

structure ShellRun (sz : EntrySizes) where
  ret : ℤ
  printed : List Bytes
  configuration : Configuration sz
  calls : List Call
  stationCalls : List StationCall

def shows (c : Configuration sz) (printed : List Bytes) : ShellRun sz := ⟨0, printed, c, [], []⟩

def drives (c : Configuration sz) (stationCalls : List StationCall) (printed : List Bytes) :
    ShellRun sz := ⟨0, printed, c, [], stationCalls⟩

def okText : Bytes := ascii "ok\n"

structure Report where
  failed : Bytes
  failedRet : ℤ
  onOk : List StationCall

def setAll : List (NvmMainBody → Bool × NvmMainBody) → NvmMainBody → Bool × NvmMainBody
  | [], b => (true, b)
  | setter :: setters, b =>
    if (setter b).1 then setAll setters (setter b).2 else (false, (setter b).2)

/-- `if (setters && saveNvm()) ok else failed`. Nothing is printed when the save overran. -/
def setAndSave (report : Report) (sf : SaveFaults) (c : Configuration sz)
    (setters : List (NvmMainBody → Bool × NvmMainBody)) : ShellRun sz :=
  let set := setAll setters c.mainBody
  let c := { c with mainBody := set.2 }
  if set.1 then
    let saved := saveNvm sf c
    match saved.result with
    | some true => ⟨0, [okText], saved.configuration, saved.calls, report.onOk⟩
    | some false => ⟨report.failedRet, [report.failed], saved.configuration, saved.calls, []⟩
    | none => ⟨0, [], saved.configuration, saved.calls, []⟩
  else ⟨report.failedRet, [report.failed], c, [], []⟩

section Commands
variable (env : ShellEnv) (sf : SaveFaults) (c : Configuration sz)

def wifi (argv : List Bytes) : ShellRun sz :=
  let report : Report := ⟨ascii "failed!\n", -1, []⟩
  match argv with
  | [_] => shows c (shellWifi env.stack env.rssi env.station)
  | [_, sub] =>
    if sub = ascii "nvm" then
      shows c [ascii "ssid: " ++ getWifiSsid c.mainBody env.behind ++ ascii "\n",
        ascii "passwd: " ++ getWifiPasswd c.mainBody env.behind ++ ascii "\n"]
    else if sub = ascii "stop" then drives c [.stop] []
    else if sub = ascii "start" then drives c [.start] []
    else if sub = ascii "apply" then drives c [.stop, .start] []
    else shows c [ascii "syntax error!\n"]
  | [_, sub, value] =>
    if sub = ascii "ssid" then setAndSave report sf c [setWifiSsid value]
    else if sub = ascii "passwd" then setAndSave report sf c [setWifiPasswd value]
    else shows c [ascii "syntax error!\n"]
  | _ => shows c [ascii "syntax error!\n"]

def net (argv : List Bytes) : ShellRun sz :=
  let report : Report := ⟨ascii "failed\n", 0, []⟩
  let applied : Report := { report with onOk := [.applyNetIf] }
  match argv with
  | [_] => shows c (shellNet c.mainBody env.station)
  | [_, sub] =>
    if sub = ascii "nvm" then
      if c.mainBody.ip = 0 then shows c [ascii "ip: dhcp\n"]
      else
        shows c [ascii "ip:      " ++ getIpString c.mainBody ++ ascii "\n",
          ascii "netmask: " ++ getNetmaskString c.mainBody ++ ascii "\n",
          ascii "gateway: " ++ getGatewayString c.mainBody ++ ascii "\n",
          ascii "dns1:    " ++ getDns1String c.mainBody ++ ascii "\n",
          ascii "dns2:    " ++ getDns2String c.mainBody ++ ascii "\n",
          ascii "dns3:    " ++ getDns3String c.mainBody ++ ascii "\n"]
    else if sub = ascii "apply" then drives c [.applyNetIf] [okText]
    else shows c [ascii "syntax error!\n"]
  | [_, word₁, ip, word₃, netmask, word₅, gateway] =>
    if word₁ = ascii "ip" ∧ word₃ = ascii "netmask" ∧
        (word₅ = ascii "gateway" ∨ word₅ = ascii "gw") then
      setAndSave applied sf c [setIp env.inetAton ip, setNetmask env.inetAton netmask,
        setGateway env.inetAton gateway]
    else shows c [ascii "syntax error!\n"]
  | [_, sub, value] =>
    if sub = ascii "ip" ∧ value = ascii "dhcp" then
      setAndSave applied sf c [setIp env.inetAton (ascii "0.0.0.0")]
    else if sub = ascii "ip" then setAndSave report sf c [setIp env.inetAton value]
    else if sub = ascii "netmask" then setAndSave report sf c [setNetmask env.inetAton value]
    else if sub = ascii "gateway" then setAndSave report sf c [setGateway env.inetAton value]
    else if sub = ascii "dns1" then setAndSave report sf c [setDns1 env.inetAton value]
    else if sub = ascii "dns2" then setAndSave report sf c [setDns2 env.inetAton value]
    else if sub = ascii "dns3" then setAndSave report sf c [setDns3 env.inetAton value]
    else shows c [ascii "syntax error!\n"]
  | _ => shows c [ascii "syntax error!\n"]

inductive Command where
  | wifi
  | net
  deriving DecidableEq

def Command.run : Command → List Bytes → ShellRun sz
  | .wifi => ShellConfig.wifi env sf c
  | .net => ShellConfig.net env sf c

def Command.failedText : Command → Bytes
  | .wifi => ascii "failed!\n"
  | .net => ascii "failed\n"

end Commands

/-- The argument vectors that change the configuration, with the fields they name. -/
inductive Changes : Command → List Bytes → List (Field × Bytes) → Prop
  | ssid (argv₀ value) : Changes .wifi [argv₀, ascii "ssid", value] [(.wifiSsid, value)]
  | passwd (argv₀ value) : Changes .wifi [argv₀, ascii "passwd", value] [(.wifiPasswd, value)]
  | static (argv₀ ip netmask gateway keyword)
      (hkeyword : keyword = ascii "gateway" ∨ keyword = ascii "gw") :
      Changes .net [argv₀, ascii "ip", ip, ascii "netmask", netmask, keyword, gateway]
        [(.ip, ip), (.netmask, netmask), (.gateway, gateway)]
  | dhcp (argv₀) : Changes .net [argv₀, ascii "ip", ascii "dhcp"] [(.ip, ascii "0.0.0.0")]
  | ip (argv₀ value) (hvalue : value ≠ ascii "dhcp") :
      Changes .net [argv₀, ascii "ip", value] [(.ip, value)]
  | netmask (argv₀ value) : Changes .net [argv₀, ascii "netmask", value] [(.netmask, value)]
  | gateway (argv₀ value) : Changes .net [argv₀, ascii "gateway", value] [(.gateway, value)]
  | dns1 (argv₀ value) : Changes .net [argv₀, ascii "dns1", value] [(.dns1, value)]
  | dns2 (argv₀ value) : Changes .net [argv₀, ascii "dns2", value] [(.dns2, value)]
  | dns3 (argv₀ value) : Changes .net [argv₀, ascii "dns3", value] [(.dns3, value)]

def settersOf (inetAton : Bytes → Option UInt32) (settings : List (Field × Bytes)) :
    List (NvmMainBody → Bool × NvmMainBody) :=
  settings.map (fun p => setField inetAton p.1 p.2)

theorem changes_distinct {command : Command} {argv : List Bytes} {settings : List (Field × Bytes)}
    (h : Changes command argv settings) : (settings.map Prod.fst).Nodup := by
  cases h <;> simp

theorem run_eq {command : Command} {argv : List Bytes} {settings : List (Field × Bytes)}
    (h : Changes command argv settings) (env : ShellEnv) (sf : SaveFaults)
    (c : Configuration sz) : ∃ report : Report, report.failed = command.failedText ∧
      command.run env sf c argv = setAndSave report sf c (settersOf env.inetAton settings) := by
  cases h with
  | ssid | passwd => exact ⟨⟨ascii "failed!\n", -1, []⟩, rfl, rfl⟩
  | static argv₀ ip netmask gateway keyword hkeyword =>
    refine ⟨⟨ascii "failed\n", 0, [.applyNetIf]⟩, rfl, ?_⟩
    exact if_pos ⟨rfl, rfl, hkeyword⟩
  | dhcp => exact ⟨⟨ascii "failed\n", 0, [.applyNetIf]⟩, rfl, rfl⟩
  | ip argv₀ value hvalue =>
    refine ⟨⟨ascii "failed\n", 0, []⟩, rfl, ?_⟩
    exact if_neg (fun e => hvalue e.2)
  | netmask | gateway | dns1 | dns2 | dns3 => exact ⟨⟨ascii "failed\n", 0, []⟩, rfl, rfl⟩

def taken (inetAton : Bytes → Option UInt32) : List (Field × Bytes) → List (Field × Bytes)
  | [] => []
  | (f, s) :: settings =>
    match encode inetAton f s with
    | none => []
    | some value => (f, value) :: taken inetAton settings

def AllTaken (inetAton : Bytes → Option UInt32) (settings : List (Field × Bytes)) : Prop :=
  ∀ p ∈ settings, encode inetAton p.1 p.2 ≠ none

section Chain
variable (inetAton : Bytes → Option UInt32)

theorem taken_fields (settings : List (Field × Bytes)) :
    ∀ q ∈ taken inetAton settings, q.1 ∈ settings.map Prod.fst := by
  induction settings with
  | nil => exact nofun
  | cons p settings ih =>
    obtain ⟨f, s⟩ := p
    intro q hq
    rw [taken] at hq
    cases hencode : encode inetAton f s with
    | none =>
      rw [hencode] at hq
      cases hq
    | some value =>
      rw [hencode] at hq
      rcases List.mem_cons.mp hq with rfl | hq
      · exact List.mem_cons_self
      · exact List.mem_cons_of_mem _ (ih q hq)

theorem taken_of_mem {settings : List (Field × Bytes)} (hall : AllTaken inetAton settings)
    {p : Field × Bytes} (hp : p ∈ settings) :
    ∃ value, encode inetAton p.1 p.2 = some value ∧ (p.1, value) ∈ taken inetAton settings := by
  induction settings with
  | nil => cases hp
  | cons q settings ih =>
    obtain ⟨f, s⟩ := q
    obtain ⟨value, hvalue⟩ := Option.ne_none_iff_exists'.mp (hall (f, s) List.mem_cons_self)
    have hrest : AllTaken inetAton settings := fun r hr => hall r (List.mem_cons_of_mem _ hr)
    rw [taken, hvalue]
    rcases List.mem_cons.mp hp with rfl | hp
    · exact ⟨value, hvalue, List.mem_cons_self⟩
    · obtain ⟨v, hv, hmem⟩ := ih hrest hp
      exact ⟨v, hv, List.mem_cons_of_mem _ hmem⟩

theorem setAll_fst (settings : List (Field × Bytes)) (b : NvmMainBody) :
    (setAll (settersOf inetAton settings) b).1 = true ↔ AllTaken inetAton settings := by
  induction settings generalizing b with
  | nil => exact iff_of_true rfl nofun
  | cons p settings ih =>
    obtain ⟨f, s⟩ := p
    have hset := setField_sets inetAton f s b
    change (setAll (setField inetAton f s :: settersOf inetAton settings) b).1 = true ↔ _
    rw [setAll]
    cases hencode : encode inetAton f s with
    | none =>
      have hfirst : ¬ (setField inetAton f s b).1 = true := by simp [hset.refused hencode]
      rw [if_neg hfirst]
      exact iff_of_false Bool.false_ne_true (fun h => h (f, s) List.mem_cons_self hencode)
    | some value =>
      rw [if_pos (hset.accepted value hencode).1, ih, AllTaken, AllTaken, List.forall_mem_cons]
      exact ⟨fun h => ⟨by simp [hencode], h⟩, fun h => h.2⟩

theorem setAll_fields (settings : List (Field × Bytes)) (b : NvmMainBody)
    (hdistinct : (settings.map Prod.fst).Nodup) :
    (∀ q ∈ taken inetAton settings,
        (setAll (settersOf inetAton settings) b).2.field q.1 = q.2) ∧
      ∀ g, g ∉ (taken inetAton settings).map Prod.fst →
        (setAll (settersOf inetAton settings) b).2.field g = b.field g := by
  induction settings generalizing b with
  | nil => exact ⟨nofun, fun _ _ => rfl⟩
  | cons p settings ih =>
    obtain ⟨f, s⟩ := p
    rw [List.map_cons, List.nodup_cons] at hdistinct
    have hset := setField_sets inetAton f s b
    change (∀ q ∈ taken inetAton ((f, s) :: settings),
      (setAll (setField inetAton f s :: settersOf inetAton settings) b).2.field q.1 = q.2) ∧
      ∀ g, g ∉ (taken inetAton ((f, s) :: settings)).map Prod.fst →
        (setAll (setField inetAton f s :: settersOf inetAton settings) b).2.field g = b.field g
    rw [taken, setAll]
    cases hencode : encode inetAton f s with
    | none =>
      have hrefused := hset.refused hencode
      rw [hrefused]
      exact ⟨nofun, fun _ _ => rfl⟩
    | some value =>
      obtain ⟨hfirst, hvalue⟩ := hset.accepted value hencode
      obtain ⟨htaken, hframe⟩ := ih (setField inetAton f s b).2 hdistinct.2
      have hlater : f ∉ (taken inetAton settings).map Prod.fst := by
        intro hmem
        obtain ⟨q, hq, rfl⟩ := List.mem_map.mp hmem
        exact hdistinct.1 (taken_fields inetAton settings q hq)
      rw [if_pos hfirst]
      constructor
      · intro q hq
        rcases List.mem_cons.mp hq with rfl | hq
        · exact (hframe f hlater).trans hvalue
        · exact htaken q hq
      · intro g hg
        rw [List.map_cons, List.mem_cons, not_or] at hg
        exact (hframe g hg.2).trans (hset.frame g hg.1)

end Chain

/-- A failure leaves every field as it was, a success changes the named fields alone. -/
def AllOrNothing (inetAton : Bytes → Option UInt32) (command : Command)
    (settings : List (Field × Bytes)) (before : NvmMainBody) (r : ShellRun sz) : Prop :=
  (command.failedText ∈ r.printed → ∀ f, r.configuration.mainBody.field f = before.field f) ∧
    (okText ∈ r.printed →
      (∀ p ∈ settings, encode inetAton p.1 p.2 = some (r.configuration.mainBody.field p.1)) ∧
        ∀ f, f ∉ settings.map Prod.fst → r.configuration.mainBody.field f = before.field f)

/-- Everything is taken and the save does not fail, or what is taken changes nothing. -/
def Harmless (inetAton : Bytes → Option UInt32) (settings : List (Field × Bytes))
    (sf : SaveFaults) (c : Configuration sz) : Prop :=
  (AllTaken inetAton settings ∧ ¬ SaveFails sf c) ∨
    ∀ q ∈ taken inetAton settings, c.mainBody.field q.1 = q.2

section SetAndSave
variable (report : Report) (sf : SaveFaults) (c : Configuration sz)
  (setters : List (NvmMainBody → Bool × NvmMainBody))

theorem setAndSave_field (f : Field) :
    (setAndSave report sf c setters).configuration.mainBody.field f =
      (setAll setters c.mainBody).2.field f := by
  have hsaved := saveNvm_configuration sf { c with mainBody := (setAll setters c.mainBody).2 }
  have hcounts := countEntries_field { c with mainBody := (setAll setters c.mainBody).2 } f
  unfold setAndSave
  dsimp only
  split_ifs with haccepted
  · cases (saveNvm sf { c with mainBody := (setAll setters c.mainBody).2 }).result with
    | none =>
      dsimp only
      rw [hsaved, hcounts]
    | some result => cases result <;> (dsimp only; rw [hsaved, hcounts])
  · rfl

theorem setAndSave_failed_iff (hne : report.failed ≠ okText) :
    report.failed ∈ (setAndSave report sf c setters).printed ↔
      ((setAll setters c.mainBody).1 = true → SaveFails sf c) := by
  have hfails := saveNvm_false_iff sf { c with mainBody := (setAll setters c.mainBody).2 }
  have hsame : SaveFails sf { c with mainBody := (setAll setters c.mainBody).2 } ↔
      SaveFails sf c := Iff.rfl
  unfold setAndSave
  dsimp only
  split_ifs with haccepted
  · rw [← hsame, ← hfails, haccepted]
    cases (saveNvm sf { c with mainBody := (setAll setters c.mainBody).2 }).result with
    | none => simp
    | some result => cases result <;> simp [hne]
  · simp [haccepted]

theorem setAndSave_ok (hne : report.failed ≠ okText)
    (h : okText ∈ (setAndSave report sf c setters).printed) :
    (setAll setters c.mainBody).1 = true := by
  unfold setAndSave at h
  by_contra haccepted
  rw [if_neg haccepted, List.mem_singleton] at h
  exact hne h.symm

end SetAndSave

theorem failedText_ne (command : Command) : command.failedText ≠ okText := by
  cases command <;> decide

/-- The setters commit one after the other and before the save. -/
theorem run_allOrNothing_iff {command : Command} {argv : List Bytes}
    {settings : List (Field × Bytes)} (h : Changes command argv settings) (env : ShellEnv)
    (sf : SaveFaults) (c : Configuration sz) :
    AllOrNothing env.inetAton command settings c.mainBody (command.run env sf c argv) ↔
      Harmless env.inetAton settings sf c := by
  obtain ⟨report, hreport, hrun⟩ := run_eq h env sf c
  have hne : report.failed ≠ okText := hreport ▸ failedText_ne command
  have hfst := setAll_fst env.inetAton settings c.mainBody
  obtain ⟨htaken, hframe⟩ :=
    setAll_fields env.inetAton settings c.mainBody (changes_distinct h)
  have hfailed := setAndSave_failed_iff report sf c (settersOf env.inetAton settings) hne
  have hfield := setAndSave_field report sf c (settersOf env.inetAton settings)
  rw [hrun, AllOrNothing, ← hreport]
  simp only [hfield, hfailed]
  constructor
  · rintro ⟨hfail, -⟩
    by_cases hgood : AllTaken env.inetAton settings ∧ ¬ SaveFails sf c
    · exact Or.inl hgood
    · right
      intro q hq
      rw [← htaken q hq]
      refine (hfail ?_ q.1).symm
      intro haccepted
      by_contra hsave
      exact hgood ⟨hfst.mp haccepted, hsave⟩
  · intro hharmless
    constructor
    · intro hfail f
      rcases hharmless with ⟨hall, hsave⟩ | hsame
      · exact absurd (hfail (hfst.mpr hall)) hsave
      · by_cases hmem : f ∈ (taken env.inetAton settings).map Prod.fst
        · obtain ⟨q, hq, rfl⟩ := List.mem_map.mp hmem
          rw [htaken q hq, hsame q hq]
        · exact hframe f hmem
    · intro hok
      have hall := hfst.mp (setAndSave_ok report sf c _ hne hok)
      constructor
      · intro p hp
        obtain ⟨value, hvalue, hmem⟩ := taken_of_mem env.inetAton hall hp
        rw [hvalue, htaken _ hmem]
      · intro f hf
        apply hframe
        intro hmem
        obtain ⟨q, hq, rfl⟩ := List.mem_map.mp hmem
        exact hf (taken_fields env.inetAton settings q hq)

def oneAddress (s : Bytes) : Option UInt32 :=
  if s = ascii "10.0.0.1" then some 0x0100000a else none

def sampleEnv : ShellEnv := ⟨oneAddress, idleStation, none, [], []⟩

theorem run_allOrNothing_ssid :
    AllOrNothing oneAddress .wifi [(.wifiSsid, ascii "roof")] (freshConfiguration sampleSizes).mainBody
        (Command.wifi.run sampleEnv .none (freshConfiguration sampleSizes)
          [ascii "wifi", ascii "ssid", ascii "roof"]) ↔
      Harmless oneAddress [(.wifiSsid, ascii "roof")] .none (freshConfiguration sampleSizes) :=
  run_allOrNothing_iff (.ssid _ _) sampleEnv .none (freshConfiguration sampleSizes)

theorem static_leaves_ip :
    let argv := [ascii "net", ascii "ip", ascii "10.0.0.1", ascii "netmask", ascii "x",
      ascii "gateway", ascii "10.0.0.1"]
    let r := Command.net.run sampleEnv .none (freshConfiguration sampleSizes) argv
    r.printed = [Command.net.failedText] ∧
      r.configuration.mainBody.ip ≠ (freshConfiguration sampleSizes).mainBody.ip := by
  decide

end MeshRoofFirmware.ShellConfig
