import MeshRoofFirmware.Credentials
import MeshRoofFirmware.DeviceSession

set_option autoImplicit false

namespace MeshRoofFirmware.ConfigCopy
open Library.ByteCodec Library.ByteBlock Library.CText NvmLayout NvsFlash NvmSave NvmLoad
open NvmRoundTrip ConfigFields ShellConfig Credentials
open DeviceSession hiding step
variable {sz : EntrySizes}

def value (label : String) (line : Bytes) : Bytes := (line.drop (ascii label).length).dropLast

theorem value_line (label : String) (text : Bytes) :
    value label (ascii label ++ text ++ ascii "\n") = text := by
  have hbreak : ascii "\n" = [10] := rfl
  rw [value, List.append_assoc, List.drop_left, hbreak, List.dropLast_concat]

def typed (env : ShellEnv) (command : Command) (words : List Bytes) : Line :=
  ⟨command, (match command with | .wifi => ascii "wifi" | .net => ascii "net") :: words, env, .none⟩

/-- The commands that set what the listings of `wifi nvm` and `net nvm` show. -/
def typedBack (env : ShellEnv) (wifiNvm netNvm : List Bytes) : List Line :=
  (match wifiNvm with
    | [ssid, passwd] =>
      [typed env .wifi [ascii "ssid", value "ssid: " ssid],
        typed env .wifi [ascii "passwd", value "passwd: " passwd]]
    | _ => []) ++
  match netNvm with
  | [ip, netmask, gateway, dns1, dns2, dns3] =>
    [typed env .net [ascii "ip", value "ip:      " ip, ascii "netmask", value "netmask: " netmask,
        ascii "gateway", value "gateway: " gateway],
      typed env .net [ascii "dns1", value "dns1:    " dns1],
      typed env .net [ascii "dns2", value "dns2:    " dns2],
      typed env .net [ascii "dns3", value "dns3:    " dns3]]
  | _ => [typed env .net [ascii "ip", ascii "dhcp"]]

/-- The commands for this device, whose listings are read with `shown` and which are typed
with `env`. -/
def copyLines (shown env : ShellEnv) (c : Configuration sz) : List Line :=
  typedBack env (wifi shown .none c [ascii "wifi", ascii "nvm"]).printed
    (net shown .none c [ascii "net", ascii "nvm"]).printed

def shownFields (b : NvmMainBody) : List Field :=
  if b.ip = 0 then [.wifiSsid, .wifiPasswd, .ip]
  else [.wifiSsid, .wifiPasswd, .ip, .netmask, .gateway, .dns1, .dns2, .dns3]

def Legible (k : Credential) (b : NvmMainBody) : Prop :=
  Terminated k b ∧ ∃ s, 0 ∉ s ∧ s.length ≤ k.width ∧ b.field k.field = filled k.width s

theorem legible_encode {k : Credential} {b : NvmMainBody} (h : Legible k b) (behind : Bytes) :
    encodeChars k.width (k.getter b behind) = some (b.field k.field) := by
  obtain ⟨hterminated, s, hfree, hlen, hfield⟩ := h
  have hshown : k.getter b behind = s := by
    rw [(getter_own_iff k b behind).mpr hterminated, hfield, cString_of_filled hfree]
  rw [hshown, encodeChars, if_pos hlen, hfield]

theorem dotted_free (addr : UInt32) : 0 ∉ dotted addr := by
  have hoctets : ∀ n < 256, 0 ∉ decimal n := by decide +kernel
  have hoctet (b : UInt8) : 0 ∉ decimal b.toNat := hoctets b.toNat b.toNat_lt
  have hdot : (0 : UInt8) ∉ ascii "." := by decide
  intro hmem
  simp only [dotted, leBytes, List.map_cons, List.map_nil, List.intercalate, List.intersperse,
    List.flatten_cons, List.flatten_nil, List.append_nil, List.mem_append, hoctet, hdot,
    or_self] at hmem

def ReadsBack (inetAton : Bytes → Option UInt32) (addr : UInt32) : Prop :=
  inetAton (dotted addr) = some addr

theorem readsBack_encode {inetAton : Bytes → Option UInt32} {addr : UInt32}
    (h : ReadsBack inetAton addr) :
    encodeAddr inetAton (dotted addr) = some (Codec.word32 addr).bytes := by
  rw [encodeAddr, cString_self_iff.mpr (dotted_free addr), h, Option.map_some]

/-- A command that sets these fields to what they are in the main body, and saves. -/
structure Copies (b : NvmMainBody) (l : Line) (settings : List (Field × Bytes)) : Prop where
  changes : Changes l.command l.argv settings
  save : l.save = .none
  encodes : ∀ p ∈ settings, encode l.env.inetAton p.1 p.2 = some (b.field p.1)

def names (lines : List Line) : List Field := lines.flatMap fun l => l.settings.map Prod.fst

theorem copies_saves {b : NvmMainBody} {l : Line} {settings : List (Field × Bytes)}
    (h : Copies b l settings) : l.saves = true := by
  have hsettings : l.settings = settings := settings_of_changes h.changes
  rw [saves_iff (hsettings ▸ changes_ne_nil h.changes), hsettings]
  intro p hp
  rw [h.encodes p hp]
  exact Option.some_ne_none _

theorem copies_confirmed {b : NvmMainBody} {d : Configuration sz} (hfit : d.total ≤ flashTargetSize)
    (flash : Flash) {lines : List Line} (hcopies : ∀ l ∈ lines, ∃ settings, Copies b l settings)
    (hdistinct : (names lines).Nodup) {f : Field} (hf : f ∈ names lines) :
    Confirmed flash d (lines.map .line) f (b.field f) := by
  obtain ⟨l, hl, hmem⟩ := List.mem_flatMap.mp hf
  obtain ⟨p, hp, rfl⟩ := List.mem_map.mp hmem
  obtain ⟨settings, hline⟩ := hcopies l hl
  have hsettings : l.settings = settings := settings_of_changes hline.changes
  obtain ⟨before, later, rfl⟩ := List.append_of_mem hl
  rw [List.map_append, List.map_cons]
  have hclean : ∀ a ∈ before.map Action.line, a.Clean := by
    intro a ha
    obtain ⟨k, -, rfl⟩ := List.mem_map.mp ha
    trivial
  have hset : (p.1, p.2) ∈ l.settings := hp
  refine confirmed_line hfit flash hclean (hsettings ▸ hline.changes) (copies_saves hline)
    hline.save hset (hline.encodes p (hsettings ▸ hp)) ?_
  intro a ha hnamed
  obtain ⟨k, hk, rfl⟩ := List.mem_map.mp ha
  rw [names, List.flatMap_append, List.flatMap_cons] at hdistinct
  have hrest := (List.nodup_append.mp hdistinct).2.1
  have hlater : p.1 ∈ later.flatMap fun l => l.settings.map Prod.fst :=
    List.mem_flatMap.mpr ⟨k, hk, hnamed⟩
  exact (List.nodup_append.mp hrest).2.2 p.1 hmem p.1 hlater rfl

section Listings
variable (shown env : ShellEnv) (c : Configuration sz)

theorem copyLines_dhcp (hip : c.mainBody.ip = 0) : copyLines shown env c =
    [typed env .wifi [ascii "ssid", getWifiSsid c.mainBody shown.behind],
      typed env .wifi [ascii "passwd", getWifiPasswd c.mainBody shown.behind],
      typed env .net [ascii "ip", ascii "dhcp"]] := by
  have hwifi : (wifi shown .none c [ascii "wifi", ascii "nvm"]).printed =
      [ascii "ssid: " ++ getWifiSsid c.mainBody shown.behind ++ ascii "\n",
        ascii "passwd: " ++ getWifiPasswd c.mainBody shown.behind ++ ascii "\n"] := rfl
  have hnet : (net shown .none c [ascii "net", ascii "nvm"]).printed = [ascii "ip: dhcp\n"] := by
    unfold net
    dsimp only
    rw [if_pos rfl, if_pos hip]
    rfl
  rw [copyLines, hwifi, hnet]
  simp only [typedBack, value_line]
  rfl

theorem copyLines_static (hip : c.mainBody.ip ≠ 0) : copyLines shown env c =
    [typed env .wifi [ascii "ssid", getWifiSsid c.mainBody shown.behind],
      typed env .wifi [ascii "passwd", getWifiPasswd c.mainBody shown.behind],
      typed env .net [ascii "ip", dotted c.mainBody.ip, ascii "netmask", dotted c.mainBody.netmask,
        ascii "gateway", dotted c.mainBody.gateway],
      typed env .net [ascii "dns1", dotted c.mainBody.dns1],
      typed env .net [ascii "dns2", dotted c.mainBody.dns2],
      typed env .net [ascii "dns3", dotted c.mainBody.dns3]] := by
  have hwifi : (wifi shown .none c [ascii "wifi", ascii "nvm"]).printed =
      [ascii "ssid: " ++ getWifiSsid c.mainBody shown.behind ++ ascii "\n",
        ascii "passwd: " ++ getWifiPasswd c.mainBody shown.behind ++ ascii "\n"] := rfl
  have hnet : (net shown .none c [ascii "net", ascii "nvm"]).printed =
      [ascii "ip:      " ++ dotted c.mainBody.ip ++ ascii "\n",
        ascii "netmask: " ++ dotted c.mainBody.netmask ++ ascii "\n",
        ascii "gateway: " ++ dotted c.mainBody.gateway ++ ascii "\n",
        ascii "dns1:    " ++ dotted c.mainBody.dns1 ++ ascii "\n",
        ascii "dns2:    " ++ dotted c.mainBody.dns2 ++ ascii "\n",
        ascii "dns3:    " ++ dotted c.mainBody.dns3 ++ ascii "\n"] := by
    unfold net
    dsimp only
    rw [if_pos rfl, if_neg hip]
    rfl
  rw [copyLines, hwifi, hnet, typedBack]
  simp only [value_line]
  rfl

end Listings

structure Copyable (inetAton : Bytes → Option UInt32) (b : NvmMainBody) : Prop where
  ssid : Legible .wifiSsid b
  passwd : Legible .wifiPasswd b
  reads : ∀ addr ∈ [b.ip, b.netmask, b.gateway, b.dns1, b.dns2, b.dns3], ReadsBack inetAton addr

section Commands
variable (shown env : ShellEnv) {c : Configuration sz} (h : Copyable env.inetAton c.mainBody)
include h

theorem ssid_copies : Copies c.mainBody
    (typed env .wifi [ascii "ssid", getWifiSsid c.mainBody shown.behind])
      [(.wifiSsid, getWifiSsid c.mainBody shown.behind)] := by
  refine ⟨.ssid _ _, rfl, fun p hp => ?_⟩
  rw [List.mem_singleton.mp hp]
  exact legible_encode h.ssid shown.behind

theorem passwd_copies : Copies c.mainBody
    (typed env .wifi [ascii "passwd", getWifiPasswd c.mainBody shown.behind])
      [(.wifiPasswd, getWifiPasswd c.mainBody shown.behind)] := by
  refine ⟨.passwd _ _, rfl, fun p hp => ?_⟩
  rw [List.mem_singleton.mp hp]
  exact legible_encode h.passwd shown.behind

theorem copyLines_copies : ∀ l ∈ copyLines shown env c, ∃ settings, Copies c.mainBody l settings := by
  have hreads := h.reads
  simp only [List.forall_mem_cons, List.not_mem_nil, false_implies, implies_true, and_true] at hreads
  obtain ⟨hip, hnetmask, hgateway, hdns1, hdns2, hdns3⟩ := hreads
  have hdns {f : Field} {words : List Bytes} {addr : UInt32}
      (hchanges : Changes .net words [(f, dotted addr)])
      (hfield : c.mainBody.field f = (Codec.word32 addr).bytes)
      (hencode : encode env.inetAton f = encodeAddr env.inetAton)
      (hread : ReadsBack env.inetAton addr) :
      Copies c.mainBody ⟨.net, words, env, .none⟩ [(f, dotted addr)] := by
    refine ⟨hchanges, rfl, fun p hp => ?_⟩
    rw [List.mem_singleton.mp hp, hencode, hfield]
    exact readsBack_encode hread
  by_cases hdhcp : c.mainBody.ip = 0
  · rw [copyLines_dhcp shown env c hdhcp]
    simp only [List.forall_mem_cons]
    refine ⟨⟨_, ssid_copies shown env h⟩, ⟨_, passwd_copies shown env h⟩,
      ⟨_, .dhcp _, rfl, fun p hp => ?_⟩, List.forall_mem_nil _⟩
    rw [List.mem_singleton.mp hp]
    have hzero : ascii "0.0.0.0" = dotted c.mainBody.ip := by
      rw [hdhcp]
      decide +kernel
    rw [hzero]
    exact readsBack_encode hip
  · rw [copyLines_static shown env c hdhcp]
    simp only [List.forall_mem_cons]
    refine ⟨⟨_, ssid_copies shown env h⟩, ⟨_, passwd_copies shown env h⟩,
      ⟨_, .static _ _ _ _ _ (Or.inl rfl), rfl, ?_⟩, ⟨_, hdns (.dns1 _ _) rfl rfl hdns1⟩,
      ⟨_, hdns (.dns2 _ _) rfl rfl hdns2⟩, ⟨_, hdns (.dns3 _ _) rfl rfl hdns3⟩,
      List.forall_mem_nil _⟩
    simp only [List.forall_mem_cons]
    exact ⟨readsBack_encode hip, readsBack_encode hnetmask, readsBack_encode hgateway,
      List.forall_mem_nil _⟩

omit h in
theorem copyLines_names (c : Configuration sz) : names (copyLines shown env c) = shownFields c.mainBody := by
  by_cases hdhcp : c.mainBody.ip = 0
  · rw [copyLines_dhcp shown env c hdhcp, shownFields, if_pos hdhcp]
    rfl
  · rw [copyLines_static shown env c hdhcp, shownFields, if_neg hdhcp]
    rfl

end Commands

/-- Typing into any device what `wifi nvm` and `net nvm` show of another one gives it the settings
shown, in its memory and in its flash. -/
theorem copy_restores {c d : Configuration sz} (shown env : ShellEnv)
    (h : Copyable env.inetAton c.mainBody) (hfit : d.total ≤ flashTargetSize) (flash : Flash) :
    let s := session (savedDevice flash d) ((copyLines shown env c).map .line)
    ∀ f ∈ shownFields c.mainBody, s.configuration.mainBody.field f = c.mainBody.field f ∧
      ∀ g (old : Configuration sz), (loadNvm g .none s.flash old).result = true ∧
        (loadNvm g .none s.flash old).configuration.mainBody.field f = c.mainBody.field f := by
  intro s f hf
  have hclean : ∀ a ∈ (copyLines shown env c).map Action.line, a.Clean := by
    intro a ha
    obtain ⟨l, -, rfl⟩ := List.mem_map.mp ha
    trivial
  have hnames := copyLines_names shown env c
  have hdistinct : (names (copyLines shown env c)).Nodup := by
    rw [hnames, shownFields]
    split_ifs <;> decide
  have hconfirmed := copies_confirmed hfit flash (copyLines_copies shown env h) hdistinct
    (hnames ▸ hf)
  obtain ⟨hused, hsaved⟩ := confirmed_copies hfit hclean hconfirmed
  have hend := saved_session_mirrors hfit flash hclean
  refine ⟨(hend.used f).trans hused, fun g old => ?_⟩
  obtain ⟨hresult, -, hfields⟩ := hend.loads hfit g old
  exact ⟨hresult, (hfields f).trans hsaved⟩

def twoAddresses (s : Bytes) : Option UInt32 :=
  if s = ascii "0.0.0.0" then some 0 else oneAddress s

def rooftop : Configuration sampleSizes :=
  { freshConfiguration sampleSizes with
    mainBody := { (setWifiSsid (ascii "roof") zeroBody).2 with ip := 0x0100000a } }

theorem rooftop_copyable : Copyable twoAddresses rooftop.mainBody := by
  refine ⟨⟨Or.inl (by decide), ascii "roof", by decide, by decide, by decide⟩,
    ⟨Or.inl (by decide), [], List.not_mem_nil, by decide, by decide⟩, ?_⟩
  have hreads (addr : UInt32) (h : addr = 0x0100000a ∨ addr = 0) : ReadsBack twoAddresses addr := by
    rw [ReadsBack]
    rcases h with rfl | rfl <;> decide +kernel
  simp only [List.forall_mem_cons]
  exact ⟨hreads _ (Or.inl rfl), hreads _ (Or.inr rfl), hreads _ (Or.inr rfl),
    hreads _ (Or.inr rfl), hreads _ (Or.inr rfl), hreads _ (Or.inr rfl), List.forall_mem_nil _⟩

theorem copy_restores_rooftop :
    let env : ShellEnv := { sampleEnv with inetAton := twoAddresses }
    let s := session (savedDevice blankFlash (freshConfiguration sampleSizes))
      ((copyLines sampleEnv env rooftop).map .line)
    ∀ f ∈ shownFields rooftop.mainBody,
      s.configuration.mainBody.field f = rooftop.mainBody.field f ∧
      ∀ g (old : Configuration sampleSizes), (loadNvm g .none s.flash old).result = true ∧
        (loadNvm g .none s.flash old).configuration.mainBody.field f = rooftop.mainBody.field f :=
  copy_restores sampleEnv { sampleEnv with inetAton := twoAddresses } rooftop_copyable fresh_fits
    blankFlash

end MeshRoofFirmware.ConfigCopy
