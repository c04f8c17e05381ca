import MeshRoofFirmware.Library.TwoCopies
import MeshRoofFirmware.NvmBoot
import MeshRoofFirmware.ShellConfig
import Mathlib.Data.List.Induction

set_option autoImplicit false

/-! A device through its configuration commands, power losses and restarts. The commands of
this module come one after the other, and none changes the three lists. -/
namespace MeshRoofFirmware.DeviceSession
open Library.ByteCodec Library.ByteBlock Library.CText Library.KeyedStore Library.TwoCopies
open NvmLayout NvsFlash NvmSave NvmLoad NvmRoundTrip NvmBoot ConfigFields ShellConfig
variable {sz : EntrySizes}

structure Device (sz : EntrySizes) where
  configuration : Configuration sz
  flash : Flash

structure BootFaults where
  garbage : Garbage
  load : LoadFaults
  save : SaveFaults

/-- `if (loadNvm() == false) saveNvm()`, from a freshly constructed object. -/
def bootDevice (sz : EntrySizes) (b : BootFaults) (flash : Flash) : Device sz :=
  let load := loadNvm b.garbage b.load flash (freshConfiguration sz)
  if load.result = false then
    let saved := saveNvm b.save load.configuration
    ⟨saved.configuration, flash.after saved.calls⟩
  else ⟨load.configuration, flash⟩

structure Line where
  command : Command
  argv : List Bytes
  env : ShellEnv
  save : SaveFaults

def Line.run (l : Line) (c : Configuration sz) : ShellRun sz := l.command.run l.env l.save c l.argv

/-- A command that returns, one that loses the power after so many of its NVM calls, or a
restart between two commands. -/
inductive Action where
  | line (l : Line)
  | cut (l : Line) (performed : ℕ) (boot : BootFaults)
  | restart (boot : BootFaults)

def step (s : Device sz) : Action → Device sz
  | .line l =>
    let r := l.run s.configuration
    ⟨r.configuration, s.flash.after r.calls⟩
  | .cut l performed boot =>
    bootDevice sz boot (s.flash.after ((l.run s.configuration).calls.take performed))
  | .restart boot => bootDevice sz boot s.flash

def session (s : Device sz) (as : List Action) : Device sz := as.foldl step s

def savedDevice (flash : Flash) (c : Configuration sz) : Device sz :=
  ⟨c.countEntries, flash.after (saveNvm .none c).calls⟩

def settingsOf : Command → List Bytes → List (Field × Bytes)
  | .wifi, [_, sub, value] =>
    if sub = ascii "ssid" then [(.wifiSsid, value)]
    else if sub = ascii "passwd" then [(.wifiPasswd, value)]
    else []
  | .net, [_, word₁, ip, word₃, netmask, word₅, gateway] =>
    if word₁ = ascii "ip" ∧ word₃ = ascii "netmask" ∧
        (word₅ = ascii "gateway" ∨ word₅ = ascii "gw") then
      [(.ip, ip), (.netmask, netmask), (.gateway, gateway)]
    else []
  | .net, [_, sub, value] =>
    if sub = ascii "ip" ∧ value = ascii "dhcp" then [(.ip, ascii "0.0.0.0")]
    else if sub = ascii "ip" then [(.ip, value)]
    else if sub = ascii "netmask" then [(.netmask, value)]
    else if sub = ascii "gateway" then [(.gateway, value)]
    else if sub = ascii "dns1" then [(.dns1, value)]
    else if sub = ascii "dns2" then [(.dns2, value)]
    else if sub = ascii "dns3" then [(.dns3, value)]
    else []
  | _, _ => []

/-- Any other argument vector leaves the configuration alone and makes no NVM call. -/
def Idle (sz : EntrySizes) (command : Command) (argv : List Bytes) : Prop :=
  ∀ env sf (c : Configuration sz),
    (command.run env sf c argv).configuration = c ∧ (command.run env sf c argv).calls = []

theorem wifi_settings (sz : EntrySizes) (argv : List Bytes) :
    Changes .wifi argv (settingsOf .wifi argv) ∨
      (settingsOf .wifi argv = [] ∧ Idle sz .wifi argv) := by
  match argv with
  | [] | [_] | _ :: _ :: _ :: _ :: _ => exact Or.inr ⟨rfl, fun _ _ _ => ⟨rfl, rfl⟩⟩
  | [_, sub] =>
    refine Or.inr ⟨rfl, fun env sf c => ?_⟩
    unfold Command.run wifi
    dsimp only
    split_ifs <;> exact ⟨rfl, rfl⟩
  | [argv₀, sub, value] =>
    unfold settingsOf
    dsimp only
    split_ifs with hssid hpasswd
    · rw [hssid]
      exact Or.inl (.ssid argv₀ value)
    · rw [hpasswd]
      exact Or.inl (.passwd argv₀ value)
    · refine Or.inr ⟨rfl, fun env sf c => ?_⟩
      unfold Command.run wifi
      dsimp only
      rw [if_neg hssid, if_neg hpasswd]
      exact ⟨rfl, rfl⟩

theorem net_settings (sz : EntrySizes) (argv : List Bytes) :
    Changes .net argv (settingsOf .net argv) ∨
      (settingsOf .net argv = [] ∧ Idle sz .net argv) := by
  match argv with
  | [] | [_] | [_, _, _, _] | [_, _, _, _, _] | [_, _, _, _, _, _]
  | _ :: _ :: _ :: _ :: _ :: _ :: _ :: _ :: _ => exact Or.inr ⟨rfl, fun _ _ _ => ⟨rfl, rfl⟩⟩
  | [_, sub] =>
    refine Or.inr ⟨rfl, fun env sf c => ?_⟩
    unfold Command.run net
    dsimp only
    split_ifs <;> exact ⟨rfl, rfl⟩
  | [argv₀, word₁, ip, word₃, netmask, word₅, gateway] =>
    unfold settingsOf
    dsimp only
    split_ifs with hwords
    · obtain ⟨rfl, rfl, hkeyword⟩ := hwords
      exact Or.inl (.static argv₀ ip netmask gateway word₅ hkeyword)
    · refine Or.inr ⟨rfl, fun env sf c => ?_⟩
      unfold Command.run net
      dsimp only
      rw [if_neg hwords]
      exact ⟨rfl, rfl⟩
  | [argv₀, sub, value] =>
    unfold settingsOf
    dsimp only
    split_ifs with hdhcp hip hnetmask hgateway hdns1 hdns2 hdns3
    · rw [hdhcp.1, hdhcp.2]
      exact Or.inl (.dhcp argv₀)
    · rw [hip]
      exact Or.inl (.ip argv₀ value fun hvalue => hdhcp ⟨hip, hvalue⟩)
    · rw [hnetmask]
      exact Or.inl (.netmask argv₀ value)
    · rw [hgateway]
      exact Or.inl (.gateway argv₀ value)
    · rw [hdns1]
      exact Or.inl (.dns1 argv₀ value)
    · rw [hdns2]
      exact Or.inl (.dns2 argv₀ value)
    · rw [hdns3]
      exact Or.inl (.dns3 argv₀ value)
    · refine Or.inr ⟨rfl, fun env sf c => ?_⟩
      unfold Command.run net
      dsimp only
      rw [if_neg hdhcp, if_neg hip, if_neg hnetmask, if_neg hgateway, if_neg hdns1, if_neg hdns2,
        if_neg hdns3]
      exact ⟨rfl, rfl⟩

theorem settings_cases (sz : EntrySizes) (command : Command) (argv : List Bytes) :
    Changes command argv (settingsOf command argv) ∨
      (settingsOf command argv = [] ∧ Idle sz command argv) := by
  cases command with
  | wifi => exact wifi_settings sz argv
  | net => exact net_settings sz argv

theorem settings_of_changes {command : Command} {argv : List Bytes}
    {settings : List (Field × Bytes)} (h : Changes command argv settings) :
    settingsOf command argv = settings := by
  cases h with
  | static argv₀ ip netmask gateway keyword hkeyword => exact if_pos ⟨rfl, rfl, hkeyword⟩
  | ip argv₀ value hvalue => exact if_neg fun e => hvalue e.2
  | _ => rfl

def Line.settings (l : Line) : List (Field × Bytes) := settingsOf l.command l.argv

def Line.taken (l : Line) : List (Field × Bytes) := ShellConfig.taken l.env.inetAton l.settings

def Line.saves (l : Line) : Bool :=
  !l.settings.isEmpty && l.settings.all fun p => (encode l.env.inetAton p.1 p.2).isSome

/-- The NVM calls of a save up to the write of the image. -/
def imageCalls : ℕ := 4

def reachesImage (f : SaveFaults) : Bool := !(f.malloc || f.nvsOpen || f.setMeta || f.setBlob)

def Line.ops (l : Line) (performed : ℕ) : List (Op Field Bytes) :=
  puts l.taken ++
    if l.saves ∧ reachesImage l.save ∧ imageCalls ≤ performed then [.save] else []

def Action.ops : Action → List (Op Field Bytes)
  | .line l => l.ops imageCalls
  | .cut l performed _ => l.ops performed ++ [.restore]
  | .restart _ => [.restore]

/-- The load of every boot is undisturbed. -/
def Action.Clean : Action → Prop
  | .line _ => True
  | .cut _ _ boot | .restart boot => boot.load = .none

def Action.names : Action → List Field
  | .line l | .cut l _ _ => l.settings.map Prod.fst
  | .restart _ => []

def copiesOf (c : Configuration sz) : Copies Field Bytes := ⟨c.mainBody.field, c.mainBody.field⟩

def SameLists (c d : Configuration sz) : Prop :=
  c.authchans = d.authchans ∧ c.admins = d.admins ∧ c.mates = d.mates

theorem SameLists.total {c d : Configuration sz} (h : SameLists c d) : c.total = d.total := by
  obtain ⟨hauthchans, hadmins, hmates⟩ := h
  rw [Configuration.total, Configuration.total, hauthchans, hadmins, hmates]

/-- The memory holds one copy and the flash the other, both beside the same lists. -/
structure Mirrors (c : Configuration sz) (s : Device sz) (m : Copies Field Bytes) : Prop where
  used : ∀ f, s.configuration.mainBody.field f = m.used f
  lists : SameLists s.configuration c
  stored : ∃ d : Configuration sz, Stored s.flash c.total d ∧ SameLists d c ∧
    ∀ f, d.mainBody.field f = m.saved f

theorem setAndSave_lists (report : Report) (sf : SaveFaults) (c : Configuration sz)
    (setters : List (NvmMainBody → Bool × NvmMainBody)) :
    SameLists (setAndSave report sf c setters).configuration c := by
  have hsaved := saveNvm_configuration sf { c with mainBody := (setAll setters c.mainBody).2 }
  unfold setAndSave
  dsimp only
  split_ifs
  · split <;> (dsimp only; rw [hsaved]; exact ⟨rfl, rfl, rfl⟩)
  · exact ⟨rfl, rfl, rfl⟩

theorem setAndSave_calls (report : Report) (sf : SaveFaults) (c : Configuration sz)
    (setters : List (NvmMainBody → Bool × NvmMainBody)) :
    (setAndSave report sf c setters).calls =
      if (setAll setters c.mainBody).1 then
        (saveNvm sf { c with mainBody := (setAll setters c.mainBody).2 }).calls else [] := by
  unfold setAndSave
  dsimp only
  split_ifs
  · split <;> rfl
  · rfl

theorem saves_iff {l : Line} (hne : l.settings ≠ []) :
    l.saves = true ↔ AllTaken l.env.inetAton l.settings := by
  rw [Line.saves, Bool.and_eq_true, Bool.not_eq_true', List.isEmpty_eq_false_iff, List.all_eq_true]
  simp only [hne, ne_eq, not_false_eq_true, true_and, AllTaken, Option.isSome_iff_ne_none]

theorem changes_ne_nil {command : Command} {argv : List Bytes} {settings : List (Field × Bytes)}
    (h : Changes command argv settings) : settings ≠ [] := by
  cases h <;> exact List.cons_ne_nil _ _

theorem taken_sublist (inetAton : Bytes → Option UInt32) (settings : List (Field × Bytes)) :
    ((ShellConfig.taken inetAton settings).map Prod.fst).Sublist (settings.map Prod.fst) := by
  induction settings with
  | nil => exact List.Sublist.slnil
  | cons p settings ih =>
    obtain ⟨f, s⟩ := p
    rw [ShellConfig.taken]
    split
    · exact List.nil_sublist _
    · exact ih.cons_cons f

/-- What one command does: it puts what its setters take, and saves if they take everything. -/
structure Ran (l : Line) (c : Configuration sz) (r : ShellRun sz) (b : NvmMainBody) : Prop where
  fields : ∀ f, r.configuration.mainBody.field f = b.field f
  lists : SameLists r.configuration c
  put : ∀ m : Copies Field Bytes, (∀ f, c.mainBody.field f = m.used f) →
    ∀ f, b.field f = (m.after (puts l.taken)).used f
  calls : r.calls = if l.saves then (saveNvm l.save { c with mainBody := b }).calls else []

theorem line_ran (l : Line) (c : Configuration sz) : ∃ b, Ran l c (l.run c) b := by
  rcases settings_cases sz l.command l.argv with hchanges | ⟨hnone, hidle⟩
  · obtain ⟨report, -, hrun⟩ := run_eq hchanges l.env l.save c
    have hfst := setAll_fst l.env.inetAton l.settings c.mainBody
    have hdistinct := changes_distinct hchanges
    obtain ⟨htaken, hframe⟩ := setAll_fields l.env.inetAton l.settings c.mainBody hdistinct
    have hne : l.settings ≠ [] := changes_ne_nil hchanges
    have htakenDistinct : (l.taken.map Prod.fst).Nodup :=
      hdistinct.sublist (taken_sublist l.env.inetAton l.settings)
    refine ⟨(setAll (settersOf l.env.inetAton l.settings) c.mainBody).2, ?_⟩
    rw [Line.run, hrun]
    refine ⟨setAndSave_field report l.save c _, setAndSave_lists report l.save c _,
      fun m hused f => ?_, ?_⟩
    · by_cases hf : f ∈ l.taken.map Prod.fst
      · obtain ⟨p, hp, rfl⟩ := List.mem_map.mp hf
        rw [after_puts_mem _ htakenDistinct hp]
        exact htaken p hp
      · rw [after_puts_other _ hf, ← hused f]
        exact hframe f hf
    · rw [setAndSave_calls]
      exact if_congr (hfst.trans (saves_iff hne).symm) rfl rfl
  · have hquiet := hidle l.env l.save c
    have hsettings : l.settings = [] := hnone
    refine ⟨c.mainBody, fun f => ?_, ?_, fun m hused f => ?_, ?_⟩
    · rw [Line.run, hquiet.1]
    · rw [Line.run, hquiet.1]
      exact ⟨rfl, rfl, rfl⟩
    · rw [Line.taken, hsettings]
      exact hused f
    · rw [Line.run, hquiet.2, Line.saves, hsettings]
      rfl

theorem take_quiet {calls : List Call} (h : calls.filterMap Call.write? = []) (k : ℕ) :
    (calls.take k).filterMap Call.write? = [] :=
  List.sublist_nil.mp (h ▸ (List.take_sublist k calls).filterMap Call.write?)

theorem save_reaches {f : SaveFaults} (hreach : reachesImage f = true) {c : Configuration sz}
    (hfit : c.total < addressSpace) : ∃ rest, rest.filterMap Call.write? = [] ∧
      (saveNvm f c).calls = .malloc .image :: .nvsOpen .readwrite ::
        .nvsSetBlob .nvmMeta (metaBytes c.total) ::
          .nvsSetBlob .meshroof c.countEntries.image :: rest := by
  have hfill := fillImage_of_fits (countEntries_counted c) (c := c.countEntries) hfit
  have hsize : imageSize c.countEntries = c.total :=
    (imageSize_eq (countEntries_counted c)).trans (sizeT_of_lt hfit)
  obtain ⟨malloc, nvsOpen, setMeta, setBlob, commit⟩ := f
  simp only [reachesImage, Bool.not_eq_true', Bool.or_eq_false_iff] at hreach
  obtain ⟨⟨⟨rfl, rfl⟩, rfl⟩, rfl⟩ := hreach
  simp only [saveNvm, hfill, hsize, Bool.false_eq_true, ↓reduceIte]
  cases commit with
  | true => exact ⟨[.free .image, .nvsClose .opened], rfl, rfl⟩
  | false => exact ⟨[.nvsCommit, .free .image, .nvsClose .opened], rfl, rfl⟩

theorem writes_with_image {f : SaveFaults} (hreach : reachesImage f = true) {c : Configuration sz}
    (hfit : c.total < addressSpace) {k : ℕ} (hk : imageCalls ≤ k) :
    ((saveNvm f c).calls.take k).filterMap Call.write? = [metaWrite c, imageWrite c] := by
  obtain ⟨rest, hquiet, hcalls⟩ := save_reaches hreach hfit
  obtain ⟨j, rfl⟩ := Nat.exists_eq_add_of_le' hk
  have hrest := take_quiet hquiet j
  rw [hcalls]
  change metaWrite c :: imageWrite c :: (rest.take j).filterMap Call.write? = _
  rw [hrest]

theorem writes_without_image {f : SaveFaults} {c : Configuration sz}
    (hfit : c.total < addressSpace) {k : ℕ} (h : ¬ (reachesImage f = true ∧ imageCalls ≤ k)) :
    ((saveNvm f c).calls.take k).filterMap Call.write? <+: [metaWrite c] := by
  by_cases hreach : reachesImage f = true
  · obtain ⟨rest, -, hcalls⟩ := save_reaches hreach hfit
    have hk : k < 4 := Nat.lt_of_not_le fun hk => h ⟨hreach, hk⟩
    rw [hcalls]
    match k with
    | 0 | 1 | 2 => exact List.nil_prefix
    | 3 => exact List.prefix_rfl
  · have hwrites := ((List.take_prefix k (saveNvm f c).calls).filterMap Call.write?)
    rw [saveNvm_writes f hfit] at hwrites
    refine hwrites.trans ?_
    obtain ⟨malloc, nvsOpen, setMeta, setBlob, commit⟩ := f
    simp only [reachesImage, Bool.not_eq_true', Bool.or_eq_false_iff] at hreach
    split_ifs with hclosed hblob
    · exact List.nil_prefix
    · exact List.prefix_rfl
    · simp only [Bool.not_eq_true, Bool.or_eq_false_iff] at hclosed hblob
      exact absurd ⟨hclosed, hblob⟩ hreach

/-- What a save that is cut off leaves, when the two images have one size. -/
theorem cut_stores {old new : Configuration sz} (htotal : new.total = old.total)
    (hfit : old.total < addressSpace) {flash : Flash} (h : Stored flash old.total old)
    (f : SaveFaults) (k : ℕ) : Stored (flash.after ((saveNvm f new).calls.take k)) old.total
      (if reachesImage f = true ∧ imageCalls ≤ k then new.countEntries else old) := by
  have hblobs := after_blobs flash ((saveNvm f new).calls.take k)
  have hcreated := after_created flash ((saveNvm f new).calls.take k) h.created
  have hnew : new.total < addressSpace := htotal ▸ hfit
  split_ifs with hcond
  · rw [writes_with_image hcond.1 hnew hcond.2] at hblobs
    refine ⟨hcreated, ?_, ?_, countEntries_counted new, hfit⟩
    · rw [hblobs, ← htotal]
      rfl
    · rw [hblobs]
      rfl
  · rcases List.prefix_cons_iff.mp (writes_without_image hnew hcond) with hw | ⟨rest, hw, hrest⟩
    · rw [hw] at hblobs
      refine ⟨hcreated, ?_, ?_, h.counted, hfit⟩
      · rw [hblobs]
        exact h.nvmMeta
      · rw [hblobs]
        exact h.meshroof
    · rw [List.prefix_nil.mp hrest] at hw
      rw [hw] at hblobs
      refine ⟨hcreated, ?_, ?_, h.counted, hfit⟩
      · rw [hblobs, ← htotal]
        rfl
      · rw [hblobs]
        exact h.meshroof

theorem SameLists.trans {c d e : Configuration sz} (h : SameLists c d) (k : SameLists d e) :
    SameLists c e := ⟨h.1.trans k.1, h.2.1.trans k.2.1, h.2.2.trans k.2.2⟩

section Steps
variable {c : Configuration sz} {s : Device sz} {m : Copies Field Bytes}

theorem line_mirrors (hfit : c.total ≤ flashTargetSize) (h : Mirrors c s m) (l : Line) (k : ℕ) :
    Mirrors c ⟨(l.run s.configuration).configuration,
      s.flash.after ((l.run s.configuration).calls.take k)⟩ (m.after (l.ops k)) := by
  obtain ⟨b, hran⟩ := line_ran l s.configuration
  obtain ⟨d, hstored, hlists, hsaved⟩ := h.stored
  have hlt : d.total < addressSpace := hlists.total ▸ lt_of_le_of_lt hfit (by decide)
  have hused := hran.put m h.used
  have hkept := after_puts_saved m l.taken
  rw [← hlists.total] at hstored
  rw [Line.ops, after_append, hran.calls]
  by_cases hsaves : l.saves = true
  · have hnew : ({ s.configuration with mainBody := b } : Configuration sz).total = d.total :=
      h.lists.total.trans hlists.total.symm
    have hcut := cut_stores hnew hlt hstored l.save k
    rw [if_pos hsaves, hlists.total] at *
    by_cases hcond : reachesImage l.save = true ∧ imageCalls ≤ k
    · rw [if_pos hcond] at hcut
      rw [if_pos ⟨hsaves, hcond⟩]
      refine ⟨fun f => (hran.fields f).trans (hused f), hran.lists.trans h.lists, _, hcut,
        h.lists, fun f => ?_⟩
      exact (countEntries_field _ f).trans (hused f)
    · rw [if_neg hcond] at hcut
      rw [if_neg fun hall => hcond hall.2]
      refine ⟨fun f => (hran.fields f).trans (hused f), hran.lists.trans h.lists, d, hcut, hlists,
        fun f => ?_⟩
      exact (hsaved f).trans (congrFun hkept f).symm
  · rw [if_neg hsaves, if_neg fun hall => hsaves hall.1, List.take_nil, hlists.total] at *
    refine ⟨fun f => (hran.fields f).trans (hused f), hran.lists.trans h.lists, d, hstored, hlists,
      fun f => ?_⟩
    exact (hsaved f).trans (congrFun hkept f).symm

theorem boot_stored {d : Configuration sz} {flash : Flash} {size : ℕ} (h : Stored flash size d)
    (hfit : d.total ≤ flashTargetSize) (hsize : d.total ≤ size) {boot : BootFaults}
    (hclean : boot.load = .none) : bootDevice sz boot flash = ⟨d, flash⟩ := by
  obtain ⟨hresult, hloaded⟩ := load_stored h hfit hsize boot.garbage (freshConfiguration sz)
  rw [bootDevice, hclean, hresult, hloaded]
  rfl

theorem boot_mirrors (hfit : c.total ≤ flashTargetSize) (h : Mirrors c s m) {boot : BootFaults}
    (hclean : boot.load = .none) :
    Mirrors c (bootDevice sz boot s.flash) (m.after [.restore]) := by
  obtain ⟨d, hstored, hlists, hsaved⟩ := h.stored
  rw [boot_stored hstored (hlists.total ▸ hfit) hlists.total.le hclean]
  exact ⟨hsaved, hlists, d, hstored, hlists, hsaved⟩

theorem ops_complete (l : Line) {k : ℕ} (hk : imageCalls ≤ k) : l.ops k = l.ops imageCalls := by
  simp only [Line.ops, hk, le_refl]

theorem step_mirrors (hfit : c.total ≤ flashTargetSize) (h : Mirrors c s m) {a : Action}
    (hclean : a.Clean) : Mirrors c (step s a) (m.after a.ops) := by
  cases a with
  | line l =>
    have hline := line_mirrors hfit h l (imageCalls + (l.run s.configuration).calls.length)
    rw [ops_complete l (Nat.le_add_right _ _),
      List.take_of_length_le (Nat.le_add_left _ _)] at hline
    exact hline
  | cut l performed boot =>
    change Mirrors c _ (m.after (l.ops performed ++ [.restore]))
    rw [after_append]
    exact boot_mirrors hfit (line_mirrors hfit h l performed) hclean
  | restart boot => exact boot_mirrors hfit h hclean

theorem session_mirrors (hfit : c.total ≤ flashTargetSize) (h : Mirrors c s m) {as : List Action}
    (hclean : ∀ a ∈ as, a.Clean) : Mirrors c (session s as) (m.after (as.flatMap Action.ops)) := by
  induction as generalizing s m with
  | nil => exact h
  | cons a as ih =>
    have hstep := step_mirrors hfit h (hclean a List.mem_cons_self)
    have hrest := ih hstep (fun b hb => hclean b (List.mem_cons_of_mem _ hb))
    rw [List.flatMap_cons, after_append]
    exact hrest

end Steps

theorem saved_mirrors {c : Configuration sz} (hfit : c.total ≤ flashTargetSize) (flash : Flash) :
    Mirrors c (savedDevice flash c) (copiesOf c) :=
  ⟨countEntries_field c, ⟨rfl, rfl, rfl⟩, c.countEntries,
    save_stored (lt_of_le_of_lt hfit (by decide)) flash, ⟨rfl, rfl, rfl⟩, countEntries_field c⟩

theorem Mirrors.loads {c : Configuration sz} {s : Device sz} {m : Copies Field Bytes}
    (h : Mirrors c s m) (hfit : c.total ≤ flashTargetSize) (g : Garbage) (old : Configuration sz) :
    (loadNvm g .none s.flash old).result = true ∧
      SameLists (loadNvm g .none s.flash old).configuration c ∧
      ∀ f, (loadNvm g .none s.flash old).configuration.mainBody.field f = m.saved f := by
  obtain ⟨d, hstored, hlists, hsaved⟩ := h.stored
  obtain ⟨hresult, hloaded⟩ := load_stored hstored (hlists.total ▸ hfit) hlists.total.le g old
  rw [hloaded]
  exact ⟨hresult, hlists, hsaved⟩

theorem saved_session_mirrors {c : Configuration sz} (hfit : c.total ≤ flashTargetSize)
    (flash : Flash) {as : List Action} (hclean : ∀ a ∈ as, a.Clean) :
    Mirrors c (session (savedDevice flash c) as)
      ((copiesOf c).after (as.flatMap Action.ops)) :=
  session_mirrors hfit (saved_mirrors hfit flash) hclean

/-- Whatever the commands, the failures of their saves and the power losses, the memory and the
flash of the device are the used and the saved copy of the settings. -/
theorem session_refines {c : Configuration sz} (hfit : c.total ≤ flashTargetSize) (flash : Flash)
    {as : List Action} (hclean : ∀ a ∈ as, a.Clean) :
    let s := session (savedDevice flash c) as
    let m := (copiesOf c).after (as.flatMap Action.ops)
    (∀ f, s.configuration.mainBody.field f = m.used f) ∧ SameLists s.configuration c ∧
      ∀ g old, (loadNvm g .none s.flash old).result = true ∧
        SameLists (loadNvm g .none s.flash old).configuration c ∧
        ∀ f, (loadNvm g .none s.flash old).configuration.mainBody.field f = m.saved f := by
  intro s m
  have h : Mirrors c s m := saved_session_mirrors hfit flash hclean
  exact ⟨h.used, h.lists, h.loads hfit⟩

theorem word32_field {a b : UInt32} (h : (Codec.word32 a).bytes = (Codec.word32 b).bytes) : a = b :=
  Codec.word32.injective (Packed.ext_bytes h)

theorem fresh_fits : (freshConfiguration sampleSizes).total ≤ flashTargetSize := by
  rw [fresh_total]
  decide

def ssidLine (ssid : Bytes) (save : SaveFaults) : Line :=
  ⟨.wifi, [ascii "wifi", ascii "ssid", ssid], sampleEnv, save⟩

def cleanBoot : BootFaults := ⟨zeroGarbage, .none, .none⟩

def roughActions : List Action :=
  [.line (ssidLine (ascii "roof") { SaveFaults.none with commit := true }),
    .cut (ssidLine (ascii "cellar") .none) 3 cleanBoot]

theorem roughActions_clean : ∀ a ∈ roughActions, a.Clean := by
  simp only [roughActions, List.forall_mem_cons]
  exact ⟨trivial, rfl, List.forall_mem_nil _⟩

theorem session_refines_rough :
    let s := session (savedDevice blankFlash (freshConfiguration sampleSizes)) roughActions
    let m := (copiesOf (freshConfiguration sampleSizes)).after (roughActions.flatMap Action.ops)
    (∀ f, s.configuration.mainBody.field f = m.used f) ∧
      SameLists s.configuration (freshConfiguration sampleSizes) ∧
      ∀ g old, (loadNvm g .none s.flash old).result = true ∧
        SameLists (loadNvm g .none s.flash old).configuration (freshConfiguration sampleSizes) ∧
        ∀ f, (loadNvm g .none s.flash old).configuration.mainBody.field f = m.saved f :=
  session_refines fresh_fits blankFlash
    roughActions_clean

theorem ops_saved (m : Copies Field Bytes) (a : Action) : (m.after a.ops).saved = m.saved ∨
    (m.after a.ops).saved = (m.after a.ops).used := by
  cases a with
  | line l =>
    have hkept := after_puts_saved m l.taken
    rw [Action.ops, Line.ops, after_append]
    split_ifs
    · exact Or.inr rfl
    · exact Or.inl hkept
  | cut l performed boot =>
    rw [Action.ops, after_append]
    exact Or.inr rfl
  | restart boot => exact Or.inr rfl

theorem saved_seen (m : Copies Field Bytes) (hsame : m.saved = m.used) (as : List Action) :
    ∃ done, done <+: as ∧
      (m.after (as.flatMap Action.ops)).saved = (m.after (done.flatMap Action.ops)).used := by
  induction as using List.reverseRecOn with
  | nil => exact ⟨[], List.prefix_rfl, hsame⟩
  | append_singleton as a ih =>
    obtain ⟨done, hdone, hsaved⟩ := ih
    have hlast : (as ++ [a]).flatMap Action.ops = as.flatMap Action.ops ++ a.ops := by
      rw [List.flatMap_append, List.flatMap_singleton]
    rcases ops_saved (m.after (as.flatMap Action.ops)) a with hkept | hnew
    · refine ⟨done, hdone.trans (List.prefix_append as [a]), ?_⟩
      rw [hlast, after_append, hkept, hsaved]
    · refine ⟨as ++ [a], List.prefix_rfl, ?_⟩
      rw [hlast, after_append, hnew]

/-- The flash can always be loaded, and what it holds is never a mixture: it is what the memory
held after one of the actions. -/
theorem flash_holds_seen {c : Configuration sz} (hfit : c.total ≤ flashTargetSize) (flash : Flash)
    {as : List Action} (hclean : ∀ a ∈ as, a.Clean) (g : Garbage) (old : Configuration sz) :
    let load := loadNvm g .none (session (savedDevice flash c) as).flash old
    load.result = true ∧ ∃ done, done <+: as ∧ ∀ f, load.configuration.mainBody.field f =
      (session (savedDevice flash c) done).configuration.mainBody.field f := by
  intro load
  obtain ⟨hresult, -, hsaved⟩ := (saved_session_mirrors hfit flash hclean).loads hfit g old
  obtain ⟨done, hdone, hseen⟩ := saved_seen (copiesOf c) rfl as
  have hpast := saved_session_mirrors hfit flash
    (fun a ha => hclean a (hdone.subset ha) : ∀ a ∈ done, a.Clean)
  refine ⟨hresult, done, hdone, fun f => ?_⟩
  rw [hsaved f, hpast.used f, hseen]

theorem saved_result_iff (f : SaveFaults) {c : Configuration sz} (hfit : c.total < addressSpace) :
    (saveNvm f c).result = some true ↔ f = .none := by
  constructor
  · intro h
    exact (saveNvm_true h).1
  · rintro rfl
    rw [saveNvm_none hfit]
    rfl

theorem line_ok_iff {l : Line} (hchanges : Changes l.command l.argv l.settings)
    {c : Configuration sz} (hfit : c.total < addressSpace) :
    okText ∈ (l.run c).printed ↔ l.saves = true ∧ l.save = .none := by
  obtain ⟨report, hreport, hrun⟩ := run_eq hchanges l.env l.save c
  have hne : okText ≠ report.failed := hreport ▸ (failedText_ne l.command).symm
  have hsaves := saves_iff (changes_ne_nil hchanges)
  have hfst := setAll_fst l.env.inetAton l.settings c.mainBody
  have hresult := saved_result_iff l.save
    (c := { c with mainBody := (setAll (settersOf l.env.inetAton l.settings) c.mainBody).2 }) hfit
  rw [Line.run, hrun, hsaves, ← hfst, ← hresult]
  unfold setAndSave
  dsimp only
  split_ifs with haccepted
  · split <;> simp_all
  · simp [hne, haccepted]

theorem ops_names {a : Action} {f : Field} (h : f ∉ a.names) : ∀ op ∈ a.ops, op.key? ≠ some f := by
  have hline (l : Line) (k : ℕ) (hl : f ∉ l.settings.map Prod.fst) :
      ∀ op ∈ l.ops k, op.key? ≠ some f := by
    intro op hop hkey
    rw [Line.ops, List.mem_append] at hop
    rcases hop with hop | hop
    · obtain ⟨p, hp, rfl⟩ := List.mem_map.mp hop
      have hf : p.1 = f := Option.some.inj hkey
      exact hl (hf ▸ taken_fields l.env.inetAton l.settings p hp)
    · split_ifs at hop with hsave
      · rw [List.mem_singleton.mp hop] at hkey
        cases hkey
      · cases hop
  cases a with
  | line l => exact hline l imageCalls h
  | cut l performed boot =>
    intro op hop
    rcases List.mem_append.mp hop with hop | hop
    · exact hline l performed h op hop
    · rw [List.mem_singleton.mp hop]
      exact nofun
  | restart boot =>
    intro op hop
    rw [List.mem_singleton.mp hop]
    exact nofun

/-- A command has reported the setting as ok, and no later one names its field. -/
def Confirmed (flash : Flash) (c : Configuration sz) (as : List Action) (f : Field)
    (bytes : Bytes) : Prop :=
  ∃ before l later settings value, as = before ++ .line l :: later ∧
    Changes l.command l.argv settings ∧ (f, value) ∈ settings ∧
    okText ∈ (l.run (session (savedDevice flash c) before).configuration).printed ∧
    encode l.env.inetAton f value = some bytes ∧ ∀ a ∈ later, f ∉ a.names

theorem confirmed_copies {c : Configuration sz} (hfit : c.total ≤ flashTargetSize) {flash : Flash}
    {as : List Action} (hclean : ∀ a ∈ as, a.Clean) {f : Field} {bytes : Bytes}
    (h : Confirmed flash c as f bytes) :
    ((copiesOf c).after (as.flatMap Action.ops)).used f = bytes ∧
      ((copiesOf c).after (as.flatMap Action.ops)).saved f = bytes := by
  obtain ⟨before, l, later, settings, value, rfl, hchanges, hset, hok, hbytes, hquiet⟩ := h
  have hsettings : l.settings = settings := settings_of_changes hchanges
  rw [← hsettings] at hchanges hset
  have hstart := saved_session_mirrors hfit flash
    (fun a ha => hclean a (List.mem_append_left _ ha) : ∀ a ∈ before, a.Clean)
  have hlt : (session (savedDevice flash c) before).configuration.total < addressSpace := by
    rw [hstart.lists.total]
    exact lt_of_le_of_lt hfit (by decide)
  obtain ⟨hsaves, hsave⟩ := (line_ok_iff hchanges hlt).mp hok
  obtain ⟨taken, htaken, hmem⟩ :=
    taken_of_mem l.env.inetAton ((saves_iff (changes_ne_nil hchanges)).mp hsaves) hset
  rw [hbytes] at htaken
  cases htaken
  let m := (copiesOf c).after (before.flatMap Action.ops)
  have hops : l.ops imageCalls = puts l.taken ++ [.save] := by
    rw [Line.ops, if_pos ⟨hsaves, by rw [hsave]; rfl, le_rfl⟩]
  have hput : (m.after (puts l.taken)).used f = bytes :=
    after_puts_mem m ((changes_distinct hchanges).sublist (taken_sublist _ _)) hmem
  have hused : (m.after (l.ops imageCalls)).used f = bytes := by
    rw [hops, after_append]
    exact hput
  have hsaved : (m.after (l.ops imageCalls)).saved f = bytes := by
    rw [hops, after_append]
    exact hput
  have hlater : ∀ op ∈ later.flatMap Action.ops, op.key? ≠ some f := by
    intro op hop
    obtain ⟨a, ha, hop⟩ := List.mem_flatMap.mp hop
    exact ops_names (hquiet a ha) op hop
  have hsplit : (copiesOf c).after ((before ++ .line l :: later).flatMap Action.ops) =
      (m.after (l.ops imageCalls)).after (later.flatMap Action.ops) := by
    rw [List.flatMap_append, List.flatMap_cons, after_append, after_append]
    rfl
  rw [hsplit]
  exact after_keeps hused hsaved hlater

/-- A setting that a command has reported as ok is in the memory and in the flash until a later
command names its field, whatever fails in between. -/
theorem confirmed_stays {c : Configuration sz} (hfit : c.total ≤ flashTargetSize) {flash : Flash}
    {as : List Action} (hclean : ∀ a ∈ as, a.Clean) {f : Field} {bytes : Bytes}
    (h : Confirmed flash c as f bytes) :
    let s := session (savedDevice flash c) as
    s.configuration.mainBody.field f = bytes ∧
      ∀ g (old : Configuration sz), (loadNvm g .none s.flash old).result = true ∧
        (loadNvm g .none s.flash old).configuration.mainBody.field f = bytes := by
  intro s
  have hend := saved_session_mirrors hfit flash hclean
  obtain ⟨hused, hsaved⟩ := confirmed_copies hfit hclean h
  refine ⟨(hend.used f).trans hused, fun g old => ?_⟩
  obtain ⟨hresult, -, hfields⟩ := hend.loads hfit g old
  exact ⟨hresult, (hfields f).trans hsaved⟩

theorem confirmed_line {c : Configuration sz} (hfit : c.total ≤ flashTargetSize) (flash : Flash)
    {before later : List Action} (hclean : ∀ a ∈ before, a.Clean) {l : Line}
    (hchanges : Changes l.command l.argv l.settings) (hsaves : l.saves = true)
    (hsave : l.save = .none) {f : Field} {value bytes : Bytes} (hset : (f, value) ∈ l.settings)
    (hbytes : encode l.env.inetAton f value = some bytes) (hquiet : ∀ a ∈ later, f ∉ a.names) :
    Confirmed flash c (before ++ .line l :: later) f bytes := by
  have hlt : (session (savedDevice flash c) before).configuration.total < addressSpace := by
    rw [(saved_session_mirrors hfit flash hclean).lists.total]
    exact lt_of_le_of_lt hfit (by decide)
  exact ⟨before, l, later, l.settings, value, rfl, hchanges, hset,
    (line_ok_iff hchanges hlt).mpr ⟨hsaves, hsave⟩, hbytes, hquiet⟩

def passwdLine (passwd : Bytes) (save : SaveFaults) : Line :=
  ⟨.wifi, [ascii "wifi", ascii "passwd", passwd], sampleEnv, save⟩

def confirmedActions : List Action :=
  [.line (ssidLine (ascii "roof") .none),
    .line (passwdLine (ascii "secret") { SaveFaults.none with setBlob := true }),
    .cut (passwdLine (ascii "secret") .none) 3 cleanBoot]

theorem confirmedActions_clean : ∀ a ∈ confirmedActions, a.Clean := by
  simp only [confirmedActions, List.forall_mem_cons]
  exact ⟨trivial, trivial, rfl, List.forall_mem_nil _⟩

theorem ssid_confirmed : Confirmed blankFlash (freshConfiguration sampleSizes) confirmedActions
    .wifiSsid (filled 32 (ascii "roof")) := by
  have hstart : ∀ a ∈ ([] : List Action), a.Clean := List.forall_mem_nil _
  refine confirmed_line fresh_fits blankFlash hstart (.ssid _ _) (by decide) rfl
    (List.mem_singleton_self _) rfl ?_
  simp only [List.forall_mem_cons]
  exact ⟨by decide, by decide, List.forall_mem_nil _⟩

theorem confirmed_stays_rough :
    let s := session (savedDevice blankFlash (freshConfiguration sampleSizes)) confirmedActions
    s.configuration.mainBody.field .wifiSsid = filled 32 (ascii "roof") ∧
      ∀ g (old : Configuration sampleSizes), (loadNvm g .none s.flash old).result = true ∧
        (loadNvm g .none s.flash old).configuration.mainBody.field .wifiSsid =
          filled 32 (ascii "roof") :=
  confirmed_stays fresh_fits
    confirmedActions_clean ssid_confirmed

end MeshRoofFirmware.DeviceSession
