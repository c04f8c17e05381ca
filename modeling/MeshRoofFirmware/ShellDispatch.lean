import MeshRoofFirmware.DeviceSession

set_option autoImplicit false

namespace MeshRoofFirmware.ShellDispatch
open Library.ByteCodec Library.CText NvmLayout NvsFlash NvmSave NvmLoad NvmRoundTrip ShellConfig
open DeviceSession hiding step
variable {sz : EntrySizes}

inductive Known where
  | exit
  | wifi
  | net
  | ping
  | amplify
  | buzz
  | morse
  | reset
  deriving DecidableEq

def unknownCommand (word : Bytes) : Except Bytes Known :=
  if word = ascii "exit" then .ok .exit
  else if word = ascii "wifi" then .ok .wifi
  else if word = ascii "net" then .ok .net
  else if word = ascii "ping" then .ok .ping
  else if word = ascii "amplify" then .ok .amplify
  else if word = ascii "buzz" then .ok .buzz
  else if word = ascii "morse" then .ok .morse
  else if word = ascii "reset" then .ok .reset
  else .error (ascii "Unknown command '" ++ word ++ ascii "'!\n")

/-- `nvm` up to what the library prints behind it: both commands get all the words, and nobody
looks at their results. -/
def nvm (env : ShellEnv) (first second : SaveFaults) (c : Configuration sz) (argv : List Bytes) :
    ShellRun sz :=
  let w := wifi env first c argv
  let n := net env second w.configuration argv
  ⟨0, w.printed ++ n.printed, n.configuration, w.calls ++ n.calls, w.stationCalls ++ n.stationCalls⟩

theorem one_idle (sz : EntrySizes) (argv : List Bytes) :
    (settingsOf .wifi argv = [] ∧ Idle sz .wifi argv) ∨
      (settingsOf .wifi argv ≠ [] ∧ Idle sz .net argv) := by
  rcases wifi_settings sz argv with hchanges | hidle
  · refine Or.inr ⟨changes_ne_nil hchanges, ?_⟩
    rcases net_settings sz argv with hboth | hidle
    · generalize settingsOf .wifi argv = first at hchanges
      generalize settingsOf .net argv = second at hboth
      cases hchanges <;> cases hboth
    · exact hidle.2
  · exact Or.inl hidle

inductive Entry where
  | nvm
  | unknown

structure Typed where
  entry : Entry
  argv : List Bytes
  env : ShellEnv
  first : SaveFaults
  second : SaveFaults

/-- What a line leaves in memory and asks of the flash; the other commands touch neither. -/
def Typed.stores (t : Typed) (c : Configuration sz) : Configuration sz × List Call :=
  match t.entry, t.argv with
  | .nvm, argv =>
    let r := nvm t.env t.first t.second c argv
    (r.configuration, r.calls)
  | .unknown, [] => (c, [])
  | .unknown, word :: words =>
    match unknownCommand word with
    | .ok .wifi =>
      let r := wifi t.env t.first c (word :: words)
      (r.configuration, r.calls)
    | .ok .net =>
      let r := net t.env t.first c (word :: words)
      (r.configuration, r.calls)
    | _ => (c, [])

def Typed.line (t : Typed) : Line :=
  match t.entry, t.argv with
  | .nvm, argv =>
    if settingsOf .wifi argv = [] then ⟨.net, argv, t.env, t.second⟩
    else ⟨.wifi, argv, t.env, t.first⟩
  | .unknown, [] => ⟨.wifi, [], t.env, t.first⟩
  | .unknown, word :: words =>
    match unknownCommand word with
    | .ok .wifi => ⟨.wifi, word :: words, t.env, t.first⟩
    | .ok .net => ⟨.net, word :: words, t.env, t.first⟩
    | _ => ⟨.wifi, [], t.env, t.first⟩

theorem nvm_stores (env : ShellEnv) (first second : SaveFaults) (c : Configuration sz)
    (argv : List Bytes) :
    let r := nvm env first second c argv
    let l := Typed.line ⟨.nvm, argv, env, first, second⟩
    r.configuration = (l.run c).configuration ∧ r.calls = (l.run c).calls := by
  intro r l
  rcases one_idle sz argv with ⟨hnone, hidle⟩ | ⟨hsome, hidle⟩
  · have hl : l = ⟨.net, argv, env, second⟩ := if_pos hnone
    obtain ⟨hsame, hcalls⟩ := hidle env first c
    change (wifi env first c argv).configuration = c at hsame
    change (wifi env first c argv).calls = [] at hcalls
    rw [hl]
    change (net env second (wifi env first c argv).configuration argv).configuration = _ ∧
      (wifi env first c argv).calls ++
        (net env second (wifi env first c argv).configuration argv).calls = _
    rw [hsame, hcalls, List.nil_append]
    exact ⟨rfl, rfl⟩
  · have hl : l = ⟨.wifi, argv, env, first⟩ := if_neg hsome
    obtain ⟨hsame, hcalls⟩ := hidle env second (wifi env first c argv).configuration
    change (net env second (wifi env first c argv).configuration argv).configuration = _ at hsame
    change (net env second (wifi env first c argv).configuration argv).calls = [] at hcalls
    rw [hl]
    refine ⟨hsame, ?_⟩
    change (wifi env first c argv).calls ++
      (net env second (wifi env first c argv).configuration argv).calls = _
    rw [hcalls, List.append_nil]
    rfl

theorem typed_stores (t : Typed) (c : Configuration sz) :
    t.stores c = ((t.line.run c).configuration, (t.line.run c).calls) := by
  obtain ⟨entry, argv, env, first, second⟩ := t
  cases entry with
  | nvm =>
    obtain ⟨hconfiguration, hcalls⟩ := nvm_stores env first second c argv
    exact Prod.ext hconfiguration hcalls
  | unknown =>
    cases argv with
    | nil => rfl
    | cons word words =>
      unfold Typed.stores Typed.line
      dsimp only
      split <;> rfl

inductive ShellAction where
  | typed (t : Typed)
  | cut (t : Typed) (performed : ℕ) (boot : BootFaults)
  | restart (boot : BootFaults)

def shellStep (s : Device sz) : ShellAction → Device sz
  | .typed t => ⟨(t.stores s.configuration).1, s.flash.after (t.stores s.configuration).2⟩
  | .cut t performed boot =>
    bootDevice sz boot (s.flash.after ((t.stores s.configuration).2.take performed))
  | .restart boot => bootDevice sz boot s.flash

def shellSession (s : Device sz) (as : List ShellAction) : Device sz := as.foldl shellStep s

def ShellAction.action : ShellAction → Action
  | .typed t => .line t.line
  | .cut t performed boot => .cut t.line performed boot
  | .restart boot => .restart boot

theorem shellStep_eq (s : Device sz) (a : ShellAction) :
    shellStep s a = DeviceSession.step s a.action := by
  cases a with
  | typed t =>
    rw [shellStep, typed_stores]
    rfl
  | cut t performed boot =>
    rw [shellStep, typed_stores]
    rfl
  | restart boot => rfl

theorem shellSession_eq (s : Device sz) (as : List ShellAction) :
    shellSession s as = session s (as.map ShellAction.action) := by
  have hstep : (fun s a => DeviceSession.step s (ShellAction.action a)) = @shellStep sz := by
    funext s a
    exact (shellStep_eq s a).symm
  rw [shellSession, session, List.foldl_map, hstep]

/-- Whatever is typed on the shell, and wherever the power is lost: the flash can be loaded, and
holds what the memory held after one of the lines. A line of `nvm` counts as one, though it runs
two commands. -/
theorem shell_holds_seen {c : Configuration sz} (hfit : c.total ≤ flashTargetSize) (flash : Flash)
    {as : List ShellAction} (hclean : ∀ a ∈ as, a.action.Clean) (g : Garbage)
    (old : Configuration sz) :
    let load := loadNvm g .none (shellSession (savedDevice flash c) as).flash old
    load.result = true ∧ ∃ done, done <+: as ∧ ∀ f, load.configuration.mainBody.field f =
      (shellSession (savedDevice flash c) done).configuration.mainBody.field f := by
  intro load
  have hactions : ∀ a ∈ as.map ShellAction.action, a.Clean := List.forall_mem_map.mpr hclean
  obtain ⟨hresult, done, hdone, hseen⟩ := flash_holds_seen hfit flash hactions g old
  obtain ⟨lines, hlines, rfl⟩ := List.prefix_map_iff.mp hdone
  have hload : load = loadNvm g .none
      (session (savedDevice flash c) (as.map ShellAction.action)).flash old := by
    rw [← shellSession_eq]
  rw [hload]
  refine ⟨hresult, lines, hlines, fun f => ?_⟩
  rw [shellSession_eq]
  exact hseen f

def typedActions : List ShellAction :=
  [.typed ⟨.nvm, [ascii "nvm", ascii "ssid", ascii "roof"], sampleEnv,
      { SaveFaults.none with commit := true }, .none⟩,
    .typed ⟨.unknown, [ascii "amplify", ascii "on"], sampleEnv, .none, .none⟩,
    .cut ⟨.nvm, [ascii "nvm", ascii "ip", ascii "10.0.0.1"], sampleEnv, .none, .none⟩ 3 cleanBoot]

theorem shell_holds_seen_typed :
    let load := loadNvm zeroGarbage .none
      (shellSession (savedDevice blankFlash (freshConfiguration sampleSizes)) typedActions).flash
      (freshConfiguration sampleSizes)
    load.result = true ∧ ∃ done, done <+: typedActions ∧ ∀ f,
      load.configuration.mainBody.field f = (shellSession
        (savedDevice blankFlash (freshConfiguration sampleSizes)) done).configuration.mainBody.field f := by
  refine shell_holds_seen fresh_fits blankFlash ?_ zeroGarbage (freshConfiguration sampleSizes)
  simp only [typedActions, List.forall_mem_cons]
  exact ⟨trivial, trivial, rfl, List.forall_mem_nil _⟩

end MeshRoofFirmware.ShellDispatch
