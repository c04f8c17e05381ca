import MeshRoofFirmware.DeviceSession
import MeshRoofFirmware.ConsoleInterleaving

set_option autoImplicit false

namespace MeshRoofFirmware.ConsoleSessions
open Library.ByteCodec Library.CText Library.Runs NvmLayout NvsFlash NvmSave NvmLoad NvmRoundTrip
open ConfigFields ShellConfig
open ConsoleInterleaving hiding step start imageCalls
open DeviceSession hiding step Action
variable {sz : EntrySizes}

/-- A line comes in on a console, its command takes its next step there or fails, or the device
restarts. -/
inductive Act where
  | line (k : Console) (command : Command) (argv : List Bytes)
  | advance (k : Console)
  | fail (k : Console)
  | restart (boot : BootFaults)

def Act.Clean : Act → Prop
  | .restart boot => boot.load = .none
  | _ => True

/-- A console between two commands is at `ok`; a command that sets nothing leaves it there. -/
def step (inetAton : Bytes → Option UInt32) (s : State sz) : Act → Option (State sz)
  | .line k command argv =>
    match s.phase k with
    | .ok =>
      if settingsOf command argv = [] then some s
      else some (s.to k (.setting (settingsOf command argv)))
    | _ => none
  | .advance k => ConsoleInterleaving.step inetAton s k
  | .fail k => some (s.to k .ok)
  | .restart boot =>
    let d := bootDevice sz boot s.flash
    some ⟨d.configuration, d.flash, fun _ => .ok⟩

def begun (flash : Flash) (c : Configuration sz) : State sz :=
  ⟨c.countEntries, flash.after (saveNvm .none c).calls, fun _ => .ok⟩

section Runs
variable {inetAton : Bytes → Option UInt32} {flash : Flash} {c : Configuration sz}

variable (inetAton flash c) in
def Seen (done : List Act) (d : Configuration sz) : Prop :=
  SameLists d c ∧ ∃ past u, past <+: done ∧ run (step inetAton) (begun flash c) past = some u ∧
    ∀ f, d.mainBody.field f = u.configuration.mainBody.field f

theorem Seen.later {done : List Act} {d : Configuration sz} (h : Seen inetAton flash c done d)
    (a : Act) : Seen inetAton flash c (done ++ [a]) d := by
  obtain ⟨hlists, past, u, hpast, hrun, hfields⟩ := h
  exact ⟨hlists, past, u, hpast.trans (List.prefix_append done [a]), hrun, hfields⟩

variable (inetAton flash c) in
/-- What a console has in its hands is the image of settings that the memory has held. -/
def Sound (done : List Act) : Phase → Prop
  | .copied size buf =>
    size = c.total ∧ ∃ d, buf = d.image ∧ d.Counted ∧ Seen inetAton flash c done d
  | .sized buf => ∃ d, buf = d.image ∧ d.Counted ∧ Seen inetAton flash c done d
  | _ => True

theorem Sound.later {done : List Act} {phase : Phase} (h : Sound inetAton flash c done phase)
    (a : Act) : Sound inetAton flash c (done ++ [a]) phase := by
  cases phase with
  | setting left => trivial
  | copied size buf =>
    obtain ⟨hsize, d, hbuf, hcounted, hseen⟩ := h
    exact ⟨hsize, d, hbuf, hcounted, hseen.later a⟩
  | sized buf =>
    obtain ⟨d, hbuf, hcounted, hseen⟩ := h
    exact ⟨d, hbuf, hcounted, hseen.later a⟩
  | ok => trivial

variable (inetAton flash c) in
structure Snapshots (done : List Act) (s : State sz) : Prop where
  reached : run (step inetAton) (begun flash c) done = some s
  lists : SameLists s.configuration c
  stored : ∃ d, Stored s.flash c.total d ∧ Seen inetAton flash c done d
  sound : ∀ k, Sound inetAton flash c done (s.phase k)

theorem begun_snapshots (hfit : c.total ≤ flashTargetSize) :
    Snapshots inetAton flash c [] (begun flash c) := by
  refine ⟨run_nil, ⟨rfl, rfl, rfl⟩, ⟨c.countEntries, ?_, ⟨rfl, rfl, rfl⟩, [], begun flash c,
    List.prefix_rfl, run_nil, fun f => rfl⟩, fun k => trivial⟩
  exact save_stored (lt_of_le_of_lt hfit (by decide)) flash

theorem Snapshots.seen {done : List Act} {s : State sz} (h : Snapshots inetAton flash c done s) :
    Seen inetAton flash c done s.configuration :=
  ⟨h.lists, done, s, List.prefix_rfl, h.reached, fun _ => rfl⟩

theorem sound_to {done : List Act} {s : State sz}
    (h : ∀ j, Sound inetAton flash c done (s.phase j)) {k : Console} {phase : Phase} (a : Act)
    (hphase : Sound inetAton flash c (done ++ [a]) phase) :
    ∀ j, Sound inetAton flash c (done ++ [a]) ((s.to k phase).phase j) := by
  intro j
  by_cases hj : j = k
  · subst hj
    rw [to_phase_self]
    exact hphase
  · rw [to_phase_other s phase hj]
    exact (h j).later a

theorem sizeCalls_stored {flash : Flash} {total : ℕ} {d : Configuration sz}
    (h : Stored flash total d) : Stored (flash.after (sizeCalls total)) total d :=
  ⟨rfl, rfl, h.meshroof, h.counted, h.size_lt⟩

theorem imageCalls_stored {flash : Flash} {total : ℕ} {d e : Configuration sz}
    (h : Stored flash total d) (he : e.Counted) :
    Stored (flash.after (ConsoleInterleaving.imageCalls e.image)) total e :=
  ⟨h.created, h.nvmMeta, rfl, he, h.size_lt⟩

theorem step_snapshots (hfit : c.total ≤ flashTargetSize) {done : List Act} {s t : State sz}
    {a : Act} (hclean : a.Clean) (h : Snapshots inetAton flash c done s)
    (hstep : step inetAton s a = some t) : Snapshots inetAton flash c (done ++ [a]) t := by
  have hreached : run (step inetAton) (begun flash c) (done ++ [a]) = some t :=
    run_append_iff.mpr ⟨s, h.reached, run_cons_iff.mpr ⟨t, hstep, run_nil⟩⟩
  obtain ⟨d, hstored, hseen⟩ := h.stored
  cases a with
  | line k command argv =>
    simp only [step] at hstep
    split at hstep
    · split_ifs at hstep
      · cases hstep
        exact ⟨hreached, h.lists, ⟨d, hstored, hseen.later _⟩, fun j => (h.sound j).later _⟩
      · cases hstep
        exact ⟨hreached, h.lists, ⟨d, hstored, hseen.later _⟩, sound_to h.sound _ trivial⟩
    · cases hstep
  | fail k =>
    cases hstep
    exact ⟨hreached, h.lists, ⟨d, hstored, hseen.later _⟩, sound_to h.sound _ trivial⟩
  | restart boot =>
    have htotal : d.total = c.total := hseen.1.total
    have hboot : bootDevice sz boot s.flash = ⟨d, s.flash⟩ :=
      boot_stored hstored (htotal ▸ hfit) htotal.le hclean
    simp only [step, hboot] at hstep
    cases hstep
    exact ⟨hreached, hseen.1, ⟨d, hstored, hseen.later _⟩, fun j => trivial⟩
  | advance k =>
    have hdoes := step_does hstep
    cases hdoes with
    | set f value bytes left b hphase hvalue hfield hframe =>
      exact ⟨hreached, h.lists, ⟨d, hstored, hseen.later _⟩,
        sound_to (s := s.hold { s.configuration with mainBody := b }) h.sound _ trivial⟩
    | copy hphase hlt =>
      obtain ⟨hlists, past, u, hpast, hrun, hfields⟩ := h.seen
      have hcopy : Seen inetAton flash c done s.configuration.countEntries :=
        ⟨hlists, past, u, hpast, hrun,
          fun f => (countEntries_field s.configuration f).trans (hfields f)⟩
      refine ⟨hreached, h.lists, ⟨d, hstored, hseen.later _⟩,
        sound_to (s := s.hold s.configuration.countEntries) h.sound _ ⟨h.lists.total, ?_⟩⟩
      exact ⟨_, rfl, countEntries_counted s.configuration, hcopy.later _⟩
    | writeSize size buf hphase =>
      have hcopied := h.sound k
      rw [hphase] at hcopied
      obtain ⟨rfl, e, hbuf, hcounted, hold⟩ := hcopied
      exact ⟨hreached, h.lists, ⟨d, sizeCalls_stored hstored, hseen.later _⟩,
        sound_to (s := s.call (sizeCalls c.total)) h.sound _ ⟨e, hbuf, hcounted, hold.later _⟩⟩
    | writeImage buf hphase =>
      have hsized := h.sound k
      rw [hphase] at hsized
      obtain ⟨e, rfl, hcounted, hold⟩ := hsized
      exact ⟨hreached, h.lists, ⟨e, imageCalls_stored hstored hcounted, hold.later _⟩,
        sound_to (s := s.call (ConsoleInterleaving.imageCalls e.image)) h.sound _ trivial⟩

theorem run_snapshots (hfit : c.total ≤ flashTargetSize) {acts : List Act}
    (hclean : ∀ a ∈ acts, a.Clean) {s : State sz}
    (hrun : run (step inetAton) (begun flash c) acts = some s) :
    Snapshots inetAton flash c acts s := by
  have hkeeps : ∀ done s a t, ((∀ a ∈ done, a.Clean) → Snapshots inetAton flash c done s) →
      step inetAton s a = some t → (∀ b ∈ done ++ [a], b.Clean) →
        Snapshots inetAton flash c (done ++ [a]) t := by
    intro done s a t h hstep hall
    rw [List.forall_mem_append] at hall
    exact step_snapshots hfit (hall.2 a (List.mem_singleton_self a)) (h hall.1) hstep
  exact @run_history (State sz) Act (step inetAton)
    (fun done s => (∀ a ∈ done, a.Clean) → Snapshots inetAton flash c done s) hkeeps _ _ [] acts
    (fun _ => begun_snapshots hfit) hrun hclean

end Runs

/-- However the commands on the two consoles overlap, wherever they fail and wherever the power
is lost: the flash can be loaded, and what it holds is what the memory held at one moment. The
image has to fit the flash, and no call of a boot's load may fail. -/
theorem consoles_hold_snapshot {inetAton : Bytes → Option UInt32} {flash : Flash}
    {c : Configuration sz} (hfit : c.total ≤ flashTargetSize) {acts : List Act}
    (hclean : ∀ a ∈ acts, a.Clean) {s : State sz}
    (hrun : run (step inetAton) (begun flash c) acts = some s) (g : Garbage)
    (old : Configuration sz) :
    let load := loadNvm g .none s.flash old
    load.result = true ∧ SameLists load.configuration c ∧
      ∃ done u, done <+: acts ∧ run (step inetAton) (begun flash c) done = some u ∧
        ∀ f, load.configuration.mainBody.field f = u.configuration.mainBody.field f := by
  intro load
  obtain ⟨d, hstored, hlists, hseen⟩ := (run_snapshots hfit hclean hrun).stored
  obtain ⟨hresult, hloaded⟩ := load_stored hstored (hlists.total ▸ hfit) hlists.total.le g old
  have hload : load.configuration = d := hloaded
  rw [hload]
  exact ⟨hresult, hlists, hseen⟩

def overlapping : List Act :=
  [.line .usb .wifi [ascii "wifi", ascii "ssid", ascii "roof"],
    .line .tcp .net [ascii "net", ascii "dns1", ascii "10.0.0.1"], .advance .usb, .advance .usb,
    .advance .tcp, .advance .tcp, .advance .tcp, .advance .usb, .fail .tcp, .advance .usb,
    .line .tcp .wifi [ascii "wifi", ascii "passwd", ascii "secret"], .advance .tcp, .advance .tcp,
    .advance .tcp, .restart cleanBoot]

theorem overlapping_clean : ∀ a ∈ overlapping, a.Clean := by
  simp only [overlapping, List.forall_mem_cons, Act.Clean, cleanBoot, true_and]
  exact List.forall_mem_nil _

theorem consoles_hold_snapshot_overlapping :
    ∃ s, run (step oneAddress) (begun blankFlash (freshConfiguration sampleSizes)) overlapping =
        some s ∧
      (loadNvm zeroGarbage .none s.flash (freshConfiguration sampleSizes)).result = true ∧
      ∃ done u, done <+: overlapping ∧
        run (step oneAddress) (begun blankFlash (freshConfiguration sampleSizes)) done = some u ∧
        ∀ f, (loadNvm zeroGarbage .none s.flash
            (freshConfiguration sampleSizes)).configuration.mainBody.field f =
          u.configuration.mainBody.field f := by
  obtain ⟨s, hrun⟩ : ∃ s, run (step oneAddress)
      (begun blankFlash (freshConfiguration sampleSizes)) overlapping = some s :=
    Option.isSome_iff_exists.mp (by decide +kernel)
  obtain ⟨hresult, -, hseen⟩ := consoles_hold_snapshot fresh_fits overlapping_clean hrun
    zeroGarbage (freshConfiguration sampleSizes)
  exact ⟨s, hrun, hresult, hseen⟩

end MeshRoofFirmware.ConsoleSessions
