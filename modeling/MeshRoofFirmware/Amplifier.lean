import MeshRoofFirmware.ConsoleInterleaving

set_option autoImplicit false

namespace MeshRoofFirmware.Amplifier
open Library.ByteCodec Library.CText Library.Runs
open ConsoleInterleaving (Console)

inductive Phase where
  | idle
  | stored (onOff : Bool)
  | driven (onOff : Bool)
  deriving DecidableEq

structure State where
  isAmplifying : Bool
  amplifyPin : Bool
  switchPin : Bool
  phase : Console → Phase
  printed : List (Console × Bytes)

/-- The constructor has called `amplify(false)`. -/
def initial : State := ⟨false, true, true, fun _ => .idle, []⟩

inductive Request where
  | query
  | set (onOff : Bool)
  | syntaxError
  deriving DecidableEq

def request : List Bytes → Request
  | [_] => .query
  | [_, arg] =>
    if arg = ascii "on" then .set true else if arg = ascii "off" then .set false else .syntaxError
  | _ => .syntaxError

inductive Move where
  | command (argv : List Bytes)
  | driveAmplify
  | driveSwitch
  deriving DecidableEq

structure Act where
  console : Console
  move : Move
  deriving DecidableEq

def State.to (s : State) (k : Console) (phase : Phase) : State :=
  { s with phase := Function.update s.phase k phase }

def State.print (s : State) (k : Console) (text : Bytes) : State :=
  { s with printed := s.printed ++ [(k, text)] }

def step (s : State) (a : Act) : Option State :=
  match a.move, s.phase a.console with
  | .command argv, .idle =>
    match request argv with
    | .query =>
      some (s.print a.console (ascii (if s.isAmplifying then "amplify: on\n" else "amplify: off\n")))
    | .set onOff => some ({ s with isAmplifying := onOff }.to a.console (.stored onOff))
    | .syntaxError => some (s.print a.console (ascii "syntax error!\n"))
  | .driveAmplify, .stored onOff =>
    some ({ s with amplifyPin := !onOff }.to a.console (.driven onOff))
  | .driveSwitch, .driven onOff =>
    some (({ s with switchPin := !onOff }.to a.console .idle).print a.console
      (ascii (if onOff then "amplify on\n" else "amplify off\n")))
  | _, _ => none

inductive Cell where
  | flag
  | amplifyPin
  | switchPin
  deriving DecidableEq

def State.asks (s : State) : Cell → Bool
  | .flag => s.isAmplifying
  | .amplifyPin => !s.amplifyPin
  | .switchPin => !s.switchPin

def Act.asked? (a : Act) : Option Bool :=
  match a.move with
  | .command argv =>
    match request argv with
    | .set onOff => some onOff
    | _ => none
  | _ => none

def Act.writes (a : Act) : Cell → Bool
  | .flag => a.asked?.isSome
  | .amplifyPin => a.move = .driveAmplify
  | .switchPin => a.move = .driveSwitch

def lastAsked (k : Console) (acts : List Act) : Option Bool :=
  (acts.filterMap (fun a => if a.console = k then a.asked? else none)).getLast?

def lastAt (c : Cell) (acts : List Act) : Option Console :=
  (acts.filterMap (fun a => if a.writes c then some a.console else none)).getLast?

theorem last_record {α β : Type} (f : α → Option β) (l : List α) (a : α) :
    ((l ++ [a]).filterMap f).getLast? = (f a).or (l.filterMap f).getLast? := by
  rw [List.filterMap_append, List.filterMap_cons]
  cases f a with
  | none => simp
  | some b => simp

theorem lastAsked_record (k : Console) (acts : List Act) (a : Act) :
    lastAsked k (acts ++ [a]) =
      (if a.console = k then a.asked? else none).or (lastAsked k acts) := last_record _ acts a

theorem lastAt_record (c : Cell) (acts : List Act) (a : Act) :
    lastAt c (acts ++ [a]) =
      (if a.writes c then some a.console else none).or (lastAt c acts) := last_record _ acts a

def Past : Cell → Phase → Prop
  | .flag, _ => True
  | .amplifyPin, phase => ∀ onOff, phase ≠ .stored onOff
  | .switchPin, phase => phase = .idle

/-- The cells after the steps of `done`: each stands for what the console asked that wrote it
last, once that console is past it again. -/
structure Written (done : List Act) (s : State) : Prop where
  asking : ∀ k onOff, s.phase k = .stored onOff ∨ s.phase k = .driven onOff →
    lastAsked k done = some onOff
  value : ∀ c k, lastAt c done = some k → Past c (s.phase k) →
    lastAsked k done = some (s.asks c)
  untouched : ∀ c, lastAt c done = none → s.asks c = false
  reached : ∀ c k, lastAsked k done ≠ none → Past c (s.phase k) → lastAt c done ≠ none

theorem Act.writes_flag {a : Act} {onOff : Bool} (h : a.asked? = some onOff) (c : Cell) :
    a.writes c = true ↔ c = .flag := by
  obtain ⟨k, move⟩ := a
  cases move with
  | command argv =>
    cases c with
    | flag => exact iff_of_true (by rw [Act.writes, h]; rfl) rfl
    | amplifyPin | switchPin => simp [Act.writes]
  | driveAmplify | driveSwitch => cases h

theorem written_cell (c : Cell) (onOff : Bool) {done : List Act} {s t : State} {a : Act}
    (h : Written done s) (hwrites : ∀ d, a.writes d = true ↔ d = c)
    (hasked : lastAsked a.console (done ++ [a]) = some onOff)
    (hothers : ∀ k, k ≠ a.console → t.phase k = s.phase k)
    (hphase : ∀ v, t.phase a.console = .stored v ∨ t.phase a.console = .driven v → v = onOff)
    (hpast : ∀ d, d ≠ c → Past d (t.phase a.console) →
      Past d (s.phase a.console) ∧ lastAsked a.console done = some onOff)
    (hcell : t.asks c = onOff) (hcells : ∀ d, d ≠ c → t.asks d = s.asks d) :
    Written (done ++ [a]) t := by
  have hsame : ∀ k, k ≠ a.console → lastAsked k (done ++ [a]) = lastAsked k done := by
    intro k hk
    rw [lastAsked_record, if_neg (fun e => hk e.symm), Option.none_or]
  have hlast : lastAt c (done ++ [a]) = some a.console := by
    rw [lastAt_record, if_pos ((hwrites c).mpr rfl), Option.some_or]
  have hother : ∀ d, d ≠ c → lastAt d (done ++ [a]) = lastAt d done := by
    intro d hd
    rw [lastAt_record, if_neg (fun e => hd ((hwrites d).mp e)), Option.none_or]
  constructor
  · intro k v hk
    by_cases hka : k = a.console
    · subst hka
      rw [hasked, hphase v hk]
    · rw [hothers k hka] at hk
      rw [hsame k hka]
      exact h.asking k v hk
  · intro d k hd hk
    by_cases hdc : d = c
    · subst hdc
      rw [hlast] at hd
      cases hd
      rw [hasked, hcell]
    · rw [hother d hdc] at hd
      rw [hcells d hdc]
      by_cases hka : k = a.console
      · subst hka
        obtain ⟨hbefore, hsaid⟩ := hpast d hdc hk
        rw [hasked, ← hsaid]
        exact h.value d _ hd hbefore
      · rw [hothers k hka] at hk
        rw [hsame k hka]
        exact h.value d k hd hk
  · intro d hd
    by_cases hdc : d = c
    · subst hdc
      rw [hlast] at hd
      cases hd
    · rw [hother d hdc] at hd
      rw [hcells d hdc]
      exact h.untouched d hd
  · intro d k hk hd
    by_cases hdc : d = c
    · subst hdc
      rw [hlast]
      nofun
    · rw [hother d hdc]
      by_cases hka : k = a.console
      · subst hka
        obtain ⟨hbefore, hsaid⟩ := hpast d hdc hd
        exact h.reached d _ (by rw [hsaid]; nofun) hbefore
      · rw [hothers k hka] at hd
        rw [hsame k hka] at hk
        exact h.reached d k hk hd

theorem written_quiet {done : List Act} {s t : State} {a : Act} (h : Written done s)
    (hwrites : ∀ d, a.writes d = false) (hphase : t.phase = s.phase)
    (hcells : t.asks = s.asks) : Written (done ++ [a]) t := by
  have hnone : a.asked? = none := by
    have hflag := hwrites .flag
    rwa [Act.writes, Option.isSome_eq_false_iff, Option.isNone_iff_eq_none] at hflag
  have hsame : ∀ k, lastAsked k (done ++ [a]) = lastAsked k done := by
    intro k
    rw [lastAsked_record, hnone, ite_self, Option.none_or]
  have hlast : ∀ d, lastAt d (done ++ [a]) = lastAt d done := by
    intro d
    rw [lastAt_record, hwrites d]
    rfl
  constructor
  · intro k v hk
    rw [hphase] at hk
    rw [hsame]
    exact h.asking k v hk
  · intro d k hd hk
    rw [hlast] at hd
    rw [hphase] at hk
    rw [hsame, hcells]
    exact h.value d k hd hk
  · intro d hd
    rw [hlast] at hd
    rw [hcells]
    exact h.untouched d hd
  · intro d k hk hd
    rw [hsame] at hk
    rw [hphase] at hd
    rw [hlast]
    exact h.reached d k hk hd

theorem to_phase_self (s : State) (k : Console) (phase : Phase) :
    (s.to k phase).phase k = phase := Function.update_self _ _ _

theorem to_phase_other (s : State) {k j : Console} (phase : Phase) (h : j ≠ k) :
    (s.to k phase).phase j = s.phase j := Function.update_of_ne h _ _

theorem step_command {done : List Act} {s t : State} {k : Console} {argv : List Bytes}
    (h : Written done s) (hstep : step s ⟨k, .command argv⟩ = some t) :
    Written (done ++ [⟨k, .command argv⟩]) t := by
  cases hphase : s.phase k with
  | idle =>
    cases hrequest : request argv with
    | query | syntaxError =>
      simp only [step, hphase, hrequest, Option.some.injEq] at hstep
      subst hstep
      refine written_quiet h (fun c => ?_) rfl rfl
      cases c <;> simp [Act.writes, Act.asked?, hrequest]
    | set onOff =>
      simp only [step, hphase, hrequest, Option.some.injEq] at hstep
      subst hstep
      have hasks : Act.asked? ⟨k, .command argv⟩ = some onOff := by simp only [Act.asked?, hrequest]
      refine written_cell .flag onOff h (Act.writes_flag hasks) ?_ (fun j hj => to_phase_other _ _ hj) ?_ ?_
        rfl ?_
      · rw [lastAsked_record, if_pos rfl, hasks, Option.some_or]
      · intro v hv
        rw [to_phase_self] at hv
        rcases hv with hv | hv
        · cases hv
          rfl
        · cases hv
      · intro d hd hpast
        rw [to_phase_self] at hpast
        cases d with
        | flag => exact absurd rfl hd
        | amplifyPin => exact absurd rfl (hpast onOff)
        | switchPin => cases hpast
      · intro d hd
        cases d with
        | flag => exact absurd rfl hd
        | amplifyPin | switchPin => rfl
  | stored onOff | driven onOff => simp only [step, hphase, reduceCtorEq] at hstep

theorem step_amplify {done : List Act} {s t : State} {k : Console} (h : Written done s)
    (hstep : step s ⟨k, .driveAmplify⟩ = some t) : Written (done ++ [⟨k, .driveAmplify⟩]) t := by
  cases hphase : s.phase k with
  | stored onOff =>
    simp only [step, hphase, Option.some.injEq] at hstep
    subst hstep
    have hasked : lastAsked k done = some onOff := h.asking k onOff (Or.inl hphase)
    refine written_cell .amplifyPin onOff h (fun d => ?_) ?_
      (fun j hj => to_phase_other _ _ hj) ?_ ?_ (Bool.not_not onOff) ?_
    · cases d <;> simp [Act.writes, Act.asked?]
    · rw [lastAsked_record, Act.asked?, ite_self, Option.none_or]
      exact hasked
    · intro v hv
      rw [to_phase_self] at hv
      rcases hv with hv | hv
      · cases hv
      · cases hv
        rfl
    · intro d hd hpast
      rw [to_phase_self] at hpast
      cases d with
      | flag => exact ⟨trivial, hasked⟩
      | amplifyPin => exact absurd rfl hd
      | switchPin => cases hpast
    · intro d hd
      cases d with
      | amplifyPin => exact absurd rfl hd
      | flag | switchPin => rfl
  | idle => simp only [step, hphase, reduceCtorEq] at hstep
  | driven onOff => simp only [step, hphase, reduceCtorEq] at hstep

theorem step_switch {done : List Act} {s t : State} {k : Console} (h : Written done s)
    (hstep : step s ⟨k, .driveSwitch⟩ = some t) : Written (done ++ [⟨k, .driveSwitch⟩]) t := by
  cases hphase : s.phase k with
  | driven onOff =>
    simp only [step, hphase, Option.some.injEq] at hstep
    subst hstep
    have hasked : lastAsked k done = some onOff := h.asking k onOff (Or.inr hphase)
    refine written_cell .switchPin onOff h (fun d => ?_) ?_
      (fun j hj => to_phase_other _ _ hj) ?_ ?_ (Bool.not_not onOff) ?_
    · cases d <;> simp [Act.writes, Act.asked?]
    · rw [lastAsked_record, Act.asked?, ite_self, Option.none_or]
      exact hasked
    · intro v hv
      change (State.to _ k .idle).phase k = _ ∨ (State.to _ k .idle).phase k = _ at hv
      rw [to_phase_self] at hv
      rcases hv with hv | hv <;> cases hv
    · intro d hd hpast
      cases d with
      | flag => exact ⟨trivial, hasked⟩
      | amplifyPin =>
        refine ⟨fun v hv => ?_, hasked⟩
        rw [hphase] at hv
        cases hv
      | switchPin => exact absurd rfl hd
    · intro d hd
      cases d with
      | switchPin => exact absurd rfl hd
      | flag | amplifyPin => rfl
  | idle => simp only [step, hphase, reduceCtorEq] at hstep
  | stored onOff => simp only [step, hphase, reduceCtorEq] at hstep

theorem initial_written : Written [] initial := by
  refine ⟨?_, nofun, ?_, fun c k hk => absurd rfl hk⟩
  · intro k onOff hk
    rcases hk with hk | hk <;> cases hk
  · intro c _
    cases c <;> rfl

theorem run_written {acts : List Act} {s : State} (hrun : run step initial acts = some s) :
    Written acts s := by
  refine run_history (fun done s a t h hstep => ?_) initial_written hrun
  obtain ⟨k, move⟩ := a
  cases move with
  | command argv => exact step_command h hstep
  | driveAmplify => exact step_amplify h hstep
  | driveSwitch => exact step_switch h hstep

def InStep (s : State) : Prop := s.amplifyPin = s.switchPin ∧ s.amplifyPin = !s.isAmplifying

/-- The consoles that wrote the pins last had asked for the same as the one that stored the
setting last. -/
def Agree (acts : List Act) : Prop :=
  ∀ c k j, lastAt .flag acts = some k → lastAt c acts = some j → lastAsked j acts = lastAsked k acts

theorem inStep_iff_asks (s : State) : InStep s ↔ ∀ c, s.asks c = s.asks .flag := by
  constructor
  · rintro ⟨hpins, hflag⟩ c
    cases c with
    | flag => rfl
    | amplifyPin => exact (congrArg not hflag).trans (Bool.not_not _)
    | switchPin => exact (congrArg not (hpins.symm.trans hflag)).trans (Bool.not_not _)
  · intro h
    have hamplify : (!s.amplifyPin) = s.isAmplifying := h .amplifyPin
    have hswitch : (!s.switchPin) = s.isAmplifying := h .switchPin
    have hpins : s.amplifyPin = s.switchPin := Bool.not_inj (hamplify.trans hswitch.symm)
    exact ⟨hpins, by rw [← hamplify, Bool.not_not]⟩

theorem past_idle (c : Cell) : Past c .idle := by
  cases c with
  | flag => trivial
  | amplifyPin => exact nofun
  | switchPin => rfl

/-- Between the calls the pins and the member are in step exactly if the consoles that came
last agree. -/
theorem in_step_iff {acts : List Act} {s : State} (hrun : run step initial acts = some s)
    (hidle : ∀ k, s.phase k = .idle) : InStep s ↔ Agree acts := by
  have h := run_written hrun
  have hpast : ∀ c k, Past c (s.phase k) := fun c k => (hidle k).symm ▸ past_idle c
  rw [inStep_iff_asks]
  cases hflag : lastAt .flag acts with
  | none =>
    have hnobody : ∀ k, lastAsked k acts = none := by
      intro k
      by_contra hk
      exact h.reached .flag k hk trivial hflag
    have hnone : ∀ c, lastAt c acts = none := by
      intro c
      cases hc : lastAt c acts with
      | none => rfl
      | some k =>
        have hvalue := h.value c k hc (hpast c k)
        rw [hnobody k] at hvalue
        cases hvalue
    refine iff_of_true (fun c => ?_) (fun c k j hk _ => ?_)
    · rw [h.untouched c (hnone c), h.untouched .flag hflag]
    · rw [hflag] at hk
      cases hk
  | some k =>
    have hk := h.value .flag k hflag trivial
    constructor
    · intro hasks c i j hi hj
      rw [hflag] at hi
      cases hi
      rw [h.value c j hj (hpast c j), hk, hasks c]
    · intro hagree c
      obtain ⟨j, hj⟩ := Option.ne_none_iff_exists'.mp
        (h.reached c k (by rw [hk]; nofun) (hpast c k))
      have hsame := hagree c k j hflag hj
      rw [h.value c j hj (hpast c j), hk] at hsame
      exact Option.some.inj hsame

def onCommand : List Bytes := [ascii "amplify", ascii "on"]

def offCommand : List Bytes := [ascii "amplify", ascii "off"]

def inTurn : List Act :=
  [⟨.usb, .command onCommand⟩, ⟨.usb, .driveAmplify⟩, ⟨.usb, .driveSwitch⟩,
    ⟨.tcp, .command offCommand⟩, ⟨.tcp, .driveAmplify⟩, ⟨.tcp, .driveSwitch⟩]

theorem in_step_inTurn : ∃ s, run step initial inTurn = some s ∧ (InStep s ↔ Agree inTurn) := by
  obtain ⟨s, hrun, husb, htcp⟩ : ∃ s, run step initial inTurn = some s ∧
      s.phase .usb = .idle ∧ s.phase .tcp = .idle := ⟨_, rfl, rfl, rfl⟩
  refine ⟨s, hrun, in_step_iff hrun (fun k => ?_)⟩
  cases k with
  | usb => exact husb
  | tcp => exact htcp

/-- Both consoles drive the amplifier pin before either drives the switch pin. -/
def crossed : List Act :=
  [⟨.usb, .command onCommand⟩, ⟨.tcp, .command offCommand⟩, ⟨.usb, .driveAmplify⟩,
    ⟨.tcp, .driveAmplify⟩, ⟨.tcp, .driveSwitch⟩, ⟨.usb, .driveSwitch⟩]

theorem crossed_pins_differ : ∃ s, run step initial crossed = some s ∧
    (∀ k, s.phase k = .idle) ∧ s.isAmplifying = false ∧ s.amplifyPin = true ∧
      s.switchPin = false := by
  obtain ⟨s, hrun, husb, htcp, hcells⟩ : ∃ s, run step initial crossed = some s ∧
      s.phase .usb = .idle ∧ s.phase .tcp = .idle ∧ s.isAmplifying = false ∧
        s.amplifyPin = true ∧ s.switchPin = false := ⟨_, rfl, rfl, rfl, rfl, rfl, rfl⟩
  refine ⟨s, hrun, fun k => ?_, hcells⟩
  cases k with
  | usb => exact husb
  | tcp => exact htcp

def Phase.asks? : Phase → Option Bool
  | .idle => none
  | .stored onOff | .driven onOff => some onOff

/-- No command sets the opposite of what a call in progress sets. -/
def Uncrossed (s : State) (a : Act) : Prop :=
  ∀ onOff, a.asked? = some onOff → ∀ k v, (s.phase k).asks? = some v → v = onOff

/-- Every call in progress carries the stored setting, and a pin that is not at it yet is still
to be driven. -/
structure Aligned (s : State) : Prop where
  carries : ∀ k v, (s.phase k).asks? = some v → v = s.isAmplifying
  amplifyPin : s.amplifyPin = !s.isAmplifying ∨ ∃ k v, s.phase k = .stored v
  switchPin : s.switchPin = !s.isAmplifying ∨ ∃ k, s.phase k ≠ .idle

theorem aligned_command {s t : State} {k : Console} {argv : List Bytes}
    (huncrossed : Uncrossed s ⟨k, .command argv⟩) (h : Aligned s)
    (hstep : step s ⟨k, .command argv⟩ = some t) : Aligned t := by
  cases hphase : s.phase k with
  | idle =>
    cases hrequest : request argv with
    | query | syntaxError =>
      simp only [step, hphase, hrequest, Option.some.injEq] at hstep
      subst hstep
      exact ⟨h.carries, h.amplifyPin, h.switchPin⟩
    | set onOff =>
      simp only [step, hphase, hrequest, Option.some.injEq] at hstep
      subst hstep
      have hasks : Act.asked? ⟨k, .command argv⟩ = some onOff := by simp only [Act.asked?, hrequest]
      refine ⟨fun j v hv => ?_, Or.inr ⟨k, onOff, to_phase_self _ _ _⟩, Or.inr ⟨k, ?_⟩⟩
      · by_cases hj : j = k
        · rw [hj, to_phase_self] at hv
          exact (Option.some.inj hv).symm
        · rw [to_phase_other _ _ hj] at hv
          exact huncrossed onOff hasks j v hv
      · rw [to_phase_self]
        nofun
  | stored onOff | driven onOff => simp only [step, hphase, reduceCtorEq] at hstep

theorem aligned_amplify {s t : State} {k : Console} (h : Aligned s)
    (hstep : step s ⟨k, .driveAmplify⟩ = some t) : Aligned t := by
  cases hphase : s.phase k with
  | stored onOff =>
    simp only [step, hphase, Option.some.injEq] at hstep
    subst hstep
    have hown : onOff = s.isAmplifying := h.carries k onOff (by rw [hphase]; rfl)
    refine ⟨fun j v hv => ?_, Or.inl (congrArg not hown), Or.inr ⟨k, ?_⟩⟩
    · by_cases hj : j = k
      · rw [hj, to_phase_self] at hv
        exact (Option.some.inj hv).symm.trans hown
      · rw [to_phase_other _ _ hj] at hv
        exact h.carries j v hv
    · rw [to_phase_self]
      nofun
  | idle => simp only [step, hphase, reduceCtorEq] at hstep
  | driven onOff => simp only [step, hphase, reduceCtorEq] at hstep

theorem aligned_switch {s t : State} {k : Console} (h : Aligned s)
    (hstep : step s ⟨k, .driveSwitch⟩ = some t) : Aligned t := by
  cases hphase : s.phase k with
  | driven onOff =>
    simp only [step, hphase, Option.some.injEq] at hstep
    subst hstep
    have hown : onOff = s.isAmplifying := h.carries k onOff (by rw [hphase]; rfl)
    refine ⟨fun j v hv => ?_, ?_, Or.inl (congrArg not hown)⟩
    · change ((State.to _ k .idle).phase j).asks? = some v at hv
      by_cases hj : j = k
      · rw [hj, to_phase_self] at hv
        cases hv
      · rw [to_phase_other _ _ hj] at hv
        exact h.carries j v hv
    · rcases h.amplifyPin with hpin | ⟨j, v, hj⟩
      · exact Or.inl hpin
      · have hjk : j ≠ k := by
          rintro rfl
          rw [hphase] at hj
          cases hj
        exact Or.inr ⟨j, v, (to_phase_other _ _ hjk).trans hj⟩
  | idle => simp only [step, hphase, reduceCtorEq] at hstep
  | stored onOff => simp only [step, hphase, reduceCtorEq] at hstep

theorem step_aligned (s : State) (a : Act) (t : State) (huncrossed : Uncrossed s a)
    (h : Aligned s) (hstep : step s a = some t) : Aligned t := by
  obtain ⟨k, move⟩ := a
  cases move with
  | command argv => exact aligned_command huncrossed h hstep
  | driveAmplify => exact aligned_amplify h hstep
  | driveSwitch => exact aligned_switch h hstep

theorem in_step_of_uncrossed {acts : List Act} {s : State}
    (huncrossed : ∀ done a todo t, acts = done ++ a :: todo → run step initial done = some t →
      Uncrossed t a)
    (hrun : run step initial acts = some s) (hidle : ∀ k, s.phase k = .idle) : InStep s := by
  have hstart : Aligned initial := ⟨nofun, Or.inl rfl, Or.inl rfl⟩
  obtain ⟨-, hamplify, hswitch⟩ := run_invariant_of_allowed step_aligned hstart huncrossed hrun
  have hpin : s.amplifyPin = !s.isAmplifying := by
    rcases hamplify with hpin | ⟨k, v, hk⟩
    · exact hpin
    · rw [hidle k] at hk
      cases hk
  rcases hswitch with hother | ⟨k, hk⟩
  · exact ⟨hpin.trans hother.symm, hpin⟩
  · exact absurd (hidle k) hk

end MeshRoofFirmware.Amplifier
