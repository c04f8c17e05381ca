import MeshRoofFirmware.Library.Ownership
import MeshRoofFirmware.Library.Runs

set_option autoImplicit false

/-! The two tasks that share the TCP console. Descriptors are numbers that name connections
while they are open; a connection is known by the order in which it was accepted. -/
namespace MeshRoofFirmware.TcpConsole
open Library.Runs Library.Ownership

inductive Binder where
  | accepting
  | checking (client : Held)
  | sending (client : Held)
  | rejecting (client : Held)

/-- Where `tcp_console_task` is, with `tcp_fd`: in `xQueueReceive`, before `attach`, in the
loop around `process()`, past `detach`, and past `close` with the number still in `tcp_fd`. -/
inductive Console where
  | waiting
  | received (tcp : Held)
  | serving (tcp : Held)
  | detached (tcp : Held)
  | closed (tcp : Held)

def Binder.held : Binder → Option Held
  | .accepting => none
  | .checking client | .sending client | .rejecting client => some client

/-- Past `close` the number still stands in `tcp_fd`, but is not used again: it counts as held by
nobody there. -/
def Console.held : Console → Option Held
  | .waiting | .closed _ => none
  | .received tcp | .serving tcp | .detached tcp => some tcp

def Console.tcpFd : Console → Option ℕ
  | .waiting => none
  | .received tcp | .serving tcp | .detached tcp | .closed tcp => some tcp.name

/-- `table` is what the open numbers name. `closes` counts how often a connection was closed;
`touched` lists what `shell2` read and wrote: the connection of its session, and the one its
number named then. -/
structure State where
  table : ℕ → Option ℕ
  accepted : ℕ
  closes : ℕ → ℕ
  binder : Binder
  queue : Option Held
  console : Console
  touched : List (ℕ × ℕ)

def initial : State := ⟨fun _ => none, 0, fun _ => 0, .accepting, none, .waiting, []⟩

/-- `close` closes what the number names, and fails on a number that is not open. -/
def State.close (s : State) (fd : ℕ) : State :=
  match s.table fd with
  | none => s
  | some connection =>
    { s with
      table := Function.update s.table fd none
      closes := Function.update s.closes connection (s.closes connection + 1) }

def State.transfer (s : State) (tcp : Held) : State :=
  match s.table tcp.name with
  | none => s
  | some connection => { s with touched := s.touched ++ [(tcp.token, connection)] }

inductive Action where
  | accept (fd : ℕ)
  | check
  | send
  | reject
  | receive
  | attach
  | transfer
  | exit
  | fail
  | close
  | reset
  deriving DecidableEq

def step (s : State) : Action → Option State
  | .accept fd =>
    match s.binder with
    | .accepting =>
      if 0 < fd ∧ s.table fd = none then
        some { s with
          table := Function.update s.table fd (some s.accepted)
          accepted := s.accepted + 1
          binder := .checking ⟨fd, s.accepted⟩ }
      else none
    | _ => none
  | .check =>
    match s.binder with
    | .checking client =>
      if s.console.tcpFd ≠ none then some { s with binder := .rejecting client }
      else some { s with binder := .sending client }
    | _ => none
  | .send =>
    match s.binder, s.queue with
    | .sending client, none => some { s with binder := .accepting, queue := some client }
    | .sending client, some _ => some { s with binder := .rejecting client }
    | _, _ => none
  | .reject =>
    match s.binder with
    | .rejecting client => some { s.close client.name with binder := .accepting }
    | _ => none
  | .receive =>
    match s.console, s.queue with
    | .waiting, some tcp => some { s with queue := none, console := .received tcp }
    | _, _ => none
  | .attach =>
    match s.console with
    | .received tcp => some { s with console := .serving tcp }
    | _ => none
  -- `rx_read`, `tx_write` and `printf` go to the number in the shell's context
  | .transfer =>
    match s.console with
    | .serving tcp => some (s.transfer tcp)
    | _ => none
  -- `MeshRoofShell::exit` closes that number, the session goes on until `process()` fails
  | .exit =>
    match s.console with
    | .serving tcp => some (s.close tcp.name)
    | _ => none
  | .fail =>
    match s.console with
    | .serving tcp => some { s with console := .detached tcp }
    | _ => none
  | .close =>
    match s.console with
    | .detached tcp => some { s.close tcp.name with console := .closed tcp }
    | _ => none
  | .reset =>
    match s.console with
    | .closed _ => some { s with console := .waiting }
    | _ => none

inductive Does (s : State) : Action → State → Prop
  | accept (fd) (hbinder : s.binder = .accepting) (hfree : s.table fd = none) :
      Does s (.accept fd) { s with
        table := Function.update s.table fd (some s.accepted)
        accepted := s.accepted + 1
        binder := .checking ⟨fd, s.accepted⟩ }
  | checkBusy (client) (hbinder : s.binder = .checking client) :
      Does s .check { s with binder := .rejecting client }
  | checkFree (client) (hbinder : s.binder = .checking client) :
      Does s .check { s with binder := .sending client }
  | send (client) (hbinder : s.binder = .sending client) (hqueue : s.queue = none) :
      Does s .send { s with binder := .accepting, queue := some client }
  | sendFull (client) (hbinder : s.binder = .sending client) :
      Does s .send { s with binder := .rejecting client }
  | reject (client) (hbinder : s.binder = .rejecting client) :
      Does s .reject { s.close client.name with binder := .accepting }
  | receive (tcp) (hconsole : s.console = .waiting) (hqueue : s.queue = some tcp) :
      Does s .receive { s with queue := none, console := .received tcp }
  | attach (tcp) (hconsole : s.console = .received tcp) :
      Does s .attach { s with console := .serving tcp }
  | transfer (tcp) (hconsole : s.console = .serving tcp) :
      Does s .transfer (s.transfer tcp)
  | exit (tcp) (hconsole : s.console = .serving tcp) : Does s .exit (s.close tcp.name)
  | fail (tcp) (hconsole : s.console = .serving tcp) :
      Does s .fail { s with console := .detached tcp }
  | close (tcp) (hconsole : s.console = .detached tcp) :
      Does s .close { s.close tcp.name with console := .closed tcp }
  | reset (tcp) (hconsole : s.console = .closed tcp) :
      Does s .reset { s with console := .waiting }

theorem step_does {s t : State} {a : Action} (h : step s a = some t) : Does s a t := by
  cases a with
  | accept fd =>
    cases hbinder : s.binder with
    | accepting =>
      simp only [step, hbinder, Option.ite_none_right_eq_some, Option.some.injEq] at h
      obtain ⟨⟨-, hfree⟩, rfl⟩ := h
      exact .accept fd hbinder hfree
    | _ => simp only [step, hbinder, reduceCtorEq] at h
  | check =>
    cases hbinder : s.binder with
    | checking client =>
      simp only [step, hbinder] at h
      split_ifs at h
      · cases h
        exact .checkBusy client hbinder
      · cases h
        exact .checkFree client hbinder
    | _ => simp only [step, hbinder, reduceCtorEq] at h
  | send =>
    cases hbinder : s.binder with
    | sending client =>
      cases hqueue : s.queue with
      | none =>
        simp only [step, hbinder, hqueue, Option.some.injEq] at h
        subst h
        exact .send client hbinder hqueue
      | some waiting =>
        simp only [step, hbinder, hqueue, Option.some.injEq] at h
        subst h
        have hdoes := Does.sendFull client hbinder
        rwa [hqueue] at hdoes
    | _ => simp only [step, hbinder, reduceCtorEq] at h
  | reject =>
    cases hbinder : s.binder with
    | rejecting client =>
      simp only [step, hbinder, Option.some.injEq] at h
      subst h
      exact .reject client hbinder
    | _ => simp only [step, hbinder, reduceCtorEq] at h
  | receive =>
    cases hconsole : s.console with
    | waiting =>
      cases hqueue : s.queue with
      | none => simp only [step, hconsole, hqueue, reduceCtorEq] at h
      | some tcp =>
        simp only [step, hconsole, hqueue, Option.some.injEq] at h
        subst h
        exact .receive tcp hconsole hqueue
    | _ => simp only [step, hconsole, reduceCtorEq] at h
  | attach =>
    cases hconsole : s.console with
    | received tcp =>
      simp only [step, hconsole, Option.some.injEq] at h
      subst h
      exact .attach tcp hconsole
    | _ => simp only [step, hconsole, reduceCtorEq] at h
  | transfer =>
    cases hconsole : s.console with
    | serving tcp =>
      simp only [step, hconsole, Option.some.injEq] at h
      subst h
      exact .transfer tcp hconsole
    | _ => simp only [step, hconsole, reduceCtorEq] at h
  | exit =>
    cases hconsole : s.console with
    | serving tcp =>
      simp only [step, hconsole, Option.some.injEq] at h
      subst h
      exact .exit tcp hconsole
    | _ => simp only [step, hconsole, reduceCtorEq] at h
  | fail =>
    cases hconsole : s.console with
    | serving tcp =>
      simp only [step, hconsole, Option.some.injEq] at h
      subst h
      exact .fail tcp hconsole
    | _ => simp only [step, hconsole, reduceCtorEq] at h
  | close =>
    cases hconsole : s.console with
    | detached tcp =>
      simp only [step, hconsole, Option.some.injEq] at h
      subst h
      exact .close tcp hconsole
    | _ => simp only [step, hconsole, reduceCtorEq] at h
  | reset =>
    cases hconsole : s.console with
    | closed tcp =>
      simp only [step, hconsole, Option.some.injEq] at h
      subst h
      exact .reset tcp hconsole
    | _ => simp only [step, hconsole, reduceCtorEq] at h

inductive Place where
  | hand
  | queue
  | tcp
  deriving DecidableEq

def State.place (s : State) : Place → Option Held
  | .hand => s.binder.held
  | .queue => s.queue
  | .tcp => s.console.held

def view (s : State) : Ledger Place := ⟨s.place, s.table, s.accepted, s.closes⟩

theorem view_eq {s : State} {l : Ledger Place} (hplace : ∀ p, s.place p = l.place p)
    (htable : s.table = l.table) (hissued : s.accepted = l.issued)
    (hreleased : s.closes = l.released) : view s = l := by
  have he : s.place = l.place := funext hplace
  rw [view, he, htable, hissued, hreleased]

theorem view_close (s : State) (fd : ℕ) : view (s.close fd) = (view s).free fd := by
  have htable : (view s).table = s.table := rfl
  cases hfd : s.table fd with
  | none => rw [State.close, Ledger.free, htable, hfd]
  | some connection =>
    rw [State.close, Ledger.free, htable, hfd]
    exact view_eq (fun p => by cases p <;> rfl) rfl rfl rfl

theorem view_transfer (s : State) (tcp : Held) : view (s.transfer tcp) = view s := by
  rw [State.transfer]
  split
  · rfl
  · exact view_eq (fun p => by cases p <;> rfl) rfl rfl rfl

theorem close_touched (s : State) (fd : ℕ) : (s.close fd).touched = s.touched := by
  rw [State.close]
  split <;> rfl

/-- `accept` returns a number that is still kept somewhere, though it is not open. -/
def Reuses (s : State) (a : Action) : Prop :=
  ∃ fd p h, a = .accept fd ∧ s.place p = some h ∧ h.name = fd

theorem view_does {s t : State} {a : Action} (h : Does s a t) :
    view t = view s ∨
    (∃ fd, a = .accept fd ∧ s.place .hand = none ∧ s.table fd = none ∧
      view t = (view s).issue .hand fd) ∨
    (∃ p q u, s.place p = some u ∧ s.place q = none ∧ view t = (view s).hand p q u) ∨
    (∃ p u, s.place p = some u ∧ view t = ((view s).free u.name).drop p) ∨
    (a = .exit ∧ ∃ u, s.place .tcp = some u ∧ view t = (view s).free u.name) := by
  cases h with
  | accept fd hbinder hfree =>
    refine Or.inr (Or.inl ⟨fd, rfl, congrArg Binder.held hbinder, hfree, ?_⟩)
    exact view_eq (fun p => by cases p <;> rfl) rfl rfl rfl
  | checkBusy client hbinder | checkFree client hbinder | sendFull client hbinder =>
    have hheld : s.binder.held = some client := congrArg Binder.held hbinder
    refine Or.inl (view_eq (fun p => ?_) rfl rfl rfl)
    cases p with
    | hand => exact hheld.symm
    | queue | tcp => rfl
  | send client hbinder hqueue =>
    refine Or.inr (Or.inr (Or.inl ⟨.hand, .queue, client, congrArg Binder.held hbinder, hqueue, ?_⟩))
    exact view_eq (fun p => by cases p <;> rfl) rfl rfl rfl
  | reject client hbinder =>
    refine Or.inr (Or.inr (Or.inr (Or.inl ⟨.hand, client, congrArg Binder.held hbinder, ?_⟩)))
    rw [← view_close]
    exact view_eq (fun p => by cases p <;> rfl) rfl rfl rfl
  | receive tcp hconsole hqueue =>
    refine Or.inr (Or.inr (Or.inl ⟨.queue, .tcp, tcp, hqueue, congrArg Console.held hconsole, ?_⟩))
    exact view_eq (fun p => by cases p <;> rfl) rfl rfl rfl
  | attach tcp hconsole | fail tcp hconsole =>
    have hheld : s.console.held = some tcp := congrArg Console.held hconsole
    refine Or.inl (view_eq (fun p => ?_) rfl rfl rfl)
    cases p with
    | tcp => exact hheld.symm
    | hand | queue => rfl
  | transfer tcp hconsole => exact Or.inl (view_transfer s tcp)
  | exit tcp hconsole =>
    refine Or.inr (Or.inr (Or.inr (Or.inr ⟨rfl, tcp, congrArg Console.held hconsole, ?_⟩)))
    exact view_close s tcp.name
  | close tcp hconsole =>
    refine Or.inr (Or.inr (Or.inr (Or.inl ⟨.tcp, tcp, congrArg Console.held hconsole, ?_⟩)))
    rw [← view_close]
    exact view_eq (fun p => by cases p <;> rfl) rfl rfl rfl
  | reset tcp hconsole =>
    have hheld : s.console.held = none := congrArg Console.held hconsole
    refine Or.inl (view_eq (fun p => ?_) rfl rfl rfl)
    cases p with
    | tcp => exact hheld.symm
    | hand | queue => rfl

theorem view_sound {s t : State} {a : Action} (hs : Sound (view s)) (hreuse : ¬ Reuses s a)
    (h : Does s a t) : Sound (view t) := by
  rcases view_does h with he | ⟨fd, rfl, hhand, hfree, he⟩ | ⟨p, q, u, hp, hq, he⟩ |
    ⟨p, u, hp, he⟩ | ⟨-, u, hp, he⟩
  · rw [he]
    exact hs
  · rw [he]
    exact issue_sound hs hhand hfree (fun p u hp e => hreuse ⟨fd, p, u, rfl, hp, e⟩)
  · rw [he]
    exact hand_sound hs hp hq
  · rw [he]
    refine drop_sound (free_sound hs u.name) (fun v hv => ?_)
    rw [free_place] at hv
    cases hp.symm.trans hv
    exact free_table (view s) u.name
  · rw [he]
    exact free_sound hs u.name

theorem touched_does {s t : State} {a : Action} (hs : Sound (view s)) (h : Does s a t)
    {r : ℕ × ℕ} (hr : r ∈ t.touched) : r ∈ s.touched ∨ r.2 = r.1 := by
  cases h with
  | transfer tcp hconsole =>
    have hplace : (view s).place .tcp = some tcp := congrArg Console.held hconsole
    rw [State.transfer] at hr
    split at hr
    next => exact Or.inl hr
    next connection hnamed =>
      rcases List.mem_append.mp hr with hold | hnew
      · exact Or.inl hold
      · cases List.mem_singleton.mp hnew
        exact Or.inr (hs.holds hplace hnamed)
  | exit tcp hconsole => exact Or.inl (close_touched s tcp.name ▸ hr)
  | reject client hbinder => exact Or.inl (close_touched s client.name ▸ hr)
  | close tcp hconsole => exact Or.inl (close_touched s tcp.name ▸ hr)
  | _ => exact Or.inl hr

def State.Holds (s : State) (p : Place) (connection : ℕ) : Prop :=
  (view s).Holds p connection

/-- Every accepted connection is held in one place or was closed once, at most one is the
active one, and `shell2` used only the connection of its session. -/
structure Owned (s : State) : Prop where
  accounted : ∀ connection < s.accepted,
    (s.closes connection = 1 ∧ ∀ p, ¬ s.Holds p connection) ∨
      (s.closes connection = 0 ∧ ∃! p, s.Holds p connection)
  oneActive : ∀ c d, s.Holds .tcp c → s.Holds .tcp d → c = d
  own : ∀ r ∈ s.touched, r.2 = r.1

def Kept (s : State) : Prop :=
  Sound (view s) ∧ ∀ r ∈ s.touched, r.2 = r.1

theorem Kept.owned {s : State} (h : Kept s) : Owned s := by
  obtain ⟨hsound, hown⟩ := h
  refine ⟨fun connection hlt => hsound.accounted hlt, ?_, hown⟩
  rintro c d ⟨u, hu, hc⟩ ⟨v, hv, hd⟩
  cases hu.symm.trans hv
  exact Option.some.inj (hc.symm.trans hd)

theorem initial_kept : Kept initial := by
  have hplace : ∀ p, (view initial).place p = none := fun p => by cases p <;> rfl
  exact ⟨empty_sound hplace (fun _ => rfl) rfl (fun _ => rfl), nofun⟩

theorem step_kept (s : State) (a : Action) (t : State) (hreuse : ¬ Reuses s a) (hs : Kept s)
    (hstep : step s a = some t) : Kept t := by
  obtain ⟨hsound, hown⟩ := hs
  have hdoes := step_does hstep
  refine ⟨view_sound hsound hreuse hdoes, fun r hr => ?_⟩
  rcases touched_does hsound hdoes hr with hold | hnew
  · exact hown r hold
  · exact hnew

theorem reuse_not_owned {s t : State} {a : Action} (hreuse : Reuses s a)
    (hstep : step s a = some t) : ¬ Owned t := by
  obtain ⟨fd, p, u, rfl, hp, hname⟩ := hreuse
  cases step_does hstep with
  | accept _ hbinder hfree =>
    intro howned
    have hnamed : Function.update s.table fd (some s.accepted) fd = some s.accepted :=
      Function.update_self _ _ _
    have hpne : p ≠ .hand := by
      rintro rfl
      have hnone : s.place .hand = none := congrArg Binder.held hbinder
      rw [hnone] at hp
      cases hp
    rcases howned.accounted s.accepted (Nat.lt_succ_self _) with ⟨-, hnowhere⟩ | ⟨-, hunique⟩
    · exact hnowhere .hand ⟨_, rfl, hnamed⟩
    · refine hpne (hunique.unique ⟨u, ?_, ?_⟩ ⟨_, rfl, hnamed⟩)
      · cases p with
        | hand => exact absurd rfl hpne
        | queue | tcp => exact hp
      · rw [hname]
        exact hnamed

def OwnedThroughout (acts : List Action) : Prop :=
  ∀ done todo t, acts = done ++ todo → run step initial done = some t → Owned t

def ReusesNone (acts : List Action) : Prop :=
  ∀ done a todo t, acts = done ++ a :: todo → run step initial done = some t → ¬ Reuses t a

theorem owned_of_reusesNone {acts : List Action} (h : ReusesNone acts) : OwnedThroughout acts := by
  intro done todo t hacts hdone
  refine (run_invariant_of_allowed step_kept initial_kept ?_ hdone).owned
  intro before a after m hbefore hm
  refine h before a (after ++ todo) m ?_ hm
  rw [hacts, hbefore, List.append_assoc, List.cons_append]

/-- The connections keep their owners in every state of a run exactly if no step of it reuses
a number that is still kept. -/
theorem run_owned_iff {acts : List Action} {s : State} (hrun : run step initial acts = some s) :
    OwnedThroughout acts ↔ ReusesNone acts := by
  constructor
  · intro howned done a todo t hacts hdone hreuse
    rw [hacts] at hrun
    obtain ⟨m, hm, hrest⟩ := run_append_iff.mp hrun
    rw [hdone] at hm
    cases hm
    obtain ⟨n, hstep, -⟩ := run_cons_iff.mp hrest
    refine reuse_not_owned hreuse hstep (howned (done ++ [a]) todo n ?_ ?_)
    · rw [hacts, List.append_assoc]
      rfl
    · exact run_append_iff.mpr ⟨t, hdone, run_cons_iff.mpr ⟨n, hstep, run_nil⟩⟩
  · exact owned_of_reusesNone

def otherNumber : List Action :=
  [.accept 5, .check, .send, .receive, .attach, .transfer, .exit, .accept 6, .fail, .close, .reset,
    .check, .send]

theorem run_owned_otherNumber : ∃ s, run step initial otherNumber = some s ∧
    (OwnedThroughout otherNumber ↔ ReusesNone otherNumber) :=
  ⟨_, rfl, run_owned_iff rfl⟩

def sameNumber : List Action :=
  [.accept 5, .check, .send, .receive, .attach, .exit, .accept 5, .fail, .close, .reset,
    .check, .send, .accept 5, .receive, .attach, .transfer]

theorem sameNumber_not_owned :
    ¬ ∀ acts s, run step initial acts = some s → Owned s := by
  intro h
  have howned := h sameNumber _ rfl
  have htouched : (1, 2) = (1, 1) := congrArg (Prod.mk 1) (howned.own (1, 2) (by decide))
  exact absurd htouched (by decide)

theorem not_reuses_of_live {s t : State} {a : Action} (hlive : Live (view s)) (h : Does s a t) :
    ¬ Reuses s a := by
  rintro ⟨fd, p, u, rfl, hp, hname⟩
  cases h with
  | accept _ hbinder hfree =>
    have hnamed : s.table u.name = some u.token := hlive p u hp
    rw [hname, hfree] at hnamed
    cases hnamed

theorem view_live {s t : State} {a : Action} (hs : Sound (view s)) (hlive : Live (view s))
    (ha : a ≠ .exit) (h : Does s a t) : Live (view t) := by
  rcases view_does h with he | ⟨fd, -, -, hfree, he⟩ | ⟨p, q, u, hp, -, he⟩ | ⟨p, u, hp, he⟩ |
    ⟨hexit, -⟩
  · rw [he]
    exact hlive
  · rw [he]
    exact issue_live hlive hfree
  · rw [he]
    exact hand_live hlive hp
  · rw [he]
    exact release_live hlive hs hp
  · exact absurd hexit ha

theorem step_live (s : State) (a : Action) (t : State) (ha : a ≠ .exit)
    (hs : Kept s ∧ Live (view s)) (hstep : step s a = some t) : Kept t ∧ Live (view t) := by
  obtain ⟨hkept, hlive⟩ := hs
  have hdoes := step_does hstep
  exact ⟨step_kept s a t (not_reuses_of_live hlive hdoes) hkept hstep,
    view_live hkept.1 hlive ha hdoes⟩

/-- Only `exit` frees a number behind its holder's back. -/
theorem owned_of_no_exit {acts : List Action} (hexit : .exit ∉ acts) : OwnedThroughout acts := by
  intro done todo t hacts hdone
  have hlive : Live (view initial) := by
    intro p u hp
    cases p <;> cases hp
  have hkind : ∀ a ∈ done, a ≠ .exit := by
    rintro a ha rfl
    rw [hacts] at hexit
    exact hexit (List.mem_append_left todo ha)
  exact (run_invariant_of_forall step_live ⟨initial_kept, hlive⟩ hkind hdone).1.owned

end MeshRoofFirmware.TcpConsole
