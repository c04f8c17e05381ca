import MeshRoofFirmware.TcpConsole
import Mathlib.Data.List.Range

set_option autoImplicit false

namespace MeshRoofFirmware.ClientService
open Library.Runs Library.Ownership TcpConsole

inductive Outcome where
  | served
  | refused
  deriving DecidableEq

/-- The console takes a client from the queue, or the binder has told it that there are too
many and closes it. -/
def outcome? (s : State) : Action → Option (Outcome × ℕ)
  | .receive => s.queue.map fun tcp => (.served, tcp.token)
  | .reject => s.binder.held.map fun client => (.refused, client.token)
  | _ => none

def outcomes (acts : List Action) : List (Outcome × ℕ) := observed step outcome? initial acts

def served (seen : List (Outcome × ℕ)) : List ℕ :=
  seen.filterMap fun o => if o.1 = .served then some o.2 else none

theorem served_sublist (seen : List (Outcome × ℕ)) : (served seen).Sublist (seen.map Prod.snd) := by
  induction seen with
  | nil => exact .slnil
  | cons o seen ih =>
    obtain ⟨outcome, n⟩ := o
    cases outcome with
    | served => exact ih.cons_cons n
    | refused => exact ih.cons n

def waiting (s : State) : List ℕ := (s.queue.toList ++ s.binder.held.toList).map Held.token

/-- Every accepted client is served, refused or on its way, and no client overtakes another. -/
structure Answered (seen : List (Outcome × ℕ)) (s : State) : Prop where
  once : (seen.map Prod.snd ++ waiting s).Perm (List.range s.accepted)
  order : (served seen ++ waiting s).Pairwise (· < ·)

theorem initial_answered : Answered [] initial := ⟨.nil, .nil⟩

theorem close_keeps (s : State) (fd : ℕ) : (s.close fd).binder = s.binder ∧
    (s.close fd).queue = s.queue ∧ (s.close fd).console = s.console ∧
    (s.close fd).accepted = s.accepted := by
  rw [State.close]
  split <;> exact ⟨rfl, rfl, rfl, rfl⟩

theorem close_waiting (s : State) (fd : ℕ) : waiting (s.close fd) = waiting s := by
  obtain ⟨hbinder, hqueue, -, -⟩ := close_keeps s fd
  rw [waiting, hbinder, hqueue, waiting]

theorem Answered.same {seen : List (Outcome × ℕ)} {s t : State} (h : Answered seen s)
    (hwaiting : waiting t = waiting s) (haccepted : t.accepted = s.accepted) :
    Answered (seen ++ []) t := by
  rw [List.append_nil]
  exact ⟨by rw [hwaiting, haccepted]; exact h.once, by rw [hwaiting]; exact h.order⟩

theorem Answered.accept {seen : List (Outcome × ℕ)} {s t : State} (h : Answered seen s)
    (hwaiting : waiting t = waiting s ++ [s.accepted]) (haccepted : t.accepted = s.accepted + 1) :
    Answered (seen ++ []) t := by
  rw [List.append_nil]
  have hold : ∀ n ∈ served seen ++ waiting s, n < s.accepted := by
    intro n hn
    have hmem : n ∈ seen.map Prod.snd ++ waiting s :=
      ((served_sublist seen).append_right (waiting s)).subset hn
    exact List.mem_range.mp (h.once.subset hmem)
  refine ⟨?_, ?_⟩
  · rw [hwaiting, haccepted, List.range_succ, ← List.append_assoc]
    exact h.once.append_right [s.accepted]
  · rw [hwaiting, ← List.append_assoc, List.pairwise_append]
    refine ⟨h.order, List.pairwise_singleton _ _, fun n hn m hm => ?_⟩
    rw [List.mem_singleton.mp hm]
    exact hold n hn

theorem Answered.serve {seen : List (Outcome × ℕ)} {s t : State} (h : Answered seen s) {n : ℕ}
    (hwaiting : waiting s = n :: waiting t) (haccepted : t.accepted = s.accepted) :
    Answered (seen ++ [(.served, n)]) t := by
  have hserved : served (seen ++ [(.served, n)]) = served seen ++ [n] := by
    rw [served, List.filterMap_append]
    rfl
  refine ⟨?_, ?_⟩
  · rw [List.map_append, List.append_assoc, haccepted]
    have honce := h.once
    rwa [hwaiting] at honce
  · rw [hserved, List.append_assoc]
    have horder := h.order
    rwa [hwaiting] at horder

theorem Answered.refuse {seen : List (Outcome × ℕ)} {s t : State} (h : Answered seen s) {n : ℕ}
    (hwaiting : waiting s = waiting t ++ [n]) (haccepted : t.accepted = s.accepted) :
    Answered (seen ++ [(.refused, n)]) t := by
  have hserved : served (seen ++ [(.refused, n)]) = served seen := by
    rw [served, List.filterMap_append]
    exact List.append_nil _
  refine ⟨?_, ?_⟩
  · have honce := h.once
    rw [hwaiting] at honce
    rw [List.map_append, List.append_assoc, haccepted]
    exact (List.perm_append_comm.append_left (seen.map Prod.snd)).trans honce
  · have horder := h.order
    rw [hwaiting, ← List.append_assoc] at horder
    rw [hserved]
    exact (List.pairwise_append.mp horder).1

theorem step_answered (seen : List (Outcome × ℕ)) (s : State) (a : Action) (t : State)
    (h : Answered seen s) (hstep : step s a = some t) :
    Answered (seen ++ (outcome? s a).toList) t := by
  have hdoes := step_does hstep
  cases hdoes with
  | accept fd hbinder hfree =>
    refine h.accept ?_ rfl
    rw [waiting, waiting, hbinder, List.map_append, List.map_append]
    simp only [Binder.held, Option.toList_none, Option.toList_some, List.map_nil, List.append_nil,
      List.map_cons]
  | checkBusy client hbinder | checkFree client hbinder | sendFull client hbinder =>
    refine h.same ?_ rfl
    rw [waiting, waiting, hbinder]
    rfl
  | send client hbinder hqueue =>
    refine h.same ?_ rfl
    rw [waiting, waiting, hbinder, hqueue]
    rfl
  | reject client hbinder =>
    obtain ⟨-, hqueue, -, haccepted⟩ := close_keeps s client.name
    rw [outcome?, hbinder]
    refine h.refuse ?_ haccepted
    rw [waiting, waiting, hbinder, hqueue, List.map_append, List.map_append]
    simp only [Binder.held, Option.toList_none, Option.toList_some, List.map_nil, List.append_nil,
      List.map_cons]
  | receive tcp hconsole hqueue =>
    rw [outcome?, hqueue]
    refine h.serve ?_ rfl
    rw [waiting, hqueue]
    rfl
  | attach tcp hconsole | fail tcp hconsole | reset tcp hconsole => exact h.same rfl rfl
  | transfer tcp hconsole =>
    refine h.same ?_ ?_ <;> (rw [State.transfer]; split <;> rfl)
  | exit tcp hconsole | close tcp hconsole =>
    exact h.same (close_waiting s tcp.name) (close_keeps s tcp.name).2.2.2

theorem run_answered {acts : List Action} {s : State} (hrun : run step initial acts = some s) :
    Answered (outcomes acts) s := run_observed step_answered initial_answered hrun

/-- In every run, whatever is closed twice or reused: each accepted client has been served, has
been refused or is on its way, and just one of these, once; and the clients that are served come
in the order in which they were accepted. -/
theorem clients_answered {acts : List Action} {s : State} (hrun : run step initial acts = some s) :
    ((outcomes acts).map Prod.snd ++ waiting s).Perm (List.range s.accepted) ∧
      (served (outcomes acts) ++ waiting s).Pairwise (· < ·) :=
  ⟨(run_answered hrun).once, (run_answered hrun).order⟩

def threeClients : List Action :=
  [.accept 3, .check, .send, .receive, .accept 4, .check, .reject, .attach, .fail, .close, .reset,
    .accept 3, .check, .send]

theorem clients_answered_three : ∃ s, run step initial threeClients = some s ∧
    ((outcomes threeClients).map Prod.snd ++ waiting s).Perm (List.range s.accepted) ∧
    (served (outcomes threeClients) ++ waiting s).Pairwise (· < ·) := by
  obtain ⟨s, hrun⟩ : ∃ s, run step initial threeClients = some s := ⟨_, rfl⟩
  exact ⟨s, hrun, clients_answered hrun⟩

/-- The steps that bring a client on; a session also reads, writes and exits. -/
def bringsOn : Action → Bool
  | .accept _ | .transfer | .exit => false
  | _ => true

def binderRank : Binder → ℕ
  | .accepting => 0
  | .rejecting _ => 1
  | .sending _ => 6
  | .checking _ => 7

def queueRank : Option Held → ℕ
  | none => 0
  | some _ => 5

def consoleRank : TcpConsole.Console → ℕ
  | .waiting => 0
  | .closed _ => 1
  | .detached _ => 2
  | .serving _ => 3
  | .received _ => 4

def rank (s : State) : ℕ := binderRank s.binder + queueRank s.queue + consoleRank s.console

theorem transfer_same (s : State) (tcp : Held) :
    rank (s.transfer tcp) = rank s ∧ (s.transfer tcp).accepted = s.accepted := by
  rw [State.transfer]
  split <;> exact ⟨rfl, rfl⟩

theorem step_rank (s : State) (a : Action) (t : State) (hstep : step s a = some t) :
    rank t + 7 * s.accepted + (if bringsOn a then 1 else 0) ≤ rank s + 7 * t.accepted := by
  have hdoes := step_does hstep
  cases hdoes with
  | accept fd hbinder hfree =>
    simp only [rank, hbinder, binderRank, bringsOn, Bool.false_eq_true, ↓reduceIte]
    omega
  | checkBusy client hbinder | checkFree client hbinder | sendFull client hbinder =>
    simp only [rank, hbinder, binderRank, bringsOn, ↓reduceIte]
    omega
  | send client hbinder hqueue =>
    simp only [rank, hbinder, hqueue, binderRank, queueRank, bringsOn, ↓reduceIte]
    omega
  | reject client hbinder =>
    obtain ⟨-, hqueue, hconsole, haccepted⟩ := close_keeps s client.name
    simp only [rank, hbinder, hqueue, hconsole, haccepted, binderRank, bringsOn, ↓reduceIte]
    omega
  | receive tcp hconsole hqueue =>
    simp only [rank, hconsole, hqueue, consoleRank, queueRank, bringsOn, ↓reduceIte]
    omega
  | attach tcp hconsole | fail tcp hconsole | reset tcp hconsole =>
    simp only [rank, hconsole, consoleRank, bringsOn, ↓reduceIte]
    omega
  | transfer tcp hconsole =>
    obtain ⟨hrank, haccepted⟩ := transfer_same s tcp
    rw [hrank, haccepted]
    exact Nat.le_refl _
  | exit tcp hconsole =>
    obtain ⟨hbinder, hqueue, hsame, haccepted⟩ := close_keeps s tcp.name
    rw [rank, hbinder, hqueue, hsame, haccepted]
    exact Nat.le_refl _
  | close tcp hconsole =>
    obtain ⟨hbinder, hqueue, -, haccepted⟩ := close_keeps s tcp.name
    simp only [rank, hbinder, hqueue, hconsole, haccepted, consoleRank, bringsOn, ↓reduceIte]
    omega

theorem blocked_idle {s : State} (hblocked : ∀ a, bringsOn a = true → step s a = none) :
    s.binder = .accepting ∧ s.queue = none ∧ s.console = .waiting := by
  have hconsole : s.console = .waiting := by
    cases hconsole : s.console with
    | waiting => rfl
    | received tcp =>
      have h := hblocked .attach rfl
      simp only [step, hconsole, reduceCtorEq] at h
    | serving tcp =>
      have h := hblocked .fail rfl
      simp only [step, hconsole, reduceCtorEq] at h
    | detached tcp =>
      have h := hblocked .close rfl
      simp only [step, hconsole, reduceCtorEq] at h
    | closed tcp =>
      have h := hblocked .reset rfl
      simp only [step, hconsole, reduceCtorEq] at h
  have hqueue : s.queue = none := by
    cases hqueue : s.queue with
    | none => rfl
    | some tcp =>
      have h := hblocked .receive rfl
      simp only [step, hconsole, hqueue, reduceCtorEq] at h
  refine ⟨?_, hqueue, hconsole⟩
  cases hbinder : s.binder with
  | accepting => rfl
  | checking client =>
    have h := hblocked .check rfl
    simp only [step, hbinder] at h
    split_ifs at h
  | sending client =>
    have h := hblocked .send rfl
    simp only [step, hbinder, hqueue, reduceCtorEq] at h
  | rejecting client =>
    have h := hblocked .reject rfl
    simp only [step, hbinder, reduceCtorEq] at h

/-- Each client costs the two tasks seven steps at most, and when no such step is left, every
client has been served or refused and the console waits for the next one. -/
theorem clients_settle {acts : List Action} {s : State} (hrun : run step initial acts = some s) :
    acts.countP bringsOn ≤ 7 * s.accepted ∧
      ((∀ a, bringsOn a = true → step s a = none) → s.console = .waiting ∧
        ((outcomes acts).map Prod.snd).Perm (List.range s.accepted)) := by
  refine ⟨?_, fun hblocked => ?_⟩
  · have hsupply := run_supply rank (fun s => 7 * s.accepted) bringsOn step_rank hrun
    have hnone : rank initial = 0 := rfl
    have hzero : initial.accepted = 0 := rfl
    simp only [hnone, hzero] at hsupply
    omega
  · obtain ⟨hbinder, hqueue, hconsole⟩ := blocked_idle hblocked
    have honce := (run_answered hrun).once
    rw [waiting, hbinder, hqueue] at honce
    exact ⟨hconsole, by simpa [Binder.held] using honce⟩

theorem clients_settle_three :
    let acts := threeClients ++ [.receive, .attach, .fail, .close, .reset]
    ∃ s, run step initial acts = some s ∧ acts.countP bringsOn ≤ 7 * s.accepted ∧
      s.console = .waiting ∧ ((outcomes acts).map Prod.snd).Perm (List.range s.accepted) := by
  intro acts
  obtain ⟨s, hrun, hblocked⟩ : ∃ s, run step initial acts = some s ∧
      ∀ a, bringsOn a = true → step s a = none := by
    refine ⟨_, rfl, fun a ha => ?_⟩
    cases a <;> first | rfl | cases ha
  obtain ⟨hfew, hsettled⟩ := clients_settle hrun
  exact ⟨s, hrun, hfew, hsettled hblocked⟩

end MeshRoofFirmware.ClientService
