import MeshRoofFirmware.Library.CText
import MeshRoofFirmware.Library.Polling

set_option autoImplicit false

namespace MeshRoofFirmware.PingSession
open Library.ByteCodec Library.CText Library.Polling

inductive SocketEvent where
  | byte (b : UInt8)
  | timeout
  | selectError
  | readError
  | closed
  deriving DecidableEq

def select : SocketEvent → ℤ
  | .timeout => 0
  | .selectError => -1
  | _ => 1

def read : SocketEvent → ℤ × Option UInt8
  | .byte b => (1, some b)
  | .closed => (0, none)
  | _ => (-1, none)

def rxRead (e : SocketEvent) : ℤ × Option UInt8 :=
  let ret := select e
  if ret > 0 then read e else (ret, none)

/-- The event for each call, half a second apart at most. A closed stream stays closed. -/
structure SocketStream where
  event : ℕ → SocketEvent
  closed_stays : ∀ n, event n = .closed → event (n + 1) = .closed

structure PingExit where
  event : ℕ
  sent : List Bytes
  printed : List Bytes
  inprocCleared : Bool
  deriving DecidableEq

def iacDoTm : Bytes := [0xff, 0xfd, 0x06]
def iacWillTm : Bytes := [0xff, 0xfb, 0x06]

def leave (n : ℕ) : PingExit := ⟨n, [], [], false⟩

def iacReceived (n : ℕ) (next : SocketEvent) : PingExit :=
  let iac2 := rxRead next
  if iac2.1 = 1 ∧ iac2.2 = some 0xf4 then ⟨n, [iacDoTm, iacWillTm], [ascii "\n> "], true⟩
  else leave n

/-- One pass of the loop. The variable `c` is declared in its body and not initialised: `found`
is what it holds before the read. -/
def pass (n : ℕ) (found : UInt8) (e next : SocketEvent) : Option PingExit :=
  let read := rxRead e
  if read.1 = -1 then some (leave n)
  else
    let c := read.2.getD found
    if c = 0xff then some (iacReceived n next)
    else if c = 0x03 then some (leave n)
    else none

section Loop
variable (found : ℕ → UInt8) (s : SocketStream)

def passAt (n : ℕ) : Option PingExit := pass n (found n) (s.event n) (s.event (n + 1))

def pingLoop (passes : ℕ) : Option PingExit := poll (passAt found s) passes 0

def LeavesAt (n : ℕ) : Prop := ∃ passes exit, pingLoop found s passes = some exit ∧ exit.event = n

end Loop

def Quits (b : UInt8) : Prop := b = 0x03 ∨ b = 0xff

instance (b : UInt8) : Decidable (Quits b) := inferInstanceAs (Decidable (_ ∨ _))

def Ends : SocketEvent → Prop
  | .byte b => Quits b
  | .timeout => False
  | .selectError => True
  | .readError => True
  | .closed => True

theorem iacReceived_event (n : ℕ) (next : SocketEvent) : (iacReceived n next).event = n := by
  unfold iacReceived
  dsimp only
  split_ifs <;> rfl

theorem pass_event {n : ℕ} {found : UInt8} {e next : SocketEvent} {exit : PingExit}
    (h : pass n found e next = some exit) : exit.event = n := by
  unfold pass at h
  dsimp only at h
  split_ifs at h <;> cases h
  · rfl
  · exact iacReceived_event n next
  · rfl

theorem pass_leaves_iff (n : ℕ) (found : UInt8) (e next : SocketEvent) :
    pass n found e next ≠ none ↔ match e with
      | .byte b => Quits b
      | .timeout => Quits found
      | .selectError => True
      | .readError => True
      | .closed => Quits found := by
  have hlook (c : UInt8) : (if c = 0xff then some (iacReceived n next)
      else if c = 0x03 then some (leave n) else none) ≠ none ↔ Quits c := by
    unfold Quits
    split_ifs with hiac hetx
    · exact iff_of_true nofun (Or.inr hiac)
    · exact iff_of_true nofun (Or.inl hetx)
    · exact iff_of_false (fun h => h rfl) (not_or.mpr ⟨hetx, hiac⟩)
  cases e with
  | byte b => exact hlook b
  | timeout => exact hlook found
  | selectError => exact iff_of_true nofun trivial
  | readError => exact iff_of_true nofun trivial
  | closed => exact hlook found

section Runs
variable (found : ℕ → UInt8) (s : SocketStream)

theorem leavesAt_iff (n : ℕ) :
    LeavesAt found s n ↔ FirstAt (fun n => passAt found s n ≠ none) n := by
  constructor
  · rintro ⟨passes, exit, hrun, rfl⟩
    obtain ⟨k, hfirst, hpass⟩ := poll_iff.mp ⟨passes, hrun⟩
    rw [pass_event hpass]
    exact hfirst
  · intro hfirst
    obtain ⟨exit, hpass⟩ := Option.ne_none_iff_exists'.mp hfirst.1
    obtain ⟨passes, hrun⟩ := poll_iff.mpr ⟨n, hfirst, hpass⟩
    exact ⟨passes, exit, hrun, pass_event hpass⟩

def LeavesExactly : Prop := ∀ n, LeavesAt found s n ↔ FirstAt (fun n => Ends (s.event n)) n

/-- As long as nothing has come that should end the loop, a read that times out does not find
one of its bytes in `c`, and one from a closed stream does. -/
def FoundFits : Prop := ∀ n, (∀ m < n, ¬ Ends (s.event m)) →
  (s.event n = .timeout → ¬ Quits (found n)) ∧ (s.event n = .closed → Quits (found n))

/-- Where a read stores no byte the loop goes by what it finds in `c`. -/
theorem leaves_exactly_iff : LeavesExactly found s ↔ FoundFits found s := by
  unfold LeavesExactly FoundFits
  simp only [leavesAt_iff]
  rw [firstAt_same_iff]
  refine forall_congr' fun n => forall_congr' fun _ => ?_
  rw [passAt, pass_leaves_iff]
  cases s.event n with
  | byte b => exact iff_of_true Iff.rfl ⟨nofun, nofun⟩
  | timeout =>
    constructor
    · intro h
      exact ⟨fun _ => h.mp, nofun⟩
    · intro h
      exact ⟨h.1 rfl, nofun⟩
  | selectError => exact iff_of_true Iff.rfl ⟨nofun, nofun⟩
  | readError => exact iff_of_true Iff.rfl ⟨nofun, nofun⟩
  | closed =>
    constructor
    · intro h
      exact ⟨nofun, fun _ => h.mpr trivial⟩
    · intro h
      exact ⟨fun _ => trivial, fun _ => h.2 rfl⟩

theorem closed_from {s : SocketStream} {n : ℕ} (h : s.event n = .closed) {m : ℕ} (hm : n ≤ m) :
    s.event m = .closed := by
  induction m, hm using Nat.le_induction with
  | base => exact h
  | succ m _ ih => exact s.closed_stays m ih

theorem closed_never_leaves {found : ℕ → UInt8} {s : SocketStream} {n : ℕ}
    (hclosed : s.event n = .closed) (hbefore : ∀ m < n, ¬ Ends (s.event m))
    (hfound : ∀ m, ¬ Quits (found m)) (k : ℕ) : ¬ LeavesAt found s k := by
  intro hleaves
  have hpass : passAt found s k ≠ none := ((leavesAt_iff found s k).mp hleaves).1
  rw [passAt, pass_leaves_iff] at hpass
  rcases Nat.lt_or_ge k n with hk | hk
  · have hends := hbefore k hk
    cases he : s.event k with
    | byte b =>
      rw [he] at hpass hends
      exact hends hpass
    | timeout =>
      rw [he] at hpass
      exact hfound k hpass
    | selectError | readError =>
      rw [he] at hends
      exact hends trivial
    | closed =>
      rw [he] at hends
      exact hends trivial
  · rw [closed_from hclosed hk] at hpass
    exact hfound k hpass

end Runs

def closedStream : SocketStream := ⟨fun _ => .closed, fun _ _ => rfl⟩

theorem closed_not_left : FirstAt (fun n => Ends (closedStream.event n)) 0 ∧
    (∀ n, ¬ LeavesAt (fun _ => 0) closedStream n) ∧ ¬ LeavesExactly (fun _ => 0) closedStream := by
  have hfirst : FirstAt (fun n => Ends (closedStream.event n)) 0 :=
    ⟨trivial, fun m hm => absurd hm (Nat.not_lt_zero m)⟩
  have hnever : ∀ n, ¬ LeavesAt (fun _ => 0) closedStream n :=
    closed_never_leaves (n := 0) rfl hfirst.2 (fun _ => by decide)
  exact ⟨hfirst, hnever, fun h => hnever 0 ((h 0).mpr hfirst)⟩

def keptSlot (c : UInt8) (s : SocketStream) : ℕ → UInt8
  | 0 => c
  | n + 1 => (rxRead (s.event n)).2.getD (keptSlot c s n)

theorem keptSlot_quits {c : UInt8} {s : SocketStream} {n : ℕ}
    (hbefore : ∀ m < n, ¬ Ends (s.event m)) (h : Quits (keptSlot c s n)) :
    Quits c ∧ ∀ m < n, s.event m = .timeout := by
  induction n with
  | zero => exact ⟨h, fun m hm => absurd hm (Nat.not_lt_zero m)⟩
  | succ n ih =>
    have hlast := hbefore n (Nat.lt_succ_self n)
    rw [keptSlot] at h
    cases he : s.event n with
    | byte b =>
      rw [he] at h hlast
      exact absurd h hlast
    | timeout =>
      rw [he] at h
      obtain ⟨hc, htimeouts⟩ := ih (fun m hm => hbefore m (by omega)) h
      refine ⟨hc, fun m hm => ?_⟩
      rcases Nat.lt_succ_iff_lt_or_eq.mp hm with hlt | rfl
      · exact htimeouts m hlt
      · exact he
    | selectError | readError | closed =>
      rw [he] at hlast
      exact absurd trivial hlast

/-- In one slot the loop is wrong only at its first event, if the slot held one of its bytes,
and at the close of the peer, unless that comes first and finds one. -/
theorem leaves_exactly_keptSlot_iff (c : UInt8) (s : SocketStream) :
    LeavesExactly (keptSlot c s) s ↔ (s.event 0 = .timeout → ¬ Quits c) ∧
      ∀ n, FirstAt (fun n => Ends (s.event n)) n → s.event n = .closed → n = 0 ∧ Quits c := by
  rw [leaves_exactly_iff]
  constructor
  · intro h
    have hzero := h 0 (fun m hm => absurd hm (Nat.not_lt_zero m))
    refine ⟨hzero.1, fun n hfirst hclosed => ?_⟩
    obtain ⟨hquits, htimeouts⟩ := keptSlot_quits hfirst.2 ((h n hfirst.2).2 hclosed)
    refine ⟨?_, hquits⟩
    by_contra hn
    exact hzero.1 (htimeouts 0 (Nat.pos_of_ne_zero hn)) hquits
  · rintro ⟨hzero, hclose⟩ n hbefore
    constructor
    · intro htimeout hquits
      obtain ⟨hc, htimeouts⟩ := keptSlot_quits hbefore hquits
      rcases Nat.eq_zero_or_pos n with rfl | hn
      · exact hzero htimeout hc
      · exact hzero (htimeouts 0 hn) hc
    · intro hclosed
      have hends : Ends (s.event n) := by
        rw [hclosed]
        trivial
      obtain ⟨rfl, hc⟩ := hclose n ⟨hends, hbefore⟩ hclosed
      exact hc

structure PingEnv where
  getaddrinfo : Bytes → Except ℤ UInt32
  newSession : Bool
  start : Bool

inductive SessionCall where
  | newSession (target : UInt32)
  | start
  | stop
  | delete
  deriving DecidableEq

structure PingRun where
  ret : ℤ
  printed : List Bytes
  calls : List SessionCall
  exit : Option PingExit

def pingDone (ret : ℤ) (printed : List Bytes) (calls : List SessionCall) (hdl : Bool)
    (exit : Option PingExit) : PingRun :=
  ⟨ret, printed, calls ++ (if hdl then [.delete] else []), exit⟩

/-- The command with its arguments, of which `argv[0]` is its name; `none` while its loop still
runs. -/
def ping (env : PingEnv) (found : ℕ → UInt8) (s : SocketStream) (passes : ℕ)
    (argv : List Bytes) : Option PingRun :=
  match argv with
  | [] | [_] => some (pingDone 0 [] [] false none)
  | _ :: _ :: _ :: _ :: _ => some (pingDone (-1) [ascii "syntax error!\n"] [] false none)
  | _ :: host :: _ =>
    match env.getaddrinfo host with
    | .error ret =>
      some (pingDone ret [ascii "cannot resolve " ++ host ++ ascii "!\n"] [] false none)
    | .ok target =>
      if !env.newSession then
        some (pingDone (-1) [ascii "esp_ping_new_session failed!\n"] [] false none)
      else if !env.start then
        some (pingDone (-1) [ascii "esp_ping_start failed!\n"] [.newSession target] true none)
      else (pingLoop found s passes).map fun exit =>
        pingDone 0 exit.printed [.newSession target, .start, .stop] true (some exit)

/-- A session that was started is stopped and deleted when the command returns, and it returns
exactly when its loop is left. -/
theorem ping_returns_iff {env : PingEnv} {found : ℕ → UInt8} {s : SocketStream} {argv₀ host : Bytes}
    {target : UInt32} (hresolve : env.getaddrinfo host = .ok target)
    (hsession : env.newSession = true) (hstart : env.start = true) :
    (∃ passes r, ping env found s passes [argv₀, host] = some r ∧
        r.calls = [.newSession target, .start, .stop, .delete]) ↔ ∃ n, LeavesAt found s n := by
  have hrun (passes : ℕ) : ping env found s passes [argv₀, host] =
      (pingLoop found s passes).map fun exit =>
        pingDone 0 exit.printed [.newSession target, .start, .stop] true (some exit) := by
    simp only [ping, hresolve, hsession, hstart, Bool.not_true, Bool.false_eq_true, ↓reduceIte]
  constructor
  · rintro ⟨passes, r, h, -⟩
    rw [hrun] at h
    obtain ⟨exit, hexit, -⟩ := Option.map_eq_some_iff.mp h
    exact ⟨exit.event, passes, exit, hexit, rfl⟩
  · rintro ⟨n, passes, exit, hexit, -⟩
    refine ⟨passes, pingDone 0 exit.printed [.newSession target, .start, .stop] true (some exit),
      ?_, rfl⟩
    rw [hrun, hexit]
    rfl

end MeshRoofFirmware.PingSession
