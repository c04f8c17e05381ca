import MeshRoofFirmware.Library.Runs

set_option autoImplicit false

/-! A switch that is driven through a flag. A command that finds the flag at its own
mode does nothing; any other sets the flag at once and the switch with it, which is
announced later. An announcement sets the flag again when it arrives. -/
namespace MeshRoofFirmware.Library.CachedSwitch
open Runs
variable {β : Type} [DecidableEq β]

structure Switch (β : Type) where
  flag : β
  actual : β
  pending : List β

inductive Move (β : Type) where
  | command (want : β)
  | arrive

def Move.command? : Move β → Option β
  | .command want => some want
  | .arrive => none

def Switch.command (s : Switch β) (want : β) : Switch β :=
  if s.flag = want then s
  else if s.actual = want then { s with flag := want }
  else ⟨want, want, s.pending ++ [want]⟩

def Switch.arrive (s : Switch β) : Option (Switch β) :=
  match s.pending with
  | [] => none
  | mode :: rest => some ⟨mode, s.actual, rest⟩

def move (s : Switch β) : Move β → Option (Switch β)
  | .command want => some (s.command want)
  | .arrive => s.arrive

/-- The last announcement under way tells the mode of the switch, and without one the flag. -/
def Tracks (s : Switch β) : Prop := s.pending.getLast?.getD s.flag = s.actual

theorem command_flag (s : Switch β) (want : β) : (s.command want).flag = want := by
  unfold Switch.command
  split_ifs with hflag
  · exact hflag
  · rfl
  · rfl

theorem command_tracks {s : Switch β} (h : Tracks s) (want : β) : Tracks (s.command want) := by
  unfold Switch.command
  split_ifs with hflag hactual
  · exact h
  · unfold Tracks at h ⊢
    cases hlast : s.pending.getLast? with
    | none => exact hactual.symm
    | some mode =>
      rw [hlast] at h
      exact h
  · simp [Tracks]

omit [DecidableEq β] in
theorem arrive_tracks {s t : Switch β} (h : Tracks s) (ht : s.arrive = some t) : Tracks t := by
  unfold Switch.arrive at ht
  cases hpending : s.pending with
  | nil =>
    rw [hpending] at ht
    cases ht
  | cons mode rest =>
    rw [hpending] at ht
    cases ht
    unfold Tracks at h ⊢
    rw [hpending, List.getLast?_cons, Option.getD_some] at h
    exact h

theorem move_tracks (s : Switch β) (m : Move β) (t : Switch β) (h : Tracks s)
    (ht : move s m = some t) : Tracks t := by
  cases m with
  | command want =>
    cases ht
    exact command_tracks h want
  | arrive => exact arrive_tracks h ht

theorem run_tracks {s t : Switch β} {ms : List (Move β)} (h : Tracks s)
    (hrun : run move s ms = some t) : Tracks t := run_invariant move_tracks h hrun

theorem run_quiet {s t : Switch β} {ms : List (Move β)} (hquiet : ms.filterMap Move.command? = [])
    (hrun : run move s ms = some t) : t.actual = s.actual := by
  induction ms generalizing s with
  | nil =>
    cases hrun
    rfl
  | cons m ms ih =>
    obtain ⟨u, hu, hrest⟩ := run_cons_iff.mp hrun
    cases m with
    | command want => simp [Move.command?] at hquiet
    | arrive =>
      rw [ih hquiet hrest]
      change s.arrive = some u at hu
      unfold Switch.arrive at hu
      cases hpending : s.pending with
      | nil =>
        rw [hpending] at hu
        cases hu
      | cons mode rest =>
        rw [hpending] at hu
        cases hu
        rfl

/-- Once every announcement has arrived, the last command has won exactly if the flag it met
was not at its own mode while the switch was at another. -/
theorem last_command_wins_iff {s t : Switch β} {want : β} {ms : List (Move β)} (h : Tracks s)
    (hquiet : ms.filterMap Move.command? = []) (hrun : run move (s.command want) ms = some t)
    (hdone : t.pending = []) :
    (t.actual = want ∧ t.flag = want) ↔ (s.flag = want → s.actual = want) := by
  have htracks := run_tracks (command_tracks h want) hrun
  have hflag : t.flag = t.actual := by
    unfold Tracks at htracks
    rw [hdone] at htracks
    exact htracks
  rw [hflag, and_self, run_quiet hquiet hrun, Switch.command]
  split_ifs with hs ha
  · exact ⟨fun e _ => e, fun e => e hs⟩
  · exact iff_of_true ha (fun e => absurd e hs)
  · exact iff_of_true rfl (fun e => absurd e hs)

end MeshRoofFirmware.Library.CachedSwitch
