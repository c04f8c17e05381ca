import Mathlib.Data.List.Basic
import Mathlib.Tactic.Common

set_option autoImplicit false

namespace MeshRoofFirmware.Library.Runs
variable {σ α : Type} {step : σ → α → Option σ}

def run (step : σ → α → Option σ) : σ → List α → Option σ
  | s, [] => some s
  | s, a :: as => (step s a).bind (fun t => run step t as)

theorem run_nil {s : σ} : run step s [] = some s := rfl

theorem run_cons {s t u : σ} {a : α} {as : List α} (h : step s a = some t) :
    run step s (a :: as) = some u ↔ run step t as = some u := by
  rw [run, h, Option.bind_some]

theorem run_cons_iff {s u : σ} {a : α} {as : List α} :
    run step s (a :: as) = some u ↔ ∃ t, step s a = some t ∧ run step t as = some u := by
  rw [run, Option.bind_eq_some_iff]

theorem run_append_iff {s u : σ} {as bs : List α} :
    run step s (as ++ bs) = some u ↔ ∃ t, run step s as = some t ∧ run step t bs = some u := by
  induction as generalizing s with
  | nil => simp only [List.nil_append, run_nil, Option.some.injEq, exists_eq_left']
  | cons a as ih =>
    rw [List.cons_append, run_cons_iff]
    constructor
    · rintro ⟨m, hstep, hrun⟩
      obtain ⟨t, hfirst, hrest⟩ := ih.mp hrun
      exact ⟨t, run_cons_iff.mpr ⟨m, hstep, hfirst⟩, hrest⟩
    · rintro ⟨t, hfirst, hrest⟩
      obtain ⟨m, hstep, hrun⟩ := run_cons_iff.mp hfirst
      exact ⟨m, hstep, ih.mpr ⟨t, hrun, hrest⟩⟩

theorem run_history {inv : List α → σ → Prop}
    (hstep : ∀ done s a t, inv done s → step s a = some t → inv (done ++ [a]) t) {s u : σ}
    {done as : List α} (hs : inv done s) (hrun : run step s as = some u) : inv (done ++ as) u := by
  induction as generalizing s done with
  | nil =>
    cases hrun
    rwa [List.append_nil]
  | cons a as ih =>
    obtain ⟨t, ht, hrest⟩ := run_cons_iff.mp hrun
    have htail := ih (hstep done s a t hs ht) hrest
    rwa [List.append_assoc] at htail

theorem run_invariant_of_allowed {inv : σ → Prop} {allowed : σ → α → Prop}
    (hstep : ∀ s a t, allowed s a → inv s → step s a = some t → inv t) {s u : σ} {as : List α}
    (hs : inv s)
    (hallowed : ∀ done a todo t, as = done ++ a :: todo → run step s done = some t → allowed t a)
    (hrun : run step s as = some u) : inv u := by
  induction as generalizing s with
  | nil =>
    cases hrun
    exact hs
  | cons a as ih =>
    obtain ⟨t, ht, hrest⟩ := run_cons_iff.mp hrun
    refine ih (hstep s a t (hallowed [] a as s rfl run_nil) hs ht) ?_ hrest
    intro done b todo m has hdone
    exact hallowed (a :: done) b todo m (congrArg (a :: ·) has) (run_cons_iff.mpr ⟨t, ht, hdone⟩)

theorem run_invariant_of_forall {inv : σ → Prop} {kind : α → Prop}
    (hstep : ∀ s a t, kind a → inv s → step s a = some t → inv t) {s u : σ} {as : List α}
    (hs : inv s) (hkind : ∀ a ∈ as, kind a) (hrun : run step s as = some u) : inv u := by
  induction as generalizing s with
  | nil =>
    cases hrun
    exact hs
  | cons a as ih =>
    obtain ⟨t, ht, hrest⟩ := run_cons_iff.mp hrun
    exact ih (hstep s a t (hkind a List.mem_cons_self) hs ht)
      (fun b hb => hkind b (List.mem_cons_of_mem _ hb)) hrest

theorem run_invariant {inv : σ → Prop}
    (hstep : ∀ s a t, inv s → step s a = some t → inv t) {s u : σ} {as : List α}
    (hs : inv s) (hrun : run step s as = some u) : inv u :=
  run_invariant_of_forall (fun s a t (_ : True) => hstep s a t) hs (fun _ _ => trivial) hrun

/-- A step that is none of the other machine's, or one of them, makes every run a run of the
other machine. -/
theorem run_simulates {τ β : Type} {other : τ → β → Option τ} {rel : σ → τ → Prop}
    {view : α → Option β} (hstep : ∀ s a t c, rel s c → step s a = some t →
      ∃ d, run other c (view a).toList = some d ∧ rel t d) {s u : σ} {c : τ} {as : List α}
    (hs : rel s c) (hrun : run step s as = some u) :
    ∃ d, run other c (as.filterMap view) = some d ∧ rel u d := by
  induction as generalizing s c with
  | nil =>
    cases hrun
    exact ⟨c, rfl, hs⟩
  | cons a as ih =>
    obtain ⟨t, ht, hrest⟩ := run_cons_iff.mp hrun
    obtain ⟨m, hm, hrel⟩ := hstep s a t c hs ht
    obtain ⟨d, hd, hlast⟩ := ih hrel hrest
    refine ⟨d, ?_, hlast⟩
    have hsplit : (a :: as).filterMap view = (view a).toList ++ as.filterMap view := by
      cases hview : view a with
      | none => rw [List.filterMap_cons_none hview]; rfl
      | some b => rw [List.filterMap_cons_some hview]; rfl
    rw [hsplit, run_append_iff]
    exact ⟨m, hm, hd⟩

section Observed
variable {β : Type} {see : σ → α → Option β}

def observed (step : σ → α → Option σ) (see : σ → α → Option β) : σ → List α → List β
  | _, [] => []
  | s, a :: as => (see s a).toList ++ (step s a).elim [] fun t => observed step see t as

theorem run_observed {inv : List β → σ → Prop}
    (hstep : ∀ seen s a t, inv seen s → step s a = some t → inv (seen ++ (see s a).toList) t)
    {s u : σ} {seen : List β} {as : List α} (hs : inv seen s) (hrun : run step s as = some u) :
    inv (seen ++ observed step see s as) u := by
  induction as generalizing s seen with
  | nil =>
    cases hrun
    rwa [observed, List.append_nil]
  | cons a as ih =>
    obtain ⟨t, ht, hrest⟩ := run_cons_iff.mp hrun
    rw [observed, ht, ← List.append_assoc]
    exact ih (hstep seen s a t hs ht) hrest

end Observed

/-- How often the steps of one kind are taken: each one lowers the rank, and what raises it is
counted by the supply. -/
theorem run_supply (rank supply : σ → ℕ) (counted : α → Bool)
    (hstep : ∀ s a t, step s a = some t →
      rank t + supply s + (if counted a then 1 else 0) ≤ rank s + supply t) {s u : σ}
    {as : List α} (hrun : run step s as = some u) :
    rank u + supply s + as.countP counted ≤ rank s + supply u := by
  induction as generalizing s with
  | nil =>
    cases hrun
    exact Nat.le_refl _
  | cons a as ih =>
    obtain ⟨t, ht, hrest⟩ := run_cons_iff.mp hrun
    have hhead := hstep s a t ht
    have htail := ih hrest
    rw [List.countP_cons]
    omega

end MeshRoofFirmware.Library.Runs
