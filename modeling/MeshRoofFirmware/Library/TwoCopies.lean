import Mathlib.Data.List.Basic
import Mathlib.Logic.Function.Basic

set_option autoImplicit false

/-! A map that is kept twice: the copy in use, in which single keys are put, and the saved copy,
which takes over the whole of the other at once and from which that one is restored. -/
namespace MeshRoofFirmware.Library.TwoCopies
variable {κ β : Type} [DecidableEq κ]

structure Copies (κ β : Type) where
  used : κ → β
  saved : κ → β

inductive Op (κ β : Type) where
  | put (key : κ) (value : β)
  | save
  | restore

def Op.key? : Op κ β → Option κ
  | .put key _ => some key
  | _ => none

def Copies.perform (m : Copies κ β) : Op κ β → Copies κ β
  | .put key value => { m with used := Function.update m.used key value }
  | .save => { m with saved := m.used }
  | .restore => { m with used := m.saved }

def Copies.after (m : Copies κ β) (ops : List (Op κ β)) : Copies κ β := ops.foldl Copies.perform m

theorem after_append (m : Copies κ β) (xs ys : List (Op κ β)) :
    m.after (xs ++ ys) = (m.after xs).after ys := List.foldl_append

def puts (values : List (κ × β)) : List (Op κ β) := values.map fun p => .put p.1 p.2

theorem after_puts_saved (m : Copies κ β) (values : List (κ × β)) :
    (m.after (puts values)).saved = m.saved := by
  induction values generalizing m with
  | nil => rfl
  | cons p values ih => exact ih (m.perform (.put p.1 p.2))

theorem after_puts_other (m : Copies κ β) {values : List (κ × β)} {k : κ}
    (h : k ∉ values.map Prod.fst) : (m.after (puts values)).used k = m.used k := by
  induction values generalizing m with
  | nil => rfl
  | cons p values ih =>
    rw [List.map_cons, List.mem_cons, not_or] at h
    calc (m.after (puts (p :: values))).used k
        = (m.perform (.put p.1 p.2)).used k := ih (m.perform (.put p.1 p.2)) h.2
      _ = m.used k := Function.update_of_ne h.1 _ _

theorem after_puts_mem (m : Copies κ β) {values : List (κ × β)}
    (hdistinct : (values.map Prod.fst).Nodup) {p : κ × β} (hp : p ∈ values) :
    (m.after (puts values)).used p.1 = p.2 := by
  induction values generalizing m with
  | nil => cases hp
  | cons q values ih =>
    rw [List.map_cons, List.nodup_cons] at hdistinct
    rcases List.mem_cons.mp hp with rfl | hp
    · calc (m.after (puts (p :: values))).used p.1
          = (m.perform (.put p.1 p.2)).used p.1 :=
            after_puts_other (m.perform (.put p.1 p.2)) hdistinct.1
        _ = p.2 := Function.update_self _ _ _
    · exact ih (m.perform (.put q.1 q.2)) hdistinct.2 hp

/-- What both copies hold stays until its key is put again. -/
theorem after_keeps {m : Copies κ β} {ops : List (Op κ β)} {k : κ} {v : β} (hused : m.used k = v)
    (hsaved : m.saved k = v) (hquiet : ∀ op ∈ ops, op.key? ≠ some k) :
    (m.after ops).used k = v ∧ (m.after ops).saved k = v := by
  induction ops generalizing m with
  | nil => exact ⟨hused, hsaved⟩
  | cons op ops ih =>
    have hlater : ∀ op ∈ ops, op.key? ≠ some k := fun o ho => hquiet o (List.mem_cons_of_mem _ ho)
    have hthis := hquiet op List.mem_cons_self
    cases op with
    | put key value =>
      have hne : k ≠ key := fun e => hthis (congrArg some e.symm)
      exact ih ((Function.update_of_ne hne _ _).trans hused) hsaved hlater
    | save => exact ih hused hused hlater
    | restore => exact ih hsaved hsaved hlater

end MeshRoofFirmware.Library.TwoCopies
