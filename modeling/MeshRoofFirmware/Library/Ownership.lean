import Mathlib.Data.Nat.Notation
import Mathlib.Logic.Function.Basic

set_option autoImplicit false

/-! Resources that go by reusable names and are handed from place to place. A place keeps
the name of one resource, also when somebody else has freed that name. -/
namespace MeshRoofFirmware.Library.Ownership
variable {P : Type} [DecidableEq P]

structure Held where
  name : ℕ
  token : ℕ
  deriving DecidableEq

/-- The names kept in each place, what the names in use stand for, how many resources there
have been, and how often each was released. -/
structure Ledger (P : Type) where
  place : P → Option Held
  table : ℕ → Option ℕ
  issued : ℕ
  released : ℕ → ℕ

def Ledger.issue (l : Ledger P) (p : P) (name : ℕ) : Ledger P :=
  { l with
    place := Function.update l.place p (some ⟨name, l.issued⟩)
    table := Function.update l.table name (some l.issued)
    issued := l.issued + 1 }

def Ledger.hand (l : Ledger P) (p q : P) (h : Held) : Ledger P :=
  { l with place := Function.update (Function.update l.place p none) q (some h) }

/-- Freeing a name releases what it stands for now, which need not be what the caller means. -/
def Ledger.free (l : Ledger P) (name : ℕ) : Ledger P :=
  match l.table name with
  | none => l
  | some token =>
    { l with
      table := Function.update l.table name none
      released := Function.update l.released token (l.released token + 1) }

def Ledger.drop (l : Ledger P) (p : P) : Ledger P :=
  { l with place := Function.update l.place p none }

/-- Places keep different resources under different names; a name in use is kept where its
resource is; what has no name was released once. -/
structure Sound (l : Ledger P) : Prop where
  unique : ∀ p q h k, l.place p = some h → l.place q = some k → h.token = k.token → p = q
  apart : ∀ p q h k, l.place p = some h → l.place q = some k → h.name = k.name → p = q
  named : ∀ p h, l.place p = some h → l.table h.name = some h.token ∨ l.table h.name = none
  current : ∀ p h, l.place p = some h → h.token < l.issued
  inUse : ∀ name token, l.table name = some token → ∃ p, l.place p = some ⟨name, token⟩
  unreleased : ∀ name token, l.table name = some token → l.released token = 0
  settled : ∀ token, token < l.issued → (∀ name, l.table name ≠ some token) →
    l.released token = 1
  future : ∀ token, l.issued ≤ token → l.released token = 0

omit [DecidableEq P] in
theorem empty_sound {l : Ledger P} (hplace : ∀ p, l.place p = none)
    (htable : ∀ name, l.table name = none) (hissued : l.issued = 0)
    (hreleased : ∀ token, l.released token = 0) : Sound l := by
  have hkept : ∀ p h, l.place p ≠ some h := fun p h hp => by simp [hplace] at hp
  have hused : ∀ name token, l.table name ≠ some token := fun name token ht => by
    simp [htable] at ht
  constructor
  · exact fun p _ h _ hp => absurd hp (hkept p h)
  · exact fun p _ h _ hp => absurd hp (hkept p h)
  · exact fun p h hp => absurd hp (hkept p h)
  · exact fun p h hp => absurd hp (hkept p h)
  · exact fun name token ht => absurd ht (hused name token)
  · exact fun name token ht => absurd ht (hused name token)
  · intro token hlt
    rw [hissued] at hlt
    exact absurd hlt (Nat.not_lt_zero token)
  · exact fun token _ => hreleased token

theorem place_update {l : P → Option Held} {p q : P} {v : Option Held} {h : Held}
    (hq : Function.update l p v q = some h) : (q = p ∧ v = some h) ∨ (q ≠ p ∧ l q = some h) := by
  by_cases hqp : q = p
  · subst hqp
    rw [Function.update_self] at hq
    exact Or.inl ⟨rfl, hq⟩
  · rw [Function.update_of_ne hqp] at hq
    exact Or.inr ⟨hqp, hq⟩

def Apart (l : Ledger P) (f : Held → ℕ) : Prop :=
  ∀ p q h k, l.place p = some h → l.place q = some k → f h = f k → p = q

theorem issue_back {l : Ledger P} {p q : P} {name : ℕ} {h : Held}
    (hq : (l.issue p name).place q = some h) :
    (q = p ∧ h = ⟨name, l.issued⟩) ∨ (q ≠ p ∧ l.place q = some h) := by
  change Function.update l.place p (some ⟨name, l.issued⟩) q = some h at hq
  rcases place_update hq with ⟨hqp, hnew⟩ | ⟨hqp, hq⟩
  · cases hnew
    exact Or.inl ⟨hqp, rfl⟩
  · exact Or.inr ⟨hqp, hq⟩

theorem issue_apart {l : Ledger P} {f : Held → ℕ} (h : Apart l f) {p : P} {name : ℕ}
    (hnew : ∀ q u, l.place q = some u → f u ≠ f ⟨name, l.issued⟩) : Apart (l.issue p name) f := by
  intro a b u v hu hv hsame
  rcases issue_back hu with ⟨rfl, rfl⟩ | ⟨-, hold⟩ <;>
    rcases issue_back hv with ⟨rfl, rfl⟩ | ⟨-, hother⟩
  · rfl
  · exact absurd hsame.symm (hnew b v hother)
  · exact absurd hsame (hnew a u hold)
  · exact h a b u v hold hother hsame

theorem issue_sound {l : Ledger P} (h : Sound l) {p : P} {name : ℕ} (hp : l.place p = none)
    (hname : l.table name = none) (hkept : ∀ q u, l.place q = some u → u.name ≠ name) :
    Sound (l.issue p name) := by
  have htable : ∀ n, n ≠ name → (l.issue p name).table n = l.table n :=
    fun n hn => Function.update_of_ne hn _ _
  have hself : (l.issue p name).table name = some l.issued := Function.update_self _ _ _
  constructor
  · exact issue_apart (f := Held.token) h.unique fun q u hu => Nat.ne_of_lt (h.current q u hu)
  · exact issue_apart (f := Held.name) h.apart hkept
  · intro a u hu
    rcases issue_back hu with ⟨rfl, rfl⟩ | ⟨-, hu⟩
    · exact Or.inl hself
    · rw [htable _ (hkept a u hu)]
      exact h.named a u hu
  · intro a u hu
    rcases issue_back hu with ⟨rfl, rfl⟩ | ⟨-, hu⟩
    · exact Nat.lt_succ_self _
    · exact Nat.lt_succ_of_lt (h.current a u hu)
  · intro n token ht
    by_cases hn : n = name
    · subst hn
      rw [hself] at ht
      cases ht
      exact ⟨p, Function.update_self _ _ _⟩
    · rw [htable n hn] at ht
      obtain ⟨q, hq⟩ := h.inUse n token ht
      have hqp : q ≠ p := by
        rintro rfl
        rw [hp] at hq
        cases hq
      exact ⟨q, (Function.update_of_ne hqp _ _).trans hq⟩
  · intro n token ht
    by_cases hn : n = name
    · subst hn
      rw [hself] at ht
      cases ht
      exact h.future _ (Nat.le_refl _)
    · rw [htable n hn] at ht
      exact h.unreleased n token ht
  · intro token hlt hnone
    change token < l.issued + 1 at hlt
    have hne : token ≠ l.issued := by
      rintro rfl
      exact hnone name hself
    refine h.settled token (by omega) (fun n ht => hnone n ?_)
    have hn : n ≠ name := by
      rintro rfl
      rw [hname] at ht
      cases ht
    rw [htable n hn]
    exact ht
  · intro token hge
    change l.issued + 1 ≤ token at hge
    exact h.future token (by omega)

theorem hand_back {l : Ledger P} {p q a : P} {u v : Held} (ha : (l.hand p q u).place a = some v) :
    (a = q ∧ v = u) ∨ (a ≠ p ∧ l.place a = some v) := by
  change Function.update (Function.update l.place p none) q (some u) a = some v at ha
  rcases place_update ha with ⟨haq, hu⟩ | ⟨-, ha⟩
  · cases hu
    exact Or.inl ⟨haq, rfl⟩
  · rcases place_update ha with ⟨-, hnone⟩ | ⟨hap, ha⟩
    · cases hnone
    · exact Or.inr ⟨hap, ha⟩

theorem hand_apart {l : Ledger P} {f : Held → ℕ} (h : Apart l f) {p q : P} {u : Held}
    (hp : l.place p = some u) : Apart (l.hand p q u) f := by
  intro a b v w hv hw hsame
  rcases hand_back hv with ⟨rfl, rfl⟩ | ⟨hap, hold⟩ <;>
    rcases hand_back hw with ⟨rfl, rfl⟩ | ⟨hbp, hother⟩
  · rfl
  · exact absurd (h p b v w hp hother hsame).symm hbp
  · exact absurd (h a p v w hold hp hsame) hap
  · exact h a b v w hold hother hsame

theorem hand_sound {l : Ledger P} (h : Sound l) {p q : P} {u : Held} (hp : l.place p = some u)
    (hq : l.place q = none) : Sound (l.hand p q u) := by
  constructor
  · exact hand_apart (f := Held.token) h.unique hp
  · exact hand_apart (f := Held.name) h.apart hp
  · intro a v hv
    rcases hand_back hv with ⟨rfl, rfl⟩ | ⟨-, hv⟩
    · exact h.named p v hp
    · exact h.named a v hv
  · intro a v hv
    rcases hand_back hv with ⟨rfl, rfl⟩ | ⟨-, hv⟩
    · exact h.current p v hp
    · exact h.current a v hv
  · intro name token ht
    obtain ⟨a, ha⟩ := h.inUse name token ht
    by_cases hap : a = p
    · subst hap
      rw [hp] at ha
      cases ha
      exact ⟨q, Function.update_self _ _ _⟩
    · have haq : a ≠ q := by
        rintro rfl
        rw [hq] at ha
        cases ha
      refine ⟨a, ?_⟩
      change Function.update (Function.update l.place p none) q (some u) a = _
      rw [Function.update_of_ne haq, Function.update_of_ne hap, ha]
  · exact h.unreleased
  · exact h.settled
  · exact h.future

omit [DecidableEq P] in
theorem free_place (l : Ledger P) (name : ℕ) : (l.free name).place = l.place := by
  unfold Ledger.free
  split <;> rfl

omit [DecidableEq P] in
theorem free_table (l : Ledger P) (name : ℕ) : (l.free name).table name = none := by
  unfold Ledger.free
  split
  next hnone => exact hnone
  next => exact Function.update_self _ _ _

omit [DecidableEq P] in
theorem free_table_of_ne (l : Ledger P) {name n : ℕ} (hn : n ≠ name) :
    (l.free name).table n = l.table n := by
  unfold Ledger.free
  split
  · rfl
  · exact Function.update_of_ne hn _ _

omit [DecidableEq P] in
theorem free_sound {l : Ledger P} (h : Sound l) (name : ℕ) : Sound (l.free name) := by
  cases hname : l.table name with
  | none =>
    have hfree : l.free name = l := by rw [Ledger.free, hname]
    rwa [hfree]
  | some token =>
    obtain ⟨p, hp⟩ := h.inUse name token hname
    have hreleased : (l.free name).released =
        Function.update l.released token (l.released token + 1) := by
      rw [Ledger.free, hname]
    have hissued : (l.free name).issued = l.issued := by rw [Ledger.free, hname]
    have hback : ∀ n k, (l.free name).table n = some k → n ≠ name ∧ l.table n = some k := by
      intro n k ht
      have hn : n ≠ name := by
        rintro rfl
        rw [free_table] at ht
        cases ht
      exact ⟨hn, free_table_of_ne l hn ▸ ht⟩
    constructor
    · rw [free_place]
      exact h.unique
    · rw [free_place]
      exact h.apart
    · intro a u hu
      rw [free_place] at hu
      by_cases hn : u.name = name
      · rw [hn]
        exact Or.inr (free_table l name)
      · rw [free_table_of_ne l hn]
        exact h.named a u hu
    · rw [free_place, hissued]
      exact h.current
    · intro n k ht
      rw [free_place]
      exact h.inUse n k (hback n k ht).2
    · intro n k ht
      obtain ⟨hn, ht⟩ := hback n k ht
      obtain ⟨q, hq⟩ := h.inUse n k ht
      have hk : k ≠ token := by
        rintro rfl
        have hqp := h.unique q p _ _ hq hp rfl
        subst hqp
        rw [hp] at hq
        cases hq
        exact hn rfl
      rw [hreleased, Function.update_of_ne hk]
      exact h.unreleased n k ht
    · intro k hlt hnone
      rw [hissued] at hlt
      rw [hreleased]
      by_cases hk : k = token
      · subst hk
        rw [Function.update_self, h.unreleased name k hname]
      · rw [Function.update_of_ne hk]
        refine h.settled k hlt (fun n ht => hnone n ?_)
        have hn : n ≠ name := by
          rintro rfl
          rw [hname] at ht
          exact hk (Option.some.inj ht).symm
        rw [free_table_of_ne l hn]
        exact ht
    · intro k hge
      rw [hissued] at hge
      have hk : k ≠ token := by
        rintro rfl
        exact absurd (h.current p _ hp) (Nat.not_lt.mpr hge)
      rw [hreleased, Function.update_of_ne hk]
      exact h.future k hge

theorem drop_sound {l : Ledger P} (h : Sound l) {p : P}
    (hp : ∀ u, l.place p = some u → l.table u.name = none) : Sound (l.drop p) := by
  have hback : ∀ a v, (l.drop p).place a = some v → l.place a = some v := by
    intro a v ha
    change Function.update l.place p none a = some v at ha
    rcases place_update ha with ⟨-, hnone⟩ | ⟨-, ha⟩
    · cases hnone
    · exact ha
  constructor
  · intro a b v w hv hw
    exact h.unique a b v w (hback a v hv) (hback b w hw)
  · intro a b v w hv hw
    exact h.apart a b v w (hback a v hv) (hback b w hw)
  · exact fun a v hv => h.named a v (hback a v hv)
  · exact fun a v hv => h.current a v (hback a v hv)
  · intro name token ht
    change l.table name = some token at ht
    obtain ⟨a, ha⟩ := h.inUse name token ht
    have hap : a ≠ p := by
      rintro rfl
      rw [hp _ ha] at ht
      cases ht
    exact ⟨a, (Function.update_of_ne hap _ _).trans ha⟩
  · exact h.unreleased
  · exact h.settled
  · exact h.future

def Ledger.Holds (l : Ledger P) (p : P) (token : ℕ) : Prop :=
  ∃ h, l.place p = some h ∧ l.table h.name = some token

omit [DecidableEq P] in
theorem Sound.holds {l : Ledger P} (h : Sound l) {p : P} {u : Held} {token : ℕ}
    (hp : l.place p = some u) (ht : l.table u.name = some token) : token = u.token := by
  rcases h.named p u hp with hown | hnone
  · exact Option.some.inj (ht.symm.trans hown)
  · rw [hnone] at ht
    cases ht

omit [DecidableEq P] in
/-- Every resource issued is held in one place, or was released once and is held nowhere. -/
theorem Sound.accounted {l : Ledger P} (h : Sound l) {token : ℕ} (hlt : token < l.issued) :
    (l.released token = 1 ∧ ∀ p, ¬ l.Holds p token) ∨
      (l.released token = 0 ∧ ∃! p, l.Holds p token) := by
  by_cases hused : ∃ name, l.table name = some token
  · right
    obtain ⟨name, hname⟩ := hused
    obtain ⟨p, hp⟩ := h.inUse name token hname
    refine ⟨h.unreleased name token hname, p, ⟨_, hp, hname⟩, ?_⟩
    rintro q ⟨k, hq, hk⟩
    exact h.unique q p k _ hq hp (h.holds hq hk).symm
  · left
    have hnone : ∀ name, l.table name ≠ some token := fun name hname => hused ⟨name, hname⟩
    refine ⟨h.settled token hlt hnone, ?_⟩
    rintro p ⟨u, -, hu⟩
    exact hnone u.name hu

/-- No name was freed while a place kept it. -/
def Live (l : Ledger P) : Prop :=
  ∀ p h, l.place p = some h → l.table h.name = some h.token

theorem issue_live {l : Ledger P} (h : Live l) {p : P} {name : ℕ}
    (hname : l.table name = none) : Live (l.issue p name) := by
  intro a u hu
  rcases issue_back hu with ⟨-, rfl⟩ | ⟨-, hu⟩
  · exact Function.update_self _ _ _
  · have hown := h a u hu
    have hne : u.name ≠ name := by
      intro e
      rw [e, hname] at hown
      cases hown
    exact (Function.update_of_ne hne _ _).trans hown

theorem hand_live {l : Ledger P} (h : Live l) {p q : P} {u : Held} (hp : l.place p = some u) :
    Live (l.hand p q u) := by
  intro a v hv
  rcases hand_back hv with ⟨-, rfl⟩ | ⟨-, hv⟩
  · exact h p v hp
  · exact h a v hv

theorem release_live {l : Ledger P} (h : Live l) (hs : Sound l) {p : P} {u : Held}
    (hp : l.place p = some u) : Live ((l.free u.name).drop p) := by
  intro a v hv
  change Function.update (l.free u.name).place p none a = some v at hv
  rw [free_place] at hv
  rcases place_update hv with ⟨-, hnone⟩ | ⟨hap, hv⟩
  · cases hnone
  · have hne : v.name ≠ u.name := fun e => hap (hs.apart a p v u hv hp e)
    exact (free_table_of_ne l hne).trans (h a v hv)

end MeshRoofFirmware.Library.Ownership
