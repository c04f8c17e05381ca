import MeshRoofFirmware.Library.CParse

set_option autoImplicit false

namespace MeshRoofFirmware.Buzzer
open Library.ByteCodec Library.CText Library.CParse

inductive PinStep where
  | setLevel (level : Bool)
  | taskDelay (ms : UInt32)
  deriving DecidableEq

def buzz (ms : UInt32) : List PinStep := [.setLevel true, .taskDelay ms, .setLevel false]

def defaultMs : UInt32 := 500

/-- What the shell command `buzz` returns, unless an exception leaves it, what it prints, and
the arguments of its calls of `MeshRoof::buzz`. -/
structure BuzzRun where
  ret : Except StoulError ℤ
  printed : List Bytes
  buzzed : List UInt32

def syntaxError : Bytes := ascii "syntax error!\n"

/-- `MeshRoofShell::buzz`. Of the two exceptions of `stoul` only one is caught. -/
def shellBuzz (argv : List Bytes) : BuzzRun :=
  match argv with
  | [_] => ⟨.ok (-1), [], [defaultMs]⟩
  | [_, arg] =>
    match stoul arg with
    | .ok ms => ⟨.ok (-1), [], [ms]⟩
    | .error .invalidArgument => ⟨.ok (-1), [syntaxError], []⟩
    | .error .outOfRange => ⟨.error .outOfRange, [], []⟩
  | _ => ⟨.ok (-1), [syntaxError], []⟩

structure ParsedExactly (arg : Bytes) (r : BuzzRun) : Prop where
  numeral : ∀ n ≤ maxUlong, IsNumeral arg n → r.buzzed = [UInt32.ofNat n] ∧ r.printed = []
  other : (¬ ∃ n ≤ maxUlong, IsNumeral arg n) → r.buzzed = [] ∧ r.printed = [syntaxError]
  caught : ∃ ret, r.ret = .ok ret

/-- The argument is taken exactly if it is a numeral below 2^32 or no number begins it. -/
theorem buzz_exact_iff (argv₀ arg : Bytes) : ParsedExactly arg (shellBuzz [argv₀, arg]) ↔
    (∃ n ≤ maxUlong, IsNumeral arg n) ∨ NoNumber arg := by
  by_cases hnumeral : ∃ n ≤ maxUlong, IsNumeral arg n
  · refine iff_of_true ?_ (Or.inl hnumeral)
    obtain ⟨n, hn, harg⟩ := hnumeral
    have hstoul := stoul_numeral harg
    rw [if_neg (Nat.not_lt.mpr hn)] at hstoul
    have hrun : shellBuzz [argv₀, arg] = ⟨.ok (-1), [], [UInt32.ofNat n]⟩ := by
      rw [shellBuzz, hstoul]
    rw [hrun]
    refine ⟨fun m _ hm => ?_, fun hnot => absurd ⟨n, hn, harg⟩ hnot, -1, rfl⟩
    rw [← hm.2.2, ← harg.2.2]
    exact ⟨rfl, rfl⟩
  · rw [or_iff_right hnumeral, ← stoul_invalid_iff]
    constructor
    · rintro ⟨-, hother, hcaught⟩
      obtain ⟨hbuzzed, -⟩ := hother hnumeral
      cases hstoul : stoul arg with
      | ok ms =>
        rw [shellBuzz, hstoul] at hbuzzed
        cases hbuzzed
      | error e =>
        cases e with
        | invalidArgument => rfl
        | outOfRange =>
          rw [shellBuzz, hstoul] at hcaught
          obtain ⟨ret, hret⟩ := hcaught
          cases hret
    · intro hstoul
      have hrun : shellBuzz [argv₀, arg] = ⟨.ok (-1), [syntaxError], []⟩ := by
        rw [shellBuzz, hstoul]
      rw [hrun]
      exact ⟨fun n hn harg => absurd ⟨n, hn, harg⟩ hnumeral, fun _ => ⟨rfl, rfl⟩, -1, rfl⟩

theorem large_numeral_escapes :
    (shellBuzz [ascii "buzz", ascii "4294967296"]).ret = .error .outOfRange ∧
      (shellBuzz [ascii "buzz", ascii "5x"]).buzzed = [5] ∧
      ¬ ParsedExactly (ascii "4294967296") (shellBuzz [ascii "buzz", ascii "4294967296"]) ∧
      ¬ ParsedExactly (ascii "5x") (shellBuzz [ascii "buzz", ascii "5x"]) := by
  refine ⟨rfl, rfl, fun h => ?_, fun h => ?_⟩
  · obtain ⟨ret, hret⟩ := h.caught
    cases hret
  · have hother : ¬ ∃ n ≤ maxUlong, IsNumeral (ascii "5x") n := by
      rintro ⟨n, -, -, hdigits, -⟩
      exact absurd (hdigits 120 (by decide)) (by decide)
    have hbuzzed := (h.other hother).1
    cases hbuzzed

end MeshRoofFirmware.Buzzer
