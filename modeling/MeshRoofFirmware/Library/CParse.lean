import MeshRoofFirmware.Library.CText
import Mathlib.Data.List.DropRight

set_option autoImplicit false

namespace MeshRoofFirmware.Library.CParse
open ByteCodec CText

def isSpace (b : UInt8) : Bool := b == 32 || (9 ≤ b && b ≤ 13)

def isDigit (b : UInt8) : Bool := 48 ≤ b && b ≤ 57

def digitsValue (digits : Bytes) : ℕ := digits.foldl (fun v b => 10 * v + (b.toNat - 48)) 0

def IsNumeral (s : Bytes) (n : ℕ) : Prop :=
  s ≠ [] ∧ (∀ b ∈ s, isDigit b = true) ∧ digitsValue s = n

inductive StoulError where
  | invalidArgument
  | outOfRange
  deriving DecidableEq

def sign : Bytes → Bool × Bytes
  | 45 :: s => (true, s)
  | 43 :: s => (false, s)
  | s => (false, s)

/-- What is left of a string where its number should begin. -/
def numberPart (s : Bytes) : Bytes := (sign (s.dropWhile isSpace)).2

def maxUlong : ℕ := 2 ^ 32 - 1

/-- `std::stoul` in base 10 with a 32-bit `unsigned long`, in the "C" locale. -/
def stoul (s : Bytes) : Except StoulError UInt32 :=
  let negative := (sign (s.dropWhile isSpace)).1
  let digits := (numberPart s).takeWhile isDigit
  if digits = [] then .error .invalidArgument
  else if digitsValue digits > maxUlong then .error .outOfRange
  else .ok (if negative then -UInt32.ofNat (digitsValue digits)
    else UInt32.ofNat (digitsValue digits))

/-- No digit stands where the number should begin. -/
def NoNumber (s : Bytes) : Prop := ∀ b, (numberPart s).head? = some b → isDigit b = false

theorem stoul_invalid_iff (s : Bytes) : stoul s = .error .invalidArgument ↔ NoNumber s := by
  have hdigits : (numberPart s).takeWhile isDigit = [] ↔ NoNumber s := by
    unfold NoNumber
    cases numberPart s with
    | nil => exact iff_of_true rfl nofun
    | cons b rest => simp [List.takeWhile_cons]
  rw [← hdigits, stoul]
  split_ifs with hnone hbig
  · exact iff_of_true rfl hnone
  · exact iff_of_false (fun h => by cases h) hnone
  · exact iff_of_false (fun h => by cases h) hnone

theorem digit_not_sign {b : UInt8} (h : isDigit b = true) :
    isSpace b = false ∧ b ≠ 45 ∧ b ≠ 43 := by
  simp only [isDigit, Bool.and_eq_true, decide_eq_true_eq, UInt8.le_iff_toNat_le] at h
  change 48 ≤ b.toNat ∧ b.toNat ≤ 57 at h
  refine ⟨?_, ?_, ?_⟩
  · have hblank : b ≠ 32 := by
      rintro rfl
      exact absurd h.1 (by decide)
    have hcontrol : ¬ b ≤ 13 := by
      rw [UInt8.le_iff_toNat_le]
      change ¬ b.toNat ≤ 13
      omega
    simp [isSpace, hblank, hcontrol]
  · rintro rfl
    exact absurd h.1 (by decide)
  · rintro rfl
    exact absurd h.1 (by decide)

theorem numeral_numberPart {s : Bytes} {n : ℕ} (h : IsNumeral s n) :
    sign (s.dropWhile isSpace) = (false, s) := by
  obtain ⟨hne, hdigits, -⟩ := h
  cases s with
  | nil => exact absurd rfl hne
  | cons b rest =>
    obtain ⟨hspace, hminus, hplus⟩ := digit_not_sign (hdigits b List.mem_cons_self)
    rw [List.dropWhile_cons_of_neg (by simp [hspace])]
    unfold sign
    split
    · rename_i heq; cases heq; exact absurd rfl hminus
    · rename_i heq; cases heq; exact absurd rfl hplus
    · rfl

theorem stoul_numeral {s : Bytes} {n : ℕ} (h : IsNumeral s n) :
    stoul s = if n > maxUlong then .error .outOfRange else .ok (UInt32.ofNat n) := by
  have hsign := numeral_numberPart h
  obtain ⟨hne, hdigits, rfl⟩ := h
  have htake : (numberPart s).takeWhile isDigit = s := by
    rw [numberPart, hsign, List.takeWhile_eq_self_iff]
    exact hdigits
  rw [stoul, htake, hsign, if_neg hne]
  rfl

def asciiLower (b : UInt8) : UInt8 := if 65 ≤ b ∧ b ≤ 90 then b + 32 else b

def strip (s : Bytes) : Bytes := (s.dropWhile isSpace).rdropWhile isSpace

structure Word (w : Bytes) : Prop where
  ne_nil : w ≠ []
  unbroken : ∀ b ∈ w, isSpace b = false

def spaced (words : List Bytes) : Bytes := [32].intercalate words

theorem spaced_cons {w : Bytes} {words : List Bytes} (h : words ≠ []) :
    spaced (w :: words) = w ++ 32 :: spaced words := by
  obtain ⟨v, words, rfl⟩ := List.exists_cons_of_ne_nil h
  rw [spaced, List.intercalate_cons_cons, List.append_assoc]
  rfl

theorem spaced_length {words : List Bytes} (h : words ≠ []) :
    (spaced words).length + 1 = words.flatten.length + words.length := by
  induction words with
  | nil => exact absurd rfl h
  | cons w words ih =>
    cases words with
    | nil => simp [spaced]
    | cons v words =>
      have hrest := ih (List.cons_ne_nil v words)
      rw [spaced_cons (List.cons_ne_nil v words), List.flatten_cons, List.length_append,
        List.length_append, List.length_cons, List.length_cons]
      omega

theorem spaced_ne_nil {words : List Bytes} (h : words ≠ []) (hwords : ∀ w ∈ words, Word w) :
    spaced words ≠ [] := by
  obtain ⟨w, words, rfl⟩ := List.exists_cons_of_ne_nil h
  have hw := (hwords w List.mem_cons_self).ne_nil
  cases words with
  | nil => simpa [spaced] using hw
  | cons v words =>
    rw [spaced_cons (List.cons_ne_nil v words)]
    exact List.append_ne_nil_of_left_ne_nil hw _

theorem spaced_head {words : List Bytes} (hwords : ∀ w ∈ words, Word w) {b : UInt8}
    (h : (spaced words).head? = some b) : isSpace b = false := by
  cases words with
  | nil => cases h
  | cons w words =>
    obtain ⟨hne, hunbroken⟩ := hwords w List.mem_cons_self
    have hhead : (spaced (w :: words)).head? = w.head? := by
      cases words with
      | nil => simp [spaced]
      | cons v words =>
        rw [spaced_cons (List.cons_ne_nil v words), List.head?_append_of_ne_nil _ hne]
    rw [hhead] at h
    exact hunbroken b (List.mem_of_head? h)

theorem spaced_getLast {words : List Bytes} (hwords : ∀ w ∈ words, Word w) {b : UInt8}
    (h : (spaced words).getLast? = some b) : isSpace b = false := by
  induction words with
  | nil => cases h
  | cons w words ih =>
    cases words with
    | nil =>
      have hone : spaced [w] = w := by simp [spaced]
      rw [hone] at h
      exact (hwords w List.mem_cons_self).unbroken b (List.mem_of_getLast? h)
    | cons v words =>
      have hrest : ∀ u ∈ v :: words, Word u := fun u hu => hwords u (List.mem_cons_of_mem w hu)
      have hne := spaced_ne_nil (List.cons_ne_nil v words) hrest
      obtain ⟨last, hlast⟩ := Option.ne_none_iff_exists'.mp (mt List.getLast?_eq_none_iff.mp hne)
      rw [spaced_cons (List.cons_ne_nil v words), List.getLast?_append, List.getLast?_cons, hlast] at h
      cases h
      exact ih hrest hlast

/-- What is left of a command line behind its first word. -/
theorem strip_spaced {words : List Bytes} (h : words ≠ []) (hwords : ∀ w ∈ words, Word w) :
    strip (32 :: spaced words) = spaced words := by
  have hne := spaced_ne_nil h hwords
  have hfront : (32 :: spaced words).dropWhile isSpace = spaced words := by
    rw [List.dropWhile_cons_of_pos (by rfl), List.dropWhile_eq_self_iff]
    intro hlen hspace
    have hhead : (spaced words).head? = some (spaced words)[0] := by
      rw [List.head?_eq_getElem?, List.getElem?_eq_getElem hlen]
    rw [spaced_head hwords hhead] at hspace
    cases hspace
  rw [strip, hfront, List.rdropWhile_eq_self_iff]
  intro hnil hspace
  rw [spaced_getLast hwords (List.getLast?_eq_some_getLast hnil)] at hspace
  cases hspace

end MeshRoofFirmware.Library.CParse
