import MeshRoofFirmware.ConsoleOutput

set_option autoImplicit false

namespace MeshRoofFirmware.UsbRendering
open Library.ByteCodec Library.ByteBlock Library.CText ConsoleOutput

def carriageReturn (b : UInt8) : Bytes := if b = 10 then [13] else []

def rendered (text : Bytes) : Bytes := text.flatMap (fun b => carriageReturn b ++ [b])

theorem rendered_cons (b : UInt8) (text : Bytes) :
    rendered (b :: text) = carriageReturn b ++ [b] ++ rendered text := rfl

theorem sent_append (buf : Block) (xs ys : List WriteCall) :
    sent buf (xs ++ ys) = sent buf xs ++ sent buf ys := List.flatMap_append

/-- The driver takes one byte of a call or none. -/
def OneAtMost (answers : List UsbAnswer) : Prop := ∀ a ∈ answers, a.written ≤ 1

instance (answers : List UsbAnswer) : Decidable (OneAtMost answers) :=
  inferInstanceAs (Decidable (∀ a ∈ answers, a.written ≤ 1))

def StaysConnected (answers : List UsbAnswer) : Prop := ∀ a ∈ answers, a.connected = true

instance (answers : List UsbAnswer) : Decidable (StaysConnected answers) :=
  inferInstanceAs (Decidable (∀ a ∈ answers, a.connected = true))

def HandsOver (buf : Block) (source : Source) (b : UInt8) : Prop :=
  ∀ result ≤ 1, WriteCall.accepted buf ⟨source, 1, result⟩ = if result = 1 then [b] else []

/-- A part of the printer's run that is to send `want`: what was accepted is left out in places
when the link drops, and the answers behind it are those that are left. -/
structure Transmits (buf : Block) (want : Bytes) (answers : List UsbAnswer)
    (calls : List WriteCall) (left : Option (List UsbAnswer)) : Prop where
  thinned : (sent buf calls).Sublist want
  later : ∀ rest, left = some rest → rest <:+ answers
  whole : ∀ rest, left = some rest → StaysConnected answers → sent buf calls = want

section Steps
variable {buf : Block} {answers : List UsbAnswer}

theorem transmits_nothing (answers : List UsbAnswer) :
    Transmits buf [] answers [] (some answers) := by
  refine ⟨List.Sublist.slnil, fun rest h => ?_, fun _ _ _ => rfl⟩
  cases h
  exact List.suffix_rfl

theorem OneAtMost.later {left : List UsbAnswer} (h : OneAtMost answers) (hleft : left <:+ answers) :
    OneAtMost left := fun a ha => h a (hleft.subset ha)

theorem StaysConnected.later {left : List UsbAnswer} (h : StaysConnected answers)
    (hleft : left <:+ answers) : StaysConnected left := fun a ha => h a (hleft.subset ha)

theorem Transmits.append {want more : Bytes} {calls next : List WriteCall}
    {mid : List UsbAnswer} {left : Option (List UsbAnswer)}
    (hfirst : Transmits buf want answers calls (some mid)) (hnext : Transmits buf more mid next left) :
    Transmits buf (want ++ more) answers (calls ++ next) left := by
  have hmid := hfirst.later mid rfl
  constructor
  · rw [sent_append]
    exact hfirst.thinned.append hnext.thinned
  · intro rest h
    exact (hnext.later rest h).trans hmid
  · intro rest h hstays
    rw [sent_append, hfirst.whole mid rfl hstays, hnext.whole rest h (hstays.later hmid)]

theorem transmit_transmits {source : Source} {b : UInt8} (hsource : HandsOver buf source b)
    (hone : OneAtMost answers) :
    Transmits buf [b] answers (transmit source answers).1 (transmit source answers).2 := by
  induction answers with
  | nil => exact ⟨List.nil_sublist _, nofun, nofun⟩
  | cons a answers ih =>
    have hfirst := hsource a.written (hone a List.mem_cons_self)
    have hagain := ih (fun c hc => hone c (List.mem_cons_of_mem _ hc))
    rw [transmit]
    split_ifs with hconnected hwritten
    · refine ⟨List.nil_sublist _, fun rest h => ?_, fun rest _ hstays => ?_⟩
      · cases h
        exact List.suffix_cons a answers
      · rw [hstays a List.mem_cons_self] at hconnected
        cases hconnected
    · have hsent : sent buf [⟨source, 1, a.written⟩] = [b] := by
        rw [if_pos hwritten] at hfirst
        rw [sent, List.flatMap_singleton, hfirst]
      refine ⟨hsent ▸ List.Sublist.refl _, fun rest h => ?_, fun _ _ _ => hsent⟩
      cases h
      exact List.suffix_cons a answers
    · have hsent : sent buf (⟨source, 1, a.written⟩ :: (transmit source answers).1) =
          sent buf (transmit source answers).1 := by
        rw [if_neg hwritten] at hfirst
        rw [sent, List.flatMap_cons, hfirst]
        rfl
      refine ⟨hsent ▸ hagain.thinned, fun rest h => ?_, fun rest h hstays => ?_⟩
      · exact (hagain.later rest h).trans (List.suffix_cons a answers)
      · exact hsent.trans (hagain.whole rest h (fun c hc => hstays c (List.mem_cons_of_mem _ hc)))

theorem literal_handsOver (buf : Block) (b : UInt8) : HandsOver buf (.literal [b]) b := by
  intro result hle
  change [b].take result.toNat = _
  split_ifs with hone
  · rw [hone]
    rfl
  · rw [Int.toNat_of_nonpos (by omega)]
    rfl

theorem buffer_handsOver (buf : Block) (i : ℕ) : HandsOver buf (.buffer i) (buf.byte i) := by
  intro result hle
  change (buf.slice i result.toNat).bytes = _
  split_ifs with hone
  · rw [hone]
    rfl
  · rw [Int.toNat_of_nonpos (by omega)]
    rfl

theorem newline_transmits (buf : Block) (b : UInt8) (hone : OneAtMost answers) :
    let newline := if b = 10 then transmit (.literal [13]) answers else ([], some answers)
    Transmits buf (carriageReturn b) answers newline.1 newline.2 := by
  intro newline
  unfold newline carriageReturn
  split_ifs
  · exact transmit_transmits (literal_handsOver buf 13) hone
  · exact transmits_nothing answers

end Steps

theorem byte_of_drop {text rest : Bytes} {b : UInt8} {i : ℕ} (stack : ℕ → UInt8)
    (htext : text.length ≤ 510) (hdrop : text.drop i = b :: rest) :
    (textBuffer text stack).byte i = b := by
  have hlength := congrArg List.length hdrop
  rw [List.length_drop, List.length_cons] at hlength
  have hslice : ((textBuffer text stack).slice i 1).bytes = (text.drop i).take 1 :=
    textBuffer_slice htext (by omega)
  rw [hdrop] at hslice
  exact List.head_eq_of_cons_eq hslice

structure Renders (buf : Block) (want : Bytes) (answers : List UsbAnswer) (run : UsbRun) : Prop where
  thinned : (sent buf run.calls).Sublist want
  whole : run.finished = true → StaysConnected answers → sent buf run.calls = want

theorem usbLoop_renders {text : Bytes} (stack : ℕ → UInt8) (htext : text.length ≤ 510)
    (rest : Bytes) {i : ℕ} (hdrop : text.drop i = rest) {answers : List UsbAnswer}
    (hone : OneAtMost answers) : Renders (textBuffer text stack) (rendered rest) answers
      (usbLoop (textBuffer text stack) rest.length i answers) := by
  induction rest generalizing i answers with
  | nil => exact ⟨List.Sublist.slnil, fun _ _ => rfl⟩
  | cons b rest ih =>
    have hbyte := byte_of_drop stack htext hdrop
    have hnewline := newline_transmits (textBuffer text stack) b hone
    rw [List.length_cons, usbLoop, rendered_cons]
    dsimp only
    rw [hbyte]
    generalize (if b = 10 then transmit (.literal [13]) answers else ([], some answers)) = newline
      at hnewline
    -- the answers may run out in the first loop, in the second, or behind both
    obtain ⟨newlineCalls, newlineLeft⟩ := newline
    cases newlineLeft with
    | none =>
      refine ⟨?_, fun hfinished => absurd hfinished Bool.false_ne_true⟩
      exact (hnewline.thinned.trans (List.sublist_append_left _ _)).trans
        (List.sublist_append_left _ _)
    | some later =>
      have hlater := hnewline.later later rfl
      have hlaterOne := hone.later hlater
      have hchar := transmit_transmits (hbyte ▸ buffer_handsOver (textBuffer text stack) i)
        hlaterOne
      dsimp only
      generalize transmit (.buffer i) later = char at hchar
      obtain ⟨charCalls, charLeft⟩ := char
      have hboth := hnewline.append hchar
      cases charLeft with
      | none =>
        refine ⟨?_, fun hfinished => absurd hfinished Bool.false_ne_true⟩
        exact hboth.thinned.trans (List.sublist_append_left _ _)
      | some last =>
        have hlast := hboth.later last rfl
        have hdropRest : text.drop (i + 1) = rest := by
          rw [← List.drop_drop, hdrop, List.drop_one, List.tail_cons]
        obtain ⟨hthinned, hwhole⟩ := ih hdropRest (hone.later hlast)
        constructor
        · change (sent _ (newlineCalls ++ charCalls ++ _)).Sublist _
          rw [sent_append]
          exact hboth.thinned.append hthinned
        · intro hfinished hstays
          change sent _ (newlineCalls ++ charCalls ++ _) = _
          rw [sent_append, hboth.whole last rfl hstays, hwhole hfinished (hstays.later hlast)]

/-- Of a message of at most 510 bytes the driver gets its rendering, less what is lost while the
link is down, and the length of the message is returned whatever it got. -/
theorem usbVprintf_renders (stack : ℕ → UInt8) (connected : Bool) {answers : List UsbAnswer}
    (hone : OneAtMost answers) {text : Bytes} (htext : text.length ≤ 510) :
    let printed := usbVprintf stack connected answers text
    (sent printed.buffer printed.calls).Sublist (rendered text) ∧
      (connected = true → StaysConnected answers → printed.ret ≠ none →
        sent printed.buffer printed.calls = rendered text) ∧
      ∀ ret, printed.ret = some ret → ret = text.length := by
  intro printed
  cases connected with
  | false =>
    refine ⟨List.nil_sublist _, nofun, fun ret h => ?_⟩
    cases h
    rfl
  | true =>
    obtain ⟨hthinned, hwhole⟩ := usbLoop_renders stack htext text List.drop_zero hone
    refine ⟨hthinned, fun _ hstays hret => hwhole ?_ hstays, fun ret h => ?_⟩
    · by_contra hwaits
      exact hret (if_neg hwaits)
    · change (if _ then some _ else none) = some ret at h
      split_ifs at h
      cases h
      rfl

def settles (a : UsbAnswer) : Bool := !a.connected || a.written == 1

theorem transmit_settles (source : Source) (answers : List UsbAnswer) :
    ((transmit source answers).2 = none ∧ answers.countP settles = 0) ∨
      ∃ rest, (transmit source answers).2 = some rest ∧
        answers.countP settles = rest.countP settles + 1 := by
  induction answers with
  | nil => exact Or.inl ⟨rfl, rfl⟩
  | cons a answers ih =>
    rw [transmit]
    split_ifs with hconnected hwritten
    · have hdown : settles a = true := by rw [settles, hconnected, Bool.true_or]
      exact Or.inr ⟨answers, rfl, List.countP_cons_of_pos hdown⟩
    · exact Or.inr ⟨answers, rfl, List.countP_cons_of_pos (by simp [settles, hwritten])⟩
    · have hgoes : ¬ settles a = true := by simpa [settles, hwritten] using hconnected
      rw [List.countP_cons_of_neg hgoes]
      exact ih

theorem newline_settles (b : UInt8) (answers : List UsbAnswer) :
    let newline := if b = 10 then transmit (.literal [13]) answers else ([], some answers)
    (newline.2 = none ∧ answers.countP settles < (carriageReturn b).length) ∨
      ∃ later, newline.2 = some later ∧
        answers.countP settles = later.countP settles + (carriageReturn b).length := by
  unfold carriageReturn
  split_ifs
  · rcases transmit_settles (.literal [13]) answers with ⟨hnone, hcount⟩ | hsome
    · exact Or.inl ⟨hnone, hcount ▸ Nat.one_pos⟩
    · exact Or.inr hsome
  · exact Or.inr ⟨answers, rfl, rfl⟩

theorem usbLoop_finished_iff {text : Bytes} (stack : ℕ → UInt8) (htext : text.length ≤ 510)
    (rest : Bytes) {i : ℕ} (hdrop : text.drop i = rest) (answers : List UsbAnswer) :
    (usbLoop (textBuffer text stack) rest.length i answers).finished = true ↔
      (rendered rest).length ≤ answers.countP settles := by
  induction rest generalizing i answers with
  | nil => exact iff_of_true rfl (Nat.zero_le _)
  | cons b rest ih =>
    have hdropRest : text.drop (i + 1) = rest := by
      rw [← List.drop_drop, hdrop, List.drop_one, List.tail_cons]
    have hnewline := newline_settles b answers
    rw [List.length_cons, usbLoop, rendered_cons, List.length_append, List.length_append]
    dsimp only at hnewline ⊢
    rw [byte_of_drop stack htext hdrop]
    generalize (if b = 10 then transmit (.literal [13]) answers else ([], some answers)) = newline
      at hnewline
    obtain ⟨newlineCalls, newlineLeft⟩ := newline
    rcases hnewline with ⟨hnone, hcount⟩ | ⟨later, hlater, hcount⟩
    · dsimp only at hnone
      subst hnone
      exact iff_of_false Bool.false_ne_true (by omega)
    dsimp only at hlater
    subst hlater
    dsimp only
    rcases transmit_settles (.buffer i) later with ⟨hnone, hchar⟩ | ⟨last, hlast, hchar⟩
    · rw [hnone]
      exact iff_of_false Bool.false_ne_true (by simp only [List.length_singleton]; omega)
    · rw [hlast]
      dsimp only
      rw [ih hdropRest last, List.length_singleton]
      omega

/-- The call returns at once on a port that is down, and otherwise once the port has accepted, or
the loops have given up, every byte of the rendering. -/
theorem usbVprintf_returns_iff (stack : ℕ → UInt8) (connected : Bool) (answers : List UsbAnswer)
    {text : Bytes} (htext : text.length ≤ 510) :
    (usbVprintf stack connected answers text).ret ≠ none ↔
      connected = false ∨ (rendered text).length ≤ answers.countP settles := by
  cases connected with
  | false => exact iff_of_true (Option.some_ne_none _) (Or.inl rfl)
  | true =>
    have hret : (usbVprintf stack true answers text).ret =
        if (usbLoop (textBuffer text stack) text.length 0 answers).finished then some ↑text.length
        else none := rfl
    rw [hret, ← usbLoop_finished_iff stack htext text List.drop_zero answers]
    split_ifs with hfinished
    · exact iff_of_true (Option.some_ne_none _) (Or.inr hfinished)
    · exact iff_of_false (not_not.mpr rfl) (by simpa using hfinished)

/-- The port stays up; it refuses the carriage return once and the newline twice. -/
def busyPort : List UsbAnswer :=
  [⟨true, 1⟩, ⟨true, 0⟩, ⟨true, 1⟩, ⟨true, 0⟩, ⟨true, 0⟩, ⟨true, 1⟩, ⟨true, 1⟩]

theorem usbVprintf_renders_busy :
    let printed := usbVprintf (fun _ => 0) true busyPort (ascii "a\nb")
    printed.ret ≠ none ∧ sent printed.buffer printed.calls = rendered (ascii "a\nb") := by
  have hone : OneAtMost busyPort := by decide
  have htext : (ascii "a\nb").length ≤ 510 := by decide
  have hreturns :=
    (usbVprintf_returns_iff (fun _ => 0) true busyPort htext).mpr (Or.inr (by decide))
  obtain ⟨-, hwhole, -⟩ := usbVprintf_renders (fun _ => 0) true hone htext
  exact ⟨hreturns, hwhole rfl (by decide) hreturns⟩

def interruptedPort : List UsbAnswer := [⟨true, 1⟩, ⟨true, 0⟩, ⟨false, 0⟩, ⟨true, 1⟩, ⟨true, 1⟩]

example : sent (usbVprintf (fun _ => 0) true interruptedPort (ascii "a\nb")).buffer
    (usbVprintf (fun _ => 0) true interruptedPort (ascii "a\nb")).calls = ascii "a\nb" := by
  decide

end MeshRoofFirmware.UsbRendering
