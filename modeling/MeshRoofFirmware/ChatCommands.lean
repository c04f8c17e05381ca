import MeshRoofFirmware.Buzzer
import MeshRoofFirmware.StatusReport

set_option autoImplicit false

namespace MeshRoofFirmware.ChatCommands
open Library.ByteCodec Library.CText Library.CParse NvmLayout WifiStation StatusReport Buzzer

structure Helpers where
  toLowercase : Bytes → Bytes
  trimWhitespace : Bytes → Bytes

structure ChatEnv where
  mainBody : NvmMainBody
  station : EspWifi
  rssi : Option ℤ
  stack : Bytes

/-- The reply, what is printed on the device's console, the calls of `MeshRoof::buzz`, and the
texts given to `addMorseText`. -/
structure ChatRun where
  reply : Bytes
  console : List Bytes
  buzzed : List UInt32
  morseTexts : List Bytes

def replies (reply : Bytes) : ChatRun := ⟨reply, [], [], []⟩

def handleStatus : ChatRun := replies []

def handleAmplify : ChatRun := replies []

def handleReset : ChatRun := replies []

def handleBuzz : ChatRun := ⟨[], [], [defaultMs], []⟩

def handleMorse (message : Bytes) : ChatRun :=
  ⟨ascii "buzzing morse code: '" ++ message ++ ascii "'", [], [], [message]⟩

/-- The run of the command, and what is left in the caller's message. -/
def handleUnknown (h : Helpers) (env : ChatEnv) (message : Bytes) : ChatRun × Bytes :=
  let firstWord := h.toLowercase (message.takeWhile (· ≠ 32))
  let message := h.trimWhitespace (message.drop firstWord.length)
  let run :=
    if firstWord = ascii "status" then handleStatus
    else if firstWord = ascii "wifi" then replies (handleWifi env.stack env.rssi env.station)
    else if firstWord = ascii "net" then
      let net := handleNet env.mainBody env.station
      { replies net.reply with console := net.console }
    else if firstWord = ascii "amplify" then handleAmplify
    else if firstWord = ascii "reset" then handleReset
    else if firstWord = ascii "buzz" then handleBuzz
    else if firstWord = ascii "morse" then handleMorse message
    else replies []
  (run, message)

structure MorseRun where
  ret : ℤ
  morseTexts : List Bytes

def shellMorse (argv : List Bytes) : MorseRun := ⟨0, [(argv.drop 1).foldl (· ++ ·) []]⟩

theorem shellMorse_text (argv₀ : Bytes) (words : List Bytes) :
    (shellMorse (argv₀ :: words)).morseTexts = [words.flatten] := by
  have hfold (acc : Bytes) : words.foldl (· ++ ·) acc = acc ++ words.flatten := by
    induction words generalizing acc with
    | nil => simp
    | cons w words ih =>
      rw [List.foldl_cons, ih, List.flatten_cons, List.append_assoc]
  change [words.foldl (· ++ ·) []] = _
  rw [hfold, List.nil_append]

section Morse
variable {h : Helpers} (hlower : ∀ s, h.toLowercase s = s.map asciiLower)
  (htrim : ∀ s, h.trimWhitespace s = strip s)
include hlower htrim

theorem handleUnknown_morse (env : ChatEnv) {cmd : Bytes} (hcmd : cmd.map asciiLower = ascii "morse")
    {words : List Bytes} (hne : words ≠ []) (hwords : ∀ w ∈ words, Word w) :
    handleUnknown h env (spaced (cmd :: words)) = (handleMorse (spaced words), spaced words) := by
  have hblank : ∀ b ∈ cmd, decide (b ≠ 32) = true := by
    intro b hb
    rw [decide_eq_true_iff]
    rintro rfl
    have hmem : asciiLower 32 ∈ ascii "morse" := hcmd ▸ List.mem_map_of_mem hb
    exact absurd hmem (by decide)
  have hfirst : (spaced (cmd :: words)).takeWhile (· ≠ 32) = cmd := by
    rw [spaced_cons hne, List.takeWhile_append_of_pos hblank,
      List.takeWhile_cons_of_neg (by decide), List.append_nil]
  have hrest : (spaced (cmd :: words)).drop (ascii "morse").length = 32 :: spaced words := by
    rw [spaced_cons hne, ← hcmd, List.length_map, List.drop_left]
  unfold handleUnknown
  dsimp only
  rw [hfirst, hlower, hcmd, hrest, htrim, strip_spaced hne hwords]
  rfl

/-- The shell runs its words together, so the two texts are the same for a single word alone. -/
theorem same_text_iff (env : ChatEnv) {cmd : Bytes} (hcmd : cmd.map asciiLower = ascii "morse")
    (argv₀ : Bytes) {words : List Bytes} (hne : words ≠ []) (hwords : ∀ w ∈ words, Word w) :
    (shellMorse (argv₀ :: words)).morseTexts =
        (handleUnknown h env (spaced (cmd :: words))).1.morseTexts ↔ words.length = 1 := by
  have hlength := spaced_length hne
  rw [shellMorse_text, handleUnknown_morse hlower htrim env hcmd hne hwords]
  change [words.flatten] = [spaced words] ↔ _
  constructor
  · intro hsame
    rw [List.singleton_inj.mp hsame] at hlength
    omega
  · intro hone
    obtain ⟨w, rfl⟩ := List.length_eq_one_iff.mp hone
    simp [spaced]

end Morse

def sampleHelpers : Helpers := ⟨fun s => s.map asciiLower, strip⟩

def sampleChat : ChatEnv := ⟨zeroBody, idleStation, none, []⟩

theorem sos_word : Word (ascii "sos") := by
  have hall : (ascii "sos").all (fun b => !isSpace b) = true := by decide
  exact ⟨by decide, fun b hb => by simpa using List.all_eq_true.mp hall b hb⟩

theorem same_text_sos :
    (shellMorse [ascii "morse", ascii "sos", ascii "sos"]).morseTexts =
        (handleUnknown sampleHelpers sampleChat
          (spaced [ascii "Morse", ascii "sos", ascii "sos"])).1.morseTexts ↔
      [ascii "sos", ascii "sos"].length = 1 :=
  same_text_iff (fun _ => rfl) (fun _ => rfl) sampleChat (by decide) _ (List.cons_ne_nil _ _)
    (List.forall_mem_cons.mpr ⟨sos_word, List.forall_mem_singleton.mpr sos_word⟩)

theorem words_run_together :
    (shellMorse [ascii "morse", ascii "sos", ascii "sos"]).morseTexts = [ascii "sossos"] ∧
      (handleUnknown sampleHelpers sampleChat (ascii "morse sos sos")).1.morseTexts =
        [ascii "sos sos"] ∧
      (shellMorse [ascii "morse", ascii "sos", ascii "sos"]).morseTexts ≠
        (handleUnknown sampleHelpers sampleChat (ascii "morse sos sos")).1.morseTexts := by
  decide

end MeshRoofFirmware.ChatCommands
