import MeshRoofFirmware.StatusReport

set_option autoImplicit false

namespace MeshRoofFirmware.ReportAgreement
open Library.ByteCodec Library.ByteBlock Library.CText NvmLayout WifiStation StatusReport

def newline : Bytes := ascii "\n"

def lines (text : Bytes) : List Bytes := text.splitOn 10

def printedLines (printed : List Bytes) : List Bytes := (lines printed.flatten).dropLast

/-- The reply has every line that is printed, in that order. -/
def Carries (reply : Bytes) (printed : List Bytes) : Prop :=
  (printedLines printed).Sublist (lines reply)

theorem lines_append (xs ys : Bytes) : lines (xs ++ newline ++ ys) = lines xs ++ lines ys := by
  rw [List.append_assoc]
  exact List.splitOn_append_cons_self xs ys

theorem lines_ne_nil (text : Bytes) : lines text ≠ [] := List.splitOn_ne_nil 10 text

theorem lines_printed (texts : List Bytes) :
    lines (texts.map (· ++ newline)).flatten = texts.flatMap lines ++ [[]] := by
  induction texts with
  | nil => rfl
  | cons t texts ih => rw [List.map_cons, List.flatten_cons, lines_append, ih, List.flatMap_cons,
      List.append_assoc]

theorem printedLines_map (texts : List Bytes) :
    printedLines (texts.map (· ++ newline)) = texts.flatMap lines := by
  rw [printedLines, lines_printed, List.dropLast_concat]

theorem lines_intercalate {texts : List Bytes} (h : texts ≠ []) :
    lines (newline.intercalate texts) = texts.flatMap lines := by
  induction texts with
  | nil => exact absurd rfl h
  | cons t texts ih =>
    cases texts with
    | nil => simp
    | cons u texts =>
      rw [List.intercalate_cons_cons, lines_append, ih (List.cons_ne_nil u texts)]
      rfl

theorem decimal_length {n : ℕ} (h : n < 256) : (decimal n).length ≤ 3 := by
  rw [decimal, List.length_map]
  exact (Nat.length_toDigits_le_iff (by decide) (by decide)).mpr (by omega)

theorem dotted_length (addr : UInt32) : (dotted addr).length ≤ 15 := by
  have hoctet (b : UInt8) : (decimal b.toNat).length ≤ 3 := decimal_length b.toNat_lt
  have hdot : (ascii ".").length = 1 := rfl
  rw [dotted]
  simp only [leBytes, List.map_cons, List.map_nil, List.intercalate_cons_cons,
    List.intercalate_singleton, List.length_append, hdot]
  have h₀ := hoctet (UInt8.ofNat addr.toNat)
  have h₁ := hoctet (UInt8.ofNat (addr.toNat / 256))
  have h₂ := hoctet (UInt8.ofNat (addr.toNat / 256 / 256))
  have h₃ := hoctet (UInt8.ofNat (addr.toNat / 256 / 256 / 256))
  omega

theorem snprintf_fits {size : ℕ} {text : Bytes} (h : text.length ≤ size - 1) :
    snprintf size text = text := List.take_of_length_le h

def modeLine (b : NvmMainBody) : Bytes := if b.ip = 0 then ascii "(dhcp)" else ascii "(static ip)"

def addressLines (w : EspWifi) : List Bytes :=
  [ascii "ip:      " ++ dotted w.ipInfo.ip, ascii "netmask: " ++ dotted w.ipInfo.netmask,
    ascii "gateway: " ++ dotted w.ipInfo.gw, ascii "dns1:    " ++ dotted w.dns1Info,
    ascii "dns2:    " ++ dotted w.dns2Info, ascii "dns3:    " ++ dotted w.dns3Info]

theorem modeLine_newline (b : NvmMainBody) : modeLine b ++ newline =
    if b.ip = 0 then ascii "(dhcp)\n" else ascii "(static ip)\n" := by
  unfold modeLine
  split_ifs <;> decide

theorem shellNet_lines (b : NvmMainBody) (w : EspWifi) :
    shellNet b w = (modeLine b :: addressLines w).map (· ++ newline) := by
  rw [List.map_cons, modeLine_newline]
  rfl

theorem handleNet_lines (b : NvmMainBody) (w : EspWifi) :
    (handleNet b w).reply = newline.intercalate (addressLines w) ∧
      (handleNet b w).console = [modeLine b ++ newline] := by
  have hline (label : Bytes) (hlabel : label.length = 9) (addr : UInt32) :
      snprintf (80 - 1) (label ++ dotted addr) = label ++ dotted addr := by
    have hdotted := dotted_length addr
    apply snprintf_fits
    rw [List.length_append, hlabel]
    omega
  constructor
  · simp only [handleNet, hline (ascii "ip:      ") rfl, hline (ascii "netmask: ") rfl,
      hline (ascii "gateway: ") rfl, hline (ascii "dns1:    ") rfl, hline (ascii "dns2:    ") rfl,
      hline (ascii "dns3:    ") rfl, addressLines, List.intercalate_cons_cons,
      List.intercalate_singleton, List.append_assoc, newline]
  · rw [modeLine_newline]
    rfl

def connectedHeading (w : EspWifi) : List Bytes :=
  if leadingOctet w.staConnected = 0 then [] else [ascii "Wifi is connected"]

def associationLines (ssid : Bytes) (rssi : Option ℤ) (w : EspWifi) : List Bytes :=
  if leadingOctet w.staConnected = 0 then [ascii "Wifi not connected"]
  else
    [ascii "ssid: " ++ ssid, ascii "bssid: " ++ bssidText w.staConnected.bssid,
      ascii "channel: " ++ decimal w.staConnected.channel.toNat,
      ascii "rssi: " ++ signedDecimal (getRssi rssi w)]

theorem associationLines_ne_nil (ssid : Bytes) (rssi : Option ℤ) (w : EspWifi) :
    associationLines ssid rssi w ≠ [] := by
  unfold associationLines
  split_ifs <;> exact List.cons_ne_nil _ _

theorem shellWifi_lines (stack : Bytes) (rssi : Option ℤ) (w : EspWifi) :
    shellWifi stack rssi w =
      (associationLines (ssidText stack w.staConnected) rssi w).map (· ++ newline) := by
  unfold shellWifi associationLines leadingOctet
  dsimp only
  split_ifs
  · decide
  · rfl

theorem handleWifi_lines (stack : Bytes) (rssi : Option ℤ) (w : EspWifi) :
    handleWifi stack rssi w = newline.intercalate (connectedHeading w ++
      associationLines (ssidText stack w.staConnected) rssi w) := by
  have hbssid : snprintf (40 - 1) (ascii "bssid: " ++ bssidText w.staConnected.bssid) =
      ascii "bssid: " ++ bssidText w.staConnected.bssid := by
    apply snprintf_fits
    rw [List.length_append, bssidText_length]
    decide
  unfold handleWifi connectedHeading associationLines leadingOctet
  dsimp only
  split_ifs
  · rfl
  · simp only [hbssid, List.cons_append, List.nil_append, List.intercalate_cons_cons,
      List.intercalate_singleton, List.append_assoc, newline]

/-- For every SSID that the standard allows the reply of the chat has the lines of the shell
below its heading. -/
theorem handleWifi_carries {w : EspWifi} (hshort : w.staConnected.ssidLen.toNat ≤ 32)
    (shellStack chatStack : Bytes) (rssi : Option ℤ) :
    Carries (handleWifi chatStack rssi w) (shellWifi shellStack rssi w) ∧
      lines (handleWifi chatStack rssi w) =
        (connectedHeading w).flatMap lines ++ printedLines (shellWifi shellStack rssi w) := by
  have hlines : lines (handleWifi chatStack rssi w) =
      (connectedHeading w).flatMap lines ++ printedLines (shellWifi shellStack rssi w) := by
    rw [shellWifi_lines, handleWifi_lines, ssidText_of_short shellStack hshort,
      ssidText_of_short chatStack hshort, printedLines_map, ← List.flatMap_append,
      lines_intercalate (List.append_ne_nil_of_right_ne_nil _ (associationLines_ne_nil _ _ _))]
  refine ⟨?_, hlines⟩
  rw [Carries, hlines]
  exact List.sublist_append_right _ _

/-- Both replies of the chat have the lines that the shell prints. -/
def RepliesAgree (b : NvmMainBody) (w : EspWifi) (rssi : Option ℤ) (shellStack chatStack : Bytes) :
    Prop :=
  Carries (handleNet b w).reply (shellNet b w) ∧
    Carries (handleWifi chatStack rssi w) (shellWifi shellStack rssi w)

theorem net_lines (b : NvmMainBody) (w : EspWifi) :
    printedLines (shellNet b w) = lines (modeLine b) ++ lines (handleNet b w).reply := by
  have hne : addressLines w ≠ [] := List.cons_ne_nil _ _
  rw [shellNet_lines, printedLines_map, (handleNet_lines b w).1, lines_intercalate hne,
    List.flatMap_cons]

theorem net_not_carried (b : NvmMainBody) (w : EspWifi) :
    ¬ Carries (handleNet b w).reply (shellNet b w) := by
  intro h
  have hle := h.length_le
  have hpos := List.length_pos_iff.mpr (lines_ne_nil (modeLine b))
  rw [net_lines, List.length_append] at hle
  omega

/-- The address mode goes to the device's console instead of the reply, whatever the mode and
the addresses; the other lines are those of the shell. -/
theorem replies_never_agree (b : NvmMainBody) (w : EspWifi) (rssi : Option ℤ)
    (shellStack chatStack : Bytes) : ¬ RepliesAgree b w rssi shellStack chatStack ∧
      printedLines (shellNet b w) = lines (modeLine b) ++ lines (handleNet b w).reply ∧
      (handleNet b w).console = [modeLine b ++ newline] :=
  ⟨fun h => net_not_carried b w h.1, net_lines b w, (handleNet_lines b w).2⟩

theorem dhcp_not_in_reply :
    ascii "(dhcp)" ∈ printedLines (shellNet zeroBody idleStation) ∧
      ascii "(dhcp)" ∉ lines (handleNet zeroBody idleStation).reply ∧
      ¬ RepliesAgree zeroBody idleStation none [] [] :=
  ⟨by decide, by decide, fun h => net_not_carried zeroBody idleStation h.1⟩

end MeshRoofFirmware.ReportAgreement
