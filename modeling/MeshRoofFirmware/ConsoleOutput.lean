import MeshRoofFirmware.Library.CText

set_option autoImplicit false

namespace MeshRoofFirmware.ConsoleOutput
open Library.ByteCodec Library.ByteBlock Library.CText

def serialPbufSize : ℕ := 512

/-- The buffer after `vsnprintf` and what it returns, the length of the whole expansion. -/
def vsnprintf (stray : ℕ → UInt8) (size : ℕ) (text : Bytes) : Block × ℕ :=
  (⟨text.take (size - 1) ++ [0], stray⟩, text.length)

inductive Source where
  | buffer (off : ℕ)
  | literal (text : Bytes)

structure WriteCall where
  source : Source
  requested : ℕ
  result : ℤ

def WriteCall.accepted (buf : Block) (c : WriteCall) : Bytes :=
  match c.source with
  | .buffer off => (buf.slice off c.result.toNat).bytes
  | .literal text => text.take c.result.toNat

/-- A printer's run: the indices it looked at, the calls it made, and what it returned unless
it still waits for the port. -/
structure Printed where
  buffer : Block
  reads : List ℕ
  calls : List WriteCall
  ret : Option ℤ

def sent (buf : Block) (calls : List WriteCall) : Bytes := calls.flatMap (WriteCall.accepted buf)

structure UsbAnswer where
  connected : Bool
  written : ℤ

/-- One `do … while` loop; `none` when the answers run out in it. -/
def transmit (source : Source) : List UsbAnswer → List WriteCall × Option (List UsbAnswer)
  | [] => ([], none)
  | a :: answers =>
    if !a.connected then ([], some answers)
    else if a.written = 1 then ([⟨source, 1, a.written⟩], some answers)
    else
      let again := transmit source answers
      (⟨source, 1, a.written⟩ :: again.1, again.2)

structure UsbRun where
  reads : List ℕ
  calls : List WriteCall
  finished : Bool

def usbLoop (pbuf : Block) : ℕ → ℕ → List UsbAnswer → UsbRun
  | 0, _, _ => ⟨[], [], true⟩
  | n + 1, i, answers =>
    let newline :=
      if pbuf.byte i = 10 then transmit (.literal [13]) answers else ([], some answers)
    match newline.2 with
    | none => ⟨[i], newline.1, false⟩
    | some answers =>
      let char := transmit (.buffer i) answers
      match char.2 with
      | none => ⟨[i], newline.1 ++ char.1, false⟩
      | some answers =>
        let rest := usbLoop pbuf n (i + 1) answers
        ⟨i :: rest.reads, newline.1 ++ char.1 ++ rest.calls, rest.finished⟩

def usbVprintf (stack : ℕ → UInt8) (connected : Bool) (answers : List UsbAnswer)
    (text : Bytes) : Printed :=
  let (pbuf, ret) := vsnprintf stack (serialPbufSize - 1) text
  if !connected then ⟨pbuf, [], [], some ret⟩
  else
    let run := usbLoop pbuf ret 0 answers
    ⟨pbuf, run.reads, run.calls, if run.finished then some ret else none⟩

/-- A socket answers its `call`-th `write` of `len` bytes with an error or zero, or with how
many of them it took. -/
structure Socket where
  write : ℕ → ℕ → ℤ
  le : ∀ call len, write call len ≤ len

/-- The sending loop. The pointer moves by what is left, not by what was taken. -/
def sendLoop (sock : Socket) (call off len : ℕ) (ret : ℤ) : List WriteCall × ℤ :=
  if len = 0 then ([], ret)
  else if sock.write call len ≤ 0 then ([⟨.buffer off, len, sock.write call len⟩], -1)
  else
    let left := len - (sock.write call len).toNat
    let rest := sendLoop sock (call + 1) (off + left) left (sock.write call len)
    (⟨.buffer off, len, sock.write call len⟩ :: rest.1, rest.2)
termination_by len
decreasing_by omega

structure Platform where
  stack : ℕ → UInt8
  heap : ℕ → UInt8
  malloc : Bool
  socket : UInt32 → Socket
  connected : Bool
  answers : List UsbAnswer

def printf (ctx : UInt32) (p : Platform) (text : Bytes) : Printed :=
  if ctx = 1 then usbVprintf p.stack p.connected p.answers text
  else if !p.malloc then ⟨⟨[], p.heap⟩, [], [], some 0⟩
  else
    let tcpFd := ctx &&& 0x7fffffff
    let (buf, len) := vsnprintf p.heap (512 - 1) text
    let run := sendLoop (p.socket tcpFd) 0 0 len 0
    ⟨buf, [], run.1, some run.2⟩

section Loop
variable {sock : Socket} {call len taken : ℕ}

theorem sendLoop_zero (call off : ℕ) (ret : ℤ) : sendLoop sock call off 0 ret = ([], ret) := by
  rw [sendLoop]
  rfl

theorem sendLoop_refused (hlen : 0 < len) (h : sock.write call len ≤ 0) (off : ℕ) (ret : ℤ) :
    sendLoop sock call off len ret = ([⟨.buffer off, len, sock.write call len⟩], -1) := by
  rw [sendLoop, if_neg hlen.ne', if_pos h]

theorem sendLoop_taken (h : sock.write call len = taken) (htaken : 0 < taken) (off : ℕ)
    (ret : ℤ) : (sendLoop sock call off len ret).1 = ⟨.buffer off, len, taken⟩ ::
      (sendLoop sock (call + 1) (off + (len - taken)) (len - taken) taken).1 := by
  have hle := sock.le call len
  rw [sendLoop, if_neg (by omega), if_neg (by omega), h]
  rfl

theorem taken_cases (sock : Socket) (call len : ℕ) : sock.write call len ≤ 0 ∨
    ∃ taken : ℕ, sock.write call len = taken ∧ 0 < taken ∧ taken ≤ len := by
  have hle := sock.le call len
  by_cases h : sock.write call len ≤ 0
  · exact Or.inl h
  · exact Or.inr ⟨(sock.write call len).toNat, by omega, by omega, by omega⟩

end Loop

def CallsInside (limit : ℕ) (calls : List WriteCall) : Prop :=
  ∀ c ∈ calls, ∀ off, c.source = .buffer off → off + c.requested ≤ limit

/-- The answers never let the pointer overtake what was accepted: `slack` bytes lie between
the two. -/
inductive Level (sock : Socket) : ℕ → ℕ → ℕ → Prop
  | done (call slack : ℕ) : Level sock call slack 0
  | refused {call slack len : ℕ} (h : sock.write call len ≤ 0) : Level sock call slack len
  | accepted {call slack len taken : ℕ} (h : sock.write call len = taken) (htaken : 0 < taken)
      (henough : len ≤ slack + 2 * taken)
      (hrest : Level sock (call + 1) (slack + 2 * taken - len) (len - taken)) :
      Level sock call slack len

theorem callsInside_nil (limit : ℕ) : CallsInside limit [] := by
  intro c hc
  cases hc

theorem callsInside_cons {limit off len : ℕ} {result : ℤ} {calls : List WriteCall} :
    CallsInside limit (⟨.buffer off, len, result⟩ :: calls) ↔
      off + len ≤ limit ∧ CallsInside limit calls := by
  constructor
  · intro h
    exact ⟨h _ List.mem_cons_self off rfl, fun c hc => h c (List.mem_cons_of_mem _ hc)⟩
  · rintro ⟨hfirst, hrest⟩ c hc o ho
    rcases List.mem_cons.mp hc with rfl | hc
    · cases ho
      exact hfirst
    · exact hrest c hc o ho

theorem first_call_inside {sock : Socket} {call off len limit : ℕ} {ret : ℤ} (hlen : 0 < len)
    (h : CallsInside limit (sendLoop sock call off len ret).1) : off + len ≤ limit := by
  rcases taken_cases sock call len with hrefused | ⟨taken, hwrite, htaken, -⟩
  · rw [sendLoop_refused hlen hrefused, callsInside_cons] at h
    exact h.1
  · rw [sendLoop_taken hwrite htaken, callsInside_cons] at h
    exact h.1

theorem sendLoop_inside_of_level {sock : Socket} {call slack len : ℕ}
    (h : Level sock call slack len) {off limit : ℕ} (hoff : off + len + slack = limit) (ret : ℤ) :
    CallsInside limit (sendLoop sock call off len ret).1 := by
  induction h generalizing off ret with
  | done call slack =>
    rw [sendLoop_zero]
    exact callsInside_nil limit
  | @refused call slack len h =>
    rcases Nat.eq_zero_or_pos len with rfl | hlen
    · rw [sendLoop_zero]
      exact callsInside_nil limit
    · rw [sendLoop_refused hlen h, callsInside_cons]
      exact ⟨by omega, callsInside_nil limit⟩
  | @accepted call slack len taken h htaken henough hrest ih =>
    have hle := sock.le call len
    rw [sendLoop_taken h htaken, callsInside_cons]
    exact ⟨by omega, ih (by omega) _⟩

theorem level_of_inside {sock : Socket} (len : ℕ) {call slack off limit : ℕ}
    (hoff : off + len + slack = limit) {ret : ℤ}
    (h : CallsInside limit (sendLoop sock call off len ret).1) : Level sock call slack len := by
  induction len using Nat.strong_induction_on generalizing call slack off ret with
  | _ len ih =>
    rcases taken_cases sock call len with hrefused | ⟨taken, hwrite, htaken, hle⟩
    · exact .refused hrefused
    rw [sendLoop_taken hwrite htaken, callsInside_cons] at h
    obtain ⟨-, hrest⟩ := h
    rcases Nat.eq_or_lt_of_le hle with rfl | hpart
    · refine .accepted hwrite htaken (by omega) ?_
      rw [Nat.sub_self]
      exact .done _ _
    -- the next call starts where the pointer was put and asks for all that is left
    have hnext := first_call_inside (by omega) hrest
    exact .accepted hwrite htaken (by omega) (ih (len - taken) (by omega) (by omega) hrest)

/-- The socket gets a beginning of `rest`, all of it unless a write fails, and is never
offered anything behind the first `limit` bytes of the buffer. -/
structure Delivers (buf : Block) (limit : ℕ) (rest : Bytes) (calls : List WriteCall) : Prop where
  begins : sent buf calls <+: rest
  whole : (∀ c ∈ calls, 0 < c.result) → sent buf calls = rest
  inside : CallsInside limit calls

/-- A write that takes only a part takes exactly half, or at least half when the next fails. -/
inductive Halving (sock : Socket) : ℕ → ℕ → Prop
  | done (call : ℕ) : Halving sock call 0
  | refused {call len : ℕ} (h : sock.write call len ≤ 0) : Halving sock call len
  | whole {call len : ℕ} (h : sock.write call len = len) : Halving sock call len
  | cut {call len taken : ℕ} (h : sock.write call len = taken) (htaken : 0 < taken)
      (henough : len ≤ 2 * taken) (hnext : sock.write (call + 1) (len - taken) ≤ 0) :
      Halving sock call len
  | half {call len taken : ℕ} (h : sock.write call len = taken) (htaken : 0 < taken)
      (hhalf : len = 2 * taken) (hrest : Halving sock (call + 1) taken) : Halving sock call len

section Text
variable {text : Bytes} {stray : ℕ → UInt8} (htext : text.length ≤ 510)
include htext

def textBuffer (text : Bytes) (stray : ℕ → UInt8) : Block := (vsnprintf stray 511 text).1

theorem textBuffer_slice {off n : ℕ} (h : off + n ≤ text.length) :
    ((textBuffer text stray).slice off n).bytes = (text.drop off).take n := by
  have hbytes : (textBuffer text stray).bytes = text ++ [0] := by
    change text.take 510 ++ [0] = _
    rw [List.take_of_length_le htext]
  have hlength : (textBuffer text stray).bytes.length = text.length + 1 := by
    rw [hbytes, List.length_append]
    rfl
  rw [slice_inside _ (by omega) (by rw [hlength]; simp only [addressSpace]; omega), hbytes,
    List.drop_append_of_le_length (by omega), List.take_append_of_le_length (by
      rw [List.length_drop]
      omega)]

theorem delivers_cons_iff {off len taken : ℕ} {calls : List WriteCall} (htaken : 0 < taken)
    (hle : taken ≤ len) (hin : off + len ≤ text.length) :
    Delivers (textBuffer text stray) text.length (text.drop off)
        (⟨.buffer off, len, taken⟩ :: calls) ↔
      Delivers (textBuffer text stray) text.length (text.drop (off + taken)) calls := by
  have hsplit : text.drop off = (text.drop off).take taken ++ text.drop (off + taken) := by
    rw [← List.drop_drop, List.take_append_drop]
  have hsent : sent (textBuffer text stray) (⟨.buffer off, len, taken⟩ :: calls) =
      (text.drop off).take taken ++ sent (textBuffer text stray) calls := by
    rw [← textBuffer_slice htext (by omega : off + taken ≤ text.length)]
    rfl
  constructor
  · rintro ⟨hbegins, hwhole, hinside⟩
    rw [hsent, hsplit, List.take_left' (by simp only [List.length_take, List.length_drop]; omega)]
      at hbegins
    refine ⟨(List.prefix_append_right_inj _).mp hbegins, fun h => ?_,
      (callsInside_cons.mp hinside).2⟩
    have hall := hwhole (List.forall_mem_cons.mpr ⟨Int.natCast_pos.mpr htaken, h⟩)
    rw [hsent] at hall
    exact List.append_cancel_left (hall.trans hsplit)
  · rintro ⟨hbegins, hwhole, hinside⟩
    refine ⟨?_, fun h => ?_, callsInside_cons.mpr ⟨hin, hinside⟩⟩
    · rw [hsent]
      exact (List.prefix_append_right_inj _).mpr hbegins |>.trans (hsplit ▸ List.prefix_rfl)
    · rw [hsent, hwhole (fun c hc => h c (List.mem_cons_of_mem _ hc))]
      exact hsplit.symm

omit htext in
theorem delivers_nil {off : ℕ} (h : off = text.length) :
    Delivers (textBuffer text stray) text.length (text.drop off) [] := by
  rw [h, List.drop_length]
  exact ⟨List.prefix_rfl, fun _ => rfl, callsInside_nil _⟩

omit htext in
theorem delivers_refused {sock : Socket} {call len off : ℕ} {rest : Bytes}
    (h : sock.write call len ≤ 0) (hin : off + len ≤ text.length) :
    Delivers (textBuffer text stray) text.length rest
      [⟨.buffer off, len, sock.write call len⟩] := by
  have hsent : sent (textBuffer text stray) [⟨.buffer off, len, sock.write call len⟩] = [] := by
    simp [sent, WriteCall.accepted, Block.slice, Int.toNat_of_nonpos h]
  refine ⟨hsent ▸ List.nil_prefix, fun hpos => ?_, callsInside_cons.mpr ⟨hin, callsInside_nil _⟩⟩
  have hcall := hpos _ List.mem_cons_self
  exact absurd h (Int.not_le.mpr hcall)

theorem halving_delivers {sock : Socket} {call len : ℕ} (h : Halving sock call len) {off : ℕ}
    (hoff : off + len = text.length) (ret : ℤ) :
    Delivers (textBuffer text stray) text.length (text.drop off)
      (sendLoop sock call off len ret).1 := by
  induction h generalizing off ret with
  | done call =>
    rw [sendLoop_zero]
    exact delivers_nil hoff
  | @refused call len h =>
    rcases Nat.eq_zero_or_pos len with rfl | hlen
    · rw [sendLoop_zero]
      exact delivers_nil hoff
    · rw [sendLoop_refused hlen h]
      exact delivers_refused h hoff.le
  | @whole call len h =>
    rcases Nat.eq_zero_or_pos len with rfl | hlen
    · rw [sendLoop_zero]
      exact delivers_nil hoff
    · rw [sendLoop_taken h hlen, delivers_cons_iff htext hlen le_rfl hoff.le, Nat.sub_self,
        sendLoop_zero]
      exact delivers_nil hoff
  | @cut call len taken h htaken henough hnext =>
    have hle : taken ≤ len := Int.ofNat_le.mp (h ▸ sock.le call len)
    rw [sendLoop_taken h htaken, delivers_cons_iff htext htaken hle hoff.le]
    rcases Nat.eq_or_lt_of_le hle with rfl | hpart
    · rw [Nat.sub_self, sendLoop_zero]
      exact delivers_nil hoff
    · rw [sendLoop_refused (by omega) hnext]
      exact delivers_refused hnext (by omega)
  | @half call len taken h htaken hhalf hrest ih =>
    have hleft : len - taken = taken := by omega
    rw [sendLoop_taken h htaken, delivers_cons_iff htext htaken (by omega) hoff.le, hleft]
    exact ih (by omega) _

end Text

def steppedText (zeros ones : ℕ) : Bytes := List.replicate zeros 0 ++ List.replicate ones 1

theorem steppedText_length (zeros ones : ℕ) : (steppedText zeros ones).length = zeros + ones := by
  rw [steppedText, List.length_append, List.length_replicate, List.length_replicate]

theorem early_write_seen {stray : ℕ → UInt8} {zeros ones off len more : ℕ}
    {calls : List WriteCall} (hlimit : zeros + ones ≤ 510) (hoff : off < zeros)
    (hmore : 0 < more) (hle : more ≤ len) (hin : off + len ≤ zeros + ones) :
    ¬ Delivers (textBuffer (steppedText zeros ones) stray) (zeros + ones)
      ((steppedText zeros ones).drop zeros) (⟨.buffer off, len, more⟩ :: calls) := by
  rintro ⟨hbegins, -, -⟩
  have hlength := steppedText_length zeros ones
  have hsent : sent (textBuffer (steppedText zeros ones) stray) (⟨.buffer off, len, more⟩ :: calls) =
      ((steppedText zeros ones).drop off).take more ++
        sent (textBuffer (steppedText zeros ones) stray) calls := by
    rw [← textBuffer_slice (hlength.trans_le hlimit) (by omega)]
    rfl
  have hzero : (0 : UInt8) ∈ ((steppedText zeros ones).drop off).take more := by
    obtain ⟨gap, hgap⟩ := Nat.exists_eq_add_of_lt hoff
    obtain ⟨m, rfl⟩ := Nat.exists_eq_succ_of_ne_zero hmore.ne'
    have hfront : zeros - off = gap + 1 := by omega
    rw [steppedText, List.drop_append_of_le_length (by rw [List.length_replicate]; omega),
      List.drop_replicate, hfront, List.replicate_succ, List.cons_append, List.take_succ_cons]
    exact List.mem_cons_self
  have hrest : (steppedText zeros ones).drop zeros = List.replicate ones 1 :=
    List.drop_left' List.length_replicate
  rw [hsent, hrest] at hbegins
  have hone := List.eq_of_mem_replicate (hbegins.subset (List.mem_append_left _ hzero))
  exact absurd hone (by decide)

theorem halving_of_delivers {sock : Socket} {stray : ℕ → UInt8} {limit : ℕ} (hlimit : limit ≤ 510)
    (len : ℕ) {call off : ℕ} (hoff : off + len = limit) {ret : ℤ}
    (h : ∀ text : Bytes, text.length = limit → Delivers (textBuffer text stray) limit
      (text.drop off) (sendLoop sock call off len ret).1) : Halving sock call len := by
  induction len using Nat.strong_induction_on generalizing call off ret with
  | _ len ih =>
    rcases taken_cases sock call len with hrefused | ⟨taken, hwrite, htaken, hle⟩
    · exact .refused hrefused
    rcases Nat.eq_or_lt_of_le hle with rfl | hpart
    · exact .whole hwrite
    -- up to here every text went out right, so the rest of each must too
    have hrest (text : Bytes) (hlength : text.length = limit) : Delivers (textBuffer text stray)
        limit (text.drop (off + taken))
        (sendLoop sock (call + 1) (off + (len - taken)) (len - taken) taken).1 := by
      have hall := h text hlength
      subst hlength
      rw [sendLoop_taken hwrite htaken, delivers_cons_iff hlimit htaken hle hoff.le] at hall
      exact hall
    have hstepped := hrest (steppedText (off + taken) (len - taken))
      (by rw [steppedText_length]; omega)
    have hin := first_call_inside (by omega) hstepped.inside
    rcases taken_cases sock (call + 1) (len - taken) with hr | ⟨more, hm, hpos, hmore⟩
    · exact .cut hwrite htaken (by omega) hr
    · rw [sendLoop_taken hm hpos] at hstepped
      have hhalf : len = 2 * taken := by
        by_contra hne
        have hlim : limit = off + taken + (len - taken) := by omega
        rw [hlim] at hstepped
        exact early_write_seen (by omega) (by omega) hpos hmore (by omega) hstepped
      have hleft : len - taken = taken := by omega
      rw [hleft] at hrest
      exact .half hwrite htaken hhalf (ih taken (by omega) (by omega) hrest)

def tcpSocket (ctx : UInt32) (p : Platform) : Socket := p.socket (ctx &&& 0x7fffffff)

theorem printf_tcp {ctx : UInt32} (hctx : ctx ≠ 1) (p : Platform) (text : Bytes) :
    printf ctx p text = if p.malloc then
      let run := sendLoop (tcpSocket ctx p) 0 0 text.length 0
      ⟨textBuffer text p.heap, [], run.1, some run.2⟩ else ⟨⟨[], p.heap⟩, [], [], some 0⟩ := by
  rw [printf, if_neg hctx]
  cases p.malloc <;> rfl

theorem printf_calls {ctx : UInt32} (hctx : ctx ≠ 1) {p : Platform} (hmalloc : p.malloc = true)
    (text : Bytes) : (printf ctx p text).calls =
      (sendLoop (tcpSocket ctx p) 0 0 text.length 0).1 := by
  rw [printf_tcp hctx, if_pos hmalloc]

/-- Every text of a length reaches the client through a socket exactly if that halves what it
does not take at once. -/
theorem printf_delivers_iff {ctx : UInt32} (hctx : ctx ≠ 1) (p : Platform) {length : ℕ}
    (hlength : length ≤ 510) :
    (∀ text : Bytes, text.length = length →
      Delivers (printf ctx p text).buffer length text (printf ctx p text).calls) ↔
      if p.malloc then Halving (tcpSocket ctx p) 0 length else length = 0 := by
  simp only [printf_tcp hctx]
  cases p.malloc with
  | true =>
    simp only [↓reduceIte]
    constructor
    · intro h
      have hall (text : Bytes) (htext : text.length = length) :
          Delivers (textBuffer text p.heap) length (text.drop 0)
            (sendLoop (tcpSocket ctx p) 0 0 length 0).1 := by
        have hone := h text htext
        rw [htext] at hone
        exact hone
      exact halving_of_delivers hlength length (Nat.zero_add length) hall
    · intro h text htext
      subst htext
      exact halving_delivers hlength h (Nat.zero_add _) 0
  | false =>
    simp only [Bool.false_eq_true, ↓reduceIte]
    constructor
    · intro h
      have hall := h (List.replicate length 0) List.length_replicate
      have hnil := hall.whole nofun
      rw [← List.length_replicate (n := length) (a := (0 : UInt8)), ← hnil]
      rfl
    · rintro rfl text htext
      rw [List.length_eq_zero_iff.mp htext]
      exact ⟨List.prefix_rfl, fun _ => rfl, callsInside_nil _⟩

def slowWrite (call len : ℕ) : ℤ := if call = 0 then (min 1 len : ℕ) else len

theorem slowWrite_le (call len : ℕ) : slowWrite call len ≤ len := by
  unfold slowWrite
  split_ifs <;> omega

def slowStart : Socket := ⟨slowWrite, slowWrite_le⟩

def slowPlatform : Platform :=
  ⟨fun _ => 0, fun _ => 0, true, fun _ => slowStart, true, []⟩

theorem printf_delivers_slow :
    (∀ text : Bytes, text.length = 4 → Delivers (printf 5 slowPlatform text).buffer 4 text
      (printf 5 slowPlatform text).calls) ↔
      if slowPlatform.malloc then Halving (tcpSocket 5 slowPlatform) 0 4 else 4 = 0 :=
  printf_delivers_iff (by decide) slowPlatform (by decide)

theorem partial_write_misplaced :
    (printf 5 slowPlatform (ascii "roof")).calls = [⟨.buffer 0, 4, 1⟩, ⟨.buffer 3, 3, 3⟩] ∧
      ¬ Delivers (printf 5 slowPlatform (ascii "roof")).buffer 4 (ascii "roof")
        (printf 5 slowPlatform (ascii "roof")).calls := by
  have hcalls : (printf 5 slowPlatform (ascii "roof")).calls =
      [⟨.buffer 0, 4, 1⟩, ⟨.buffer 3, 3, 3⟩] := by
    rw [printf_tcp (by decide)]
    have hfirst : slowStart.write 0 4 = (1 : ℕ) := rfl
    have hsecond : slowStart.write 1 3 = (3 : ℕ) := rfl
    change (sendLoop slowStart 0 0 4 0).1 = _
    rw [sendLoop_taken hfirst (by decide)]
    change _ :: (sendLoop slowStart 1 3 3 1).1 = _
    rw [sendLoop_taken hsecond (by decide), sendLoop_zero]
    rfl
  refine ⟨hcalls, fun h => ?_⟩
  have hsecond := h.inside ⟨.buffer 3, 3, 3⟩ (by rw [hcalls]; simp) 3 rfl
  exact absurd hsecond (by decide)

def storedLength (text : Bytes) : ℕ := min text.length 510

/-- A printer looks at and hands on only what `vsnprintf` stored of the text. -/
def StaysInText (text : Bytes) (p : Printed) : Prop :=
  (∀ i ∈ p.reads, i < storedLength text) ∧ CallsInside (storedLength text) p.calls

theorem transmit_calls {source : Source} (answers : List UsbAnswer) :
    ∀ c ∈ (transmit source answers).1, c.source = source ∧ c.requested = 1 := by
  induction answers with
  | nil => nofun
  | cons a answers ih =>
    rw [transmit]
    split_ifs
    · nofun
    · intro c hc
      rw [List.mem_singleton.mp hc]
      exact ⟨rfl, rfl⟩
    · intro c hc
      rcases List.mem_cons.mp hc with rfl | hc
      · exact ⟨rfl, rfl⟩
      · exact ih c hc

theorem transmit_literal_inside (limit : ℕ) (text : Bytes) (answers : List UsbAnswer) :
    CallsInside limit (transmit (.literal text) answers).1 := by
  intro c hc off hoff
  rw [(transmit_calls answers c hc).1] at hoff
  cases hoff

theorem transmit_buffer_inside {limit i : ℕ} (hi : i < limit) (answers : List UsbAnswer) :
    CallsInside limit (transmit (.buffer i) answers).1 := by
  intro c hc off hoff
  obtain ⟨hsource, hrequested⟩ := transmit_calls answers c hc
  rw [hsource] at hoff
  cases hoff
  omega

theorem callsInside_append {limit : ℕ} {xs ys : List WriteCall} (hx : CallsInside limit xs)
    (hy : CallsInside limit ys) : CallsInside limit (xs ++ ys) := by
  intro c hc
  rcases List.mem_append.mp hc with hc | hc
  · exact hx c hc
  · exact hy c hc

theorem usbLoop_inside (pbuf : Block) (n : ℕ) {i limit : ℕ} (h : i + n ≤ limit)
    (answers : List UsbAnswer) : (∀ j ∈ (usbLoop pbuf n i answers).reads, j < limit) ∧
      CallsInside limit (usbLoop pbuf n i answers).calls := by
  induction n generalizing i answers with
  | zero => exact ⟨nofun, nofun⟩
  | succ n ih =>
    have hone : ∀ j ∈ [i], j < limit := by
      intro j hj
      rw [List.mem_singleton.mp hj]
      omega
    have hnewline : CallsInside limit
        (if pbuf.byte i = 10 then transmit (.literal [13]) answers else ([], some answers)).1 := by
      split_ifs
      · exact transmit_literal_inside limit _ answers
      · exact callsInside_nil limit
    rw [usbLoop]
    dsimp only
    split
    · exact ⟨hone, hnewline⟩
    rename_i later hlater
    have hchar : CallsInside limit (transmit (.buffer i) later).1 :=
      transmit_buffer_inside (by omega) later
    split
    · exact ⟨hone, callsInside_append hnewline hchar⟩
    rename_i last hlast
    obtain ⟨hreads, hcalls⟩ := ih (i := i + 1) (by omega) last
    refine ⟨fun j hj => ?_, callsInside_append (callsInside_append hnewline hchar) hcalls⟩
    rcases List.mem_cons.mp hj with rfl | hj
    · omega
    · exact hreads j hj

def accepting (tries : ℕ) : List UsbAnswer := List.replicate tries ⟨true, 1⟩

theorem transmit_accepting (source : Source) (tries : ℕ) :
    transmit source (accepting (tries + 1)) = ([⟨source, 1, 1⟩], some (accepting tries)) := by
  simp [accepting, List.replicate_succ, transmit]

theorem usbLoop_accepting (pbuf : Block) (n i tries j : ℕ) (htries : 2 * n ≤ tries)
    (hi : i ≤ j) (hj : j < i + n) : j ∈ (usbLoop pbuf n i (accepting tries)).reads ∧
      ⟨.buffer j, 1, 1⟩ ∈ (usbLoop pbuf n i (accepting tries)).calls := by
  induction n generalizing i tries with
  | zero => omega
  | succ n ih =>
    obtain ⟨later, hlater, hnewline⟩ : ∃ later, 2 * n + 1 ≤ later ∧
        (if pbuf.byte i = 10 then transmit (.literal [13]) (accepting tries)
          else ([], some (accepting tries))).2 = some (accepting later) := by
      split_ifs
      · obtain ⟨later, rfl⟩ := Nat.exists_eq_succ_of_ne_zero (by omega : tries ≠ 0)
        exact ⟨later, by omega, by rw [transmit_accepting]⟩
      · exact ⟨tries, by omega, rfl⟩
    obtain ⟨last, rfl⟩ := Nat.exists_eq_succ_of_ne_zero (by omega : later ≠ 0)
    rw [usbLoop]
    simp only [hnewline, transmit_accepting]
    rcases Nat.eq_or_lt_of_le hi with rfl | hlt
    · exact ⟨List.mem_cons_self, by simp⟩
    · obtain ⟨hread, hcall⟩ := ih (i + 1) last (by omega) hlt (by omega)
      exact ⟨List.mem_cons_of_mem _ hread, List.mem_append_right _ hcall⟩

theorem usbVprintf_accepting (stack : ℕ → UInt8) (text : Bytes) {j : ℕ} (hj : j < text.length) :
    j ∈ (usbVprintf stack true (accepting (2 * text.length)) text).reads ∧
      ⟨.buffer j, 1, 1⟩ ∈ (usbVprintf stack true (accepting (2 * text.length)) text).calls :=
  usbLoop_accepting (textBuffer text stack) text.length 0 (2 * text.length) j le_rfl
    (Nat.zero_le j) (by omega)

theorem usb_stays_iff (stack : ℕ → UInt8) (connected : Bool) (text : Bytes) :
    (∀ answers, StaysInText text (usbVprintf stack connected answers text)) ↔
      (connected = true → text.length ≤ 510) := by
  cases connected with
  | false => exact iff_of_true (fun _ => ⟨nofun, nofun⟩) nofun
  | true =>
    constructor
    · intro h _
      by_contra hlong
      obtain ⟨hreads, -⟩ := h (accepting (2 * text.length))
      have hlt := hreads 510 (usbVprintf_accepting stack text (Nat.not_le.mp hlong)).1
      unfold storedLength at hlt
      omega
    · intro h answers
      have hstored : storedLength text = text.length := Nat.min_eq_left (h rfl)
      have hinside := usbLoop_inside (textBuffer text stack) text.length
        (by omega : 0 + text.length ≤ storedLength text) answers
      exact hinside

theorem tcp_stays_iff {ctx : UInt32} (hctx : ctx ≠ 1) (p : Platform) (text : Bytes) :
    StaysInText text (printf ctx p text) ↔ (p.malloc = true →
      text.length ≤ 510 ∧ Level (tcpSocket ctx p) 0 0 text.length) := by
  rw [printf_tcp hctx]
  cases p.malloc with
  | false => exact iff_of_true ⟨nofun, nofun⟩ nofun
  | true =>
    have hcalls : StaysInText text (if true then
        let run := sendLoop (tcpSocket ctx p) 0 0 text.length 0
        ⟨textBuffer text p.heap, [], run.1, some run.2⟩ else ⟨⟨[], p.heap⟩, [], [], some 0⟩) ↔
          CallsInside (storedLength text) (sendLoop (tcpSocket ctx p) 0 0 text.length 0).1 :=
      ⟨fun h => h.2, fun h => ⟨nofun, h⟩⟩
    rw [hcalls]
    constructor
    · intro h _
      have hshort : text.length ≤ 510 := by
        by_contra hlong
        have hfirst := first_call_inside (by omega) h
        unfold storedLength at hfirst
        omega
      have hstored : storedLength text = text.length := Nat.min_eq_left hshort
      exact ⟨hshort, level_of_inside text.length (by omega) h⟩
    · intro h
      obtain ⟨hshort, hlevel⟩ := h rfl
      have hstored : storedLength text = text.length := Nat.min_eq_left hshort
      exact sendLoop_inside_of_level hlevel (by omega) 0

/-- Both printers stay in the text exactly if it fits their buffers, on the USB port when it is
connected and on a socket, with memory for the buffer, when that keeps the pointer behind what
it accepted. -/
theorem printers_stay_iff {ctx : UInt32} (hctx : ctx ≠ 1) (p : Platform) (text : Bytes) :
    ((∀ answers, StaysInText text (usbVprintf p.stack p.connected answers text)) ∧
        StaysInText text (printf ctx p text)) ↔
      ((p.connected = true → text.length ≤ 510) ∧ (p.malloc = true →
        text.length ≤ 510 ∧ Level (tcpSocket ctx p) 0 0 text.length)) :=
  and_congr (usb_stays_iff p.stack p.connected text) (tcp_stays_iff hctx p text)

def taskList : Bytes := List.replicate 1023 120

theorem taskList_length : taskList.length = 1023 := List.length_replicate

theorem printers_stay_taskList :
    ((∀ answers, StaysInText taskList
        (usbVprintf slowPlatform.stack slowPlatform.connected answers taskList)) ∧
      StaysInText taskList (printf 5 slowPlatform taskList)) ↔
      ((slowPlatform.connected = true → taskList.length ≤ 510) ∧ (slowPlatform.malloc = true →
        taskList.length ≤ 510 ∧ Level (tcpSocket 5 slowPlatform) 0 0 taskList.length)) :=
  printers_stay_iff (by decide) slowPlatform taskList

theorem taskList_read_past :
    ⟨.buffer 1022, 1, 1⟩ ∈ (usbVprintf slowPlatform.stack true
        (accepting (2 * taskList.length)) taskList).calls ∧
      ⟨.buffer 0, 1023, 1⟩ ∈ (printf 5 slowPlatform taskList).calls ∧
      ¬ StaysInText taskList (usbVprintf slowPlatform.stack true
        (accepting (2 * taskList.length)) taskList) ∧
      ¬ StaysInText taskList (printf 5 slowPlatform taskList) := by
  have husb := (usbVprintf_accepting slowPlatform.stack taskList (j := 1022)
    (by rw [taskList_length]; decide)).2
  have htcp : ⟨.buffer 0, 1023, 1⟩ ∈ (printf 5 slowPlatform taskList).calls := by
    have hfirst : slowStart.write 0 1023 = (1 : ℕ) := rfl
    have hsend := sendLoop_taken hfirst (by decide) 0 0
    rw [printf_calls (by decide) rfl, taskList_length]
    change _ ∈ (sendLoop slowStart 0 0 1023 0).1
    rw [hsend]
    exact List.mem_cons_self
  have hstored : storedLength taskList = 510 := by
    rw [storedLength, taskList_length]
    rfl
  refine ⟨husb, htcp, fun h => ?_, fun h => ?_⟩
  · have hin := h.2 _ husb 1022 rfl
    rw [hstored] at hin
    exact absurd hin (by decide)
  · have hin := h.2 _ htcp 0 rfl
    rw [hstored] at hin
    exact absurd hin (by decide)

end MeshRoofFirmware.ConsoleOutput
