import MeshRoofFirmware.ShellConfig
import MeshRoofFirmware.NvmRoundTrip
import MeshRoofFirmware.Library.Runs

set_option autoImplicit false

/-! Two consoles that each set fields of the one main body and save it, in any order of
their steps. A refused argument or a failing call has no step: the command then does not
report success. -/
namespace MeshRoofFirmware.ConsoleInterleaving
open Library.ByteCodec Library.ByteBlock Library.CText Library.Runs NvmLayout NvsFlash NvmSave
open NvmLoad NvmRoundTrip ConfigFields ShellConfig
variable {sz : EntrySizes}

inductive Console where
  | usb
  | tcp
  deriving DecidableEq

def Console.other : Console → Console
  | .usb => .tcp
  | .tcp => .usb

/-- How far a command has come: fields still to set, the save buffer filled, its size
written, and both blobs written. -/
inductive Phase where
  | setting (left : List (Field × Bytes))
  | copied (size : ℕ) (buf : Bytes)
  | sized (buf : Bytes)
  | ok

structure State (sz : EntrySizes) where
  configuration : Configuration sz
  flash : Flash
  phase : Console → Phase

def State.to (s : State sz) (k : Console) (phase : Phase) : State sz :=
  { s with phase := Function.update s.phase k phase }

def State.hold (s : State sz) (c : Configuration sz) : State sz := { s with configuration := c }

def State.call (s : State sz) (calls : List Call) : State sz :=
  { s with flash := s.flash.after calls }

def sizeCalls (size : ℕ) : List Call := [.nvsOpen .readwrite, .nvsSetBlob .nvmMeta (metaBytes size)]

def imageCalls (buf : Bytes) : List Call := [.nvsSetBlob .meshroof buf, .nvsCommit]

section Machine
variable (inetAton : Bytes → Option UInt32)

def step (s : State sz) (k : Console) : Option (State sz) :=
  match s.phase k with
  | .setting ((f, value) :: left) =>
    let set := setField inetAton f value s.configuration.mainBody
    if set.1 then
      some ((s.hold { s.configuration with mainBody := set.2 }).to k (.setting left))
    else none
  | .setting [] =>
    let c := s.configuration.countEntries
    match fillImage c with
    | none => none
    | some buf => some ((s.hold c).to k (.copied (imageSize c) buf))
  | .copied size buf => some ((s.call (sizeCalls size)).to k (.sized buf))
  | .sized buf => some ((s.call (imageCalls buf)).to k .ok)
  | .ok => none

def start (c : Configuration sz) (flash : Flash) (settings : Console → List (Field × Bytes)) :
    State sz := ⟨c, flash, fun k => .setting (settings k)⟩

inductive Does (s : State sz) (k : Console) : State sz → Prop
  | set (f value bytes left b) (hphase : s.phase k = .setting ((f, value) :: left))
      (hvalue : encode inetAton f value = some bytes) (hfield : b.field f = bytes)
      (hframe : ∀ g, g ≠ f → b.field g = s.configuration.mainBody.field g) :
      Does s k ((s.hold { s.configuration with mainBody := b }).to k (.setting left))
  | copy (hphase : s.phase k = .setting []) (hfit : s.configuration.total < addressSpace) :
      Does s k ((s.hold s.configuration.countEntries).to k
        (.copied s.configuration.total s.configuration.countEntries.image))
  | writeSize (size buf) (hphase : s.phase k = .copied size buf) :
      Does s k ((s.call (sizeCalls size)).to k (.sized buf))
  | writeImage (buf) (hphase : s.phase k = .sized buf) :
      Does s k ((s.call (imageCalls buf)).to k .ok)

variable {inetAton}

theorem step_does {s t : State sz} {k : Console} (h : step inetAton s k = some t) :
    Does inetAton s k t := by
  unfold step at h
  cases hphase : s.phase k with
  | setting left =>
    cases left with
    | cons p left =>
      obtain ⟨f, value⟩ := p
      have hset := setField_sets inetAton f value s.configuration.mainBody
      rw [hphase] at h
      simp only [Option.ite_none_right_eq_some, Option.some.injEq] at h
      obtain ⟨haccepted, rfl⟩ := h
      cases hencode : encode inetAton f value with
      | none =>
        rw [hset.refused hencode] at haccepted
        cases haccepted
      | some bytes =>
        exact .set f value bytes left _ hphase hencode (hset.accepted bytes hencode).2 hset.frame
    | nil =>
      rw [hphase] at h
      dsimp only at h
      cases hfill : fillImage s.configuration.countEntries with
      | none =>
        rw [hfill] at h
        cases h
      | some buf =>
        have hcounted := countEntries_counted s.configuration
        have hfit := fits_of_fillImage hcounted hfill
        have himage := fillImage_of_fits hcounted hfit
        have hsize : imageSize s.configuration.countEntries = s.configuration.total :=
          (imageSize_eq hcounted).trans (sizeT_of_lt hfit)
        rw [hfill] at himage
        cases himage
        rw [hfill, hsize] at h
        cases h
        exact .copy hphase hfit
  | copied size buf =>
    rw [hphase] at h
    cases h
    exact .writeSize size buf hphase
  | sized buf =>
    rw [hphase] at h
    cases h
    exact .writeImage buf hphase
  | ok =>
    rw [hphase] at h
    cases h

@[simp] theorem to_phase_self (s : State sz) (k : Console) (phase : Phase) :
    (s.to k phase).phase k = phase := Function.update_self _ _ _

theorem to_phase_other (s : State sz) {k j : Console} (phase : Phase) (h : j ≠ k) :
    (s.to k phase).phase j = s.phase j := Function.update_of_ne h _ _

theorem does_other {s t : State sz} {k j : Console} (h : Does inetAton s k t) (hj : j ≠ k) :
    t.phase j = s.phase j := by
  cases h <;> exact to_phase_other _ _ hj

def Distinct (settings : Console → List (Field × Bytes)) : Prop :=
  (∀ k, ((settings k).map Prod.fst).Nodup) ∧
    ∀ p ∈ settings .usb, ∀ q ∈ settings .tcp, p.1 ≠ q.1

theorem distinct_other {settings : Console → List (Field × Bytes)} (h : Distinct settings)
    {k j : Console} (hj : j ≠ k) {p q : Field × Bytes} (hp : p ∈ settings j)
    (hq : q ∈ settings k) : p.1 ≠ q.1 := by
  cases j <;> cases k
  · exact absurd rfl hj
  · exact h.2 p hp q hq
  · exact (h.2 q hq p hp).symm
  · exact absurd rfl hj

variable (inetAton) in
structure Progress (c : Configuration sz) (settings : Console → List (Field × Bytes))
    (done : List Console) (s : State sz) : Prop where
  setting : ∀ k, done.count k ≤ (settings k).length →
    s.phase k = .setting ((settings k).drop (done.count k))
  past : ∀ k, (settings k).length < done.count k → ∀ left, s.phase k ≠ .setting left
  taken : ∀ k, ∀ p ∈ (settings k).take (done.count k),
    encode inetAton p.1 p.2 = some (s.configuration.mainBody.field p.1)
  frame : ∀ f, (∀ k, ∀ p ∈ (settings k).take (done.count k), p.1 ≠ f) →
    s.configuration.mainBody.field f = c.mainBody.field f

theorem count_step (done : List Console) (k j : Console) :
    (done ++ [k]).count j = if j = k then done.count j + 1 else done.count j := by
  rw [List.count_append, List.count_singleton]
  by_cases hj : j = k
  · simp [hj]
  · have hkj : ¬ k = j := fun e => hj e.symm
    simp [hj, hkj]

theorem Progress.remaining {c : Configuration sz} {settings : Console → List (Field × Bytes)}
    {done : List Console} {s : State sz} (h : Progress inetAton c settings done s) {k : Console}
    {left : List (Field × Bytes)} (hphase : s.phase k = .setting left) :
    done.count k ≤ (settings k).length ∧ (settings k).drop (done.count k) = left := by
  by_cases hle : done.count k ≤ (settings k).length
  · have hsetting := h.setting k hle
    rw [hphase] at hsetting
    cases hsetting
    exact ⟨hle, rfl⟩
  · exact absurd hphase (h.past k (Nat.not_le.mp hle) left)

theorem Progress.advance {c : Configuration sz} {settings : Console → List (Field × Bytes)}
    {done : List Console} {s t : State sz} (h : Progress inetAton c settings done s) {k : Console}
    (hpast : (settings k).length ≤ done.count k) (hphase : ∀ left, t.phase k ≠ .setting left)
    (hother : ∀ j, j ≠ k → t.phase j = s.phase j)
    (hfield : ∀ f, t.configuration.mainBody.field f = s.configuration.mainBody.field f) :
    Progress inetAton c settings (done ++ [k]) t := by
  have htake : ∀ j, (settings j).take ((done ++ [k]).count j) =
      (settings j).take (done.count j) := by
    intro j
    rw [count_step]
    split_ifs with hj
    · subst hj
      rw [List.take_of_length_le hpast, List.take_of_length_le (by omega)]
    · rfl
  constructor
  · intro j hle
    rw [count_step] at hle ⊢
    split_ifs with hj
    · rw [if_pos hj] at hle
      subst hj
      omega
    · rw [if_neg hj] at hle
      rw [hother j hj]
      exact h.setting j hle
  · intro j hlt left
    rw [count_step] at hlt
    by_cases hj : j = k
    · rw [hj]
      exact hphase left
    · rw [if_neg hj] at hlt
      rw [hother j hj]
      exact h.past j hlt left
  · intro j p hp
    rw [htake] at hp
    rw [hfield]
    exact h.taken j p hp
  · intro f hf
    rw [hfield]
    exact h.frame f (fun j p hp => hf j p (by rwa [htake]))

theorem progress_set {c : Configuration sz} {settings : Console → List (Field × Bytes)}
    {done : List Console} {s : State sz} (hdistinct : Distinct settings)
    (h : Progress inetAton c settings done s) {k : Console} {f : Field} {value bytes : Bytes}
    {left : List (Field × Bytes)} {b : NvmMainBody}
    (hphase : s.phase k = .setting ((f, value) :: left))
    (hvalue : encode inetAton f value = some bytes) (hfield : b.field f = bytes)
    (hframe : ∀ g, g ≠ f → b.field g = s.configuration.mainBody.field g) :
    Progress inetAton c settings (done ++ [k])
      ((s.hold { s.configuration with mainBody := b }).to k (.setting left)) := by
  obtain ⟨-, hdrop⟩ := h.remaining hphase
  have hsplit : settings k = (settings k).take (done.count k) ++ (f, value) :: left := by
    rw [← hdrop, List.take_append_drop]
  have hlt : done.count k < (settings k).length := by
    have hlen := congrArg List.length hdrop
    rw [List.length_drop, List.length_cons] at hlen
    omega
  have htake : (settings k).take (done.count k + 1) =
      (settings k).take (done.count k) ++ [(f, value)] := by
    rw [List.take_add_one, ← List.head?_drop, hdrop]
    rfl
  have hmem : (f, value) ∈ settings k := by
    rw [hsplit]
    simp
  -- the field set now was set neither earlier by this command nor by the other one
  have hfresh : ∀ j, ∀ p ∈ (settings j).take (done.count j), p.1 ≠ f := by
    intro j p hp
    by_cases hj : j = k
    · subst hj
      have hnodup := hdistinct.1 j
      rw [hsplit, List.map_append, List.nodup_append] at hnodup
      exact hnodup.2.2 p.1 (List.mem_map_of_mem hp) f (by simp)
    · exact distinct_other hdistinct hj (List.mem_of_mem_take hp) hmem
  constructor
  · intro j hle
    rw [count_step] at hle ⊢
    split_ifs with hj
    · subst hj
      rw [to_phase_self, ← List.drop_drop, hdrop]
      rfl
    · rw [if_neg hj] at hle
      rw [to_phase_other _ _ hj]
      exact h.setting j hle
  · intro j hgt later
    rw [count_step] at hgt
    by_cases hj : j = k
    · rw [if_pos hj, hj] at hgt
      omega
    · rw [if_neg hj] at hgt
      rw [to_phase_other _ _ hj]
      exact h.past j hgt later
  · intro j p hp
    rw [count_step] at hp
    change encode inetAton p.1 p.2 = some (b.field p.1)
    have hold : p ∈ (settings j).take (done.count j) →
        encode inetAton p.1 p.2 = some (b.field p.1) := by
      intro hp
      rw [hframe p.1 (hfresh j p hp)]
      exact h.taken j p hp
    by_cases hj : j = k
    · subst hj
      rw [if_pos rfl, htake, List.mem_append, List.mem_singleton] at hp
      rcases hp with hp | rfl
      · exact hold hp
      · rw [hvalue, hfield]
    · rw [if_neg hj] at hp
      exact hold hp
  · intro g hg
    change b.field g = c.mainBody.field g
    have hne : g ≠ f := by
      have hk := hg k (f, value)
      rw [count_step, if_pos rfl, htake] at hk
      exact (hk (by simp)).symm
    rw [hframe g hne]
    refine h.frame g (fun j p hp => hg j p ?_)
    rw [count_step]
    split_ifs with hj
    · subst hj
      rw [htake]
      exact List.mem_append_left _ hp
    · exact hp

theorem progress_step {c : Configuration sz} {settings : Console → List (Field × Bytes)}
    {done : List Console} {s t : State sz} {k : Console} (hdistinct : Distinct settings)
    (h : Progress inetAton c settings done s) (hdoes : Does inetAton s k t) :
    Progress inetAton c settings (done ++ [k]) t := by
  have hother := fun j (hj : j ≠ k) => does_other hdoes hj
  have hlate : (∀ left, s.phase k ≠ .setting left) → (settings k).length ≤ done.count k := by
    intro hno
    by_contra hgt
    exact hno _ (h.setting k (by omega))
  cases hdoes with
  | set f value bytes left b hphase hvalue hfield hframe =>
    exact progress_set hdistinct h hphase hvalue hfield hframe
  | copy hphase =>
    obtain ⟨-, hdrop⟩ := h.remaining hphase
    refine h.advance (List.drop_eq_nil_iff.mp hdrop) ?_ hother (countEntries_field _)
    rw [to_phase_self]
    nofun
  | writeSize size buf hphase =>
    refine h.advance (hlate ?_) ?_ hother (fun _ => rfl)
    · rw [hphase]
      nofun
    · rw [to_phase_self]
      nofun
  | writeImage buf hphase =>
    refine h.advance (hlate ?_) ?_ hother (fun _ => rfl)
    · rw [hphase]
      nofun
    · rw [to_phase_self]
      nofun

theorem progress_run {c : Configuration sz} {flash : Flash}
    {settings : Console → List (Field × Bytes)} (hdistinct : Distinct settings)
    {done : List Console} {s : State sz}
    (hrun : run (step inetAton) (start c flash settings) done = some s) :
    Progress inetAton c settings done s := by
  have hstart : Progress inetAton c settings [] (start c flash settings) :=
    ⟨fun _ _ => rfl, fun k h => absurd h (Nat.not_lt_zero _), fun k p hp => by simp at hp,
      fun _ _ => rfl⟩
  exact run_history (fun done s k t h ht => progress_step hdistinct h (step_does ht)) hstart hrun

/-- The vectors keep their lengths, so every size under way or in flash is the same one. -/
structure OneSize (total : ℕ) (s : State sz) : Prop where
  current : s.configuration.total = total
  copied : ∀ k size buf, s.phase k = .copied size buf → size = total
  sized : ∀ k, (∀ left, s.phase k ≠ .setting left) → (∀ size buf, s.phase k ≠ .copied size buf) →
    s.flash.created = true ∧ s.flash.blobs .nvmMeta = some (metaBytes total)

theorem oneSize_step {total : ℕ} {s t : State sz} {k : Console} (h : OneSize total s)
    (hdoes : Does inetAton s k t) : OneSize total t := by
  have hother := fun j (hj : j ≠ k) => does_other hdoes hj
  have hcopied : (∀ size buf, t.phase k = .copied size buf → size = total) →
      ∀ j size buf, t.phase j = .copied size buf → size = total := by
    intro hk j size buf hj
    by_cases hjk : j = k
    · subst hjk
      exact hk size buf hj
    · rw [hother j hjk] at hj
      exact h.copied j size buf hj
  have hsized : ((∃ left, t.phase k = .setting left) ∨ ∃ size buf, t.phase k = .copied size buf) →
      t.flash = s.flash → ∀ j, (∀ left, t.phase j ≠ .setting left) →
        (∀ size buf, t.phase j ≠ .copied size buf) →
          t.flash.created = true ∧ t.flash.blobs .nvmMeta = some (metaBytes total) := by
    intro hk hflash j hset hcopy
    by_cases hjk : j = k
    · subst hjk
      rcases hk with ⟨left, hk⟩ | ⟨size, buf, hk⟩
      · exact absurd hk (hset left)
      · exact absurd hk (hcopy size buf)
    · rw [hother j hjk] at hset hcopy
      rw [hflash]
      exact h.sized j hset hcopy
  cases hdoes with
  | set f value bytes left b hphase hvalue hfield hframe =>
    have hk := to_phase_self (s.hold { s.configuration with mainBody := b }) k (.setting left)
    exact ⟨h.current, hcopied (by rw [hk]; nofun), hsized (Or.inl ⟨left, hk⟩) rfl⟩
  | copy hphase =>
    have hk := to_phase_self (s.hold s.configuration.countEntries) k
      (.copied s.configuration.total s.configuration.countEntries.image)
    refine ⟨h.current, hcopied ?_, hsized (Or.inr ⟨_, _, hk⟩) rfl⟩
    intro size buf hbuf
    rw [hk] at hbuf
    cases hbuf
    exact h.current
  | writeSize size buf hphase =>
    have hk := to_phase_self (s.call (sizeCalls size)) k (.sized buf)
    have hsize : size = total := h.copied k size buf hphase
    refine ⟨h.current, hcopied (by rw [hk]; nofun), fun _ _ _ => ?_⟩
    rw [← hsize]
    exact ⟨rfl, rfl⟩
  | writeImage buf hphase =>
    have hk := to_phase_self (s.call (imageCalls buf)) k .ok
    obtain ⟨hcreated, hmeta⟩ := h.sized k (by rw [hphase]; nofun) (by rw [hphase]; nofun)
    exact ⟨h.current, hcopied (by rw [hk]; nofun), fun _ _ _ => ⟨hcreated, hmeta⟩⟩

theorem oneSize_run {c : Configuration sz} {flash : Flash}
    {settings : Console → List (Field × Bytes)} {done : List Console} {s : State sz}
    (hrun : run (step inetAton) (start c flash settings) done = some s) :
    OneSize c.total s := by
  have hstart : OneSize c.total (start c flash settings) :=
    ⟨rfl, nofun, fun k hset => absurd rfl (hset (settings k))⟩
  exact run_invariant (fun s k t h ht => oneSize_step h (step_does ht)) hstart hrun

structure Carries (k : Console) (image : Bytes) (s : State sz) : Prop where
  past : ∀ left, s.phase k ≠ .setting left
  copied : ∀ size buf, s.phase k = .copied size buf → buf = image
  sized : ∀ buf, s.phase k = .sized buf → buf = image

theorem carries_step {k : Console} {image : Bytes} {s t : State sz} {j : Console}
    (h : Carries k image s) (hdoes : Does inetAton s j t) : Carries k image t := by
  by_cases hkj : k = j
  · subst hkj
    cases hdoes with
    | set f value bytes left b hphase => exact absurd hphase (h.past _)
    | copy hphase => exact absurd hphase (h.past _)
    | writeSize size buf hphase =>
      have hbuf := h.copied size buf hphase
      refine ⟨?_, ?_, ?_⟩
      · rw [to_phase_self]
        nofun
      · rw [to_phase_self]
        nofun
      · intro b hb
        rw [to_phase_self] at hb
        cases hb
        exact hbuf
    | writeImage buf hphase =>
      refine ⟨?_, ?_, ?_⟩ <;> rw [to_phase_self] <;> nofun
  · have hsame := does_other hdoes hkj
    exact ⟨hsame ▸ h.past, hsame ▸ h.copied, hsame ▸ h.sized⟩

theorem stored_image {s : State sz} {k : Console} {snapshot : Configuration sz}
    (hsize : OneSize snapshot.total s) (hfit : snapshot.total < addressSpace)
    (hphase : s.phase k = .sized snapshot.countEntries.image) :
    Stored (s.call (imageCalls snapshot.countEntries.image)).flash snapshot.total
      snapshot.countEntries := by
  obtain ⟨hcreated, hmeta⟩ := hsize.sized k (by rw [hphase]; nofun) (by rw [hphase]; nofun)
  exact ⟨hcreated, hmeta, rfl, countEntries_counted snapshot, hfit⟩

/-- Flash ends with the configuration that the console writing last has copied. -/
theorem final_stored {c : Configuration sz} {flash : Flash}
    {settings : Console → List (Field × Bytes)} (hdistinct : Distinct settings)
    {before later : List Console} {k : Console} {s : State sz}
    (hrun : run (step inetAton) (start c flash settings) (before ++ k :: later) = some s)
    (hcopy : before.count k = (settings k).length)
    (hlast : (before ++ k :: later).getLast? = some k) (hok : s.phase k = .ok) :
    ∃ u, run (step inetAton) (start c flash settings) before = some u ∧
      Stored s.flash c.total u.configuration.countEntries := by
  obtain ⟨u, hu, hrest⟩ := run_append_iff.mp hrun
  refine ⟨u, hu, ?_⟩
  obtain ⟨v, hv, htail⟩ := run_cons_iff.mp hrest
  have hsetting : u.phase k = .setting [] := by
    have h := (progress_run hdistinct hu).setting k hcopy.le
    rwa [hcopy, List.drop_length] at h
  have htotal := (oneSize_run hu).current
  have hcopied : v = (u.hold u.configuration.countEntries).to k
      (.copied u.configuration.total u.configuration.countEntries.image) ∧
        u.configuration.total < addressSpace := by
    cases step_does hv with
    | set f value bytes left b hphase =>
      rw [hsetting] at hphase
      cases hphase
    | copy hphase hfit => exact ⟨rfl, hfit⟩
    | writeSize size buf hphase =>
      rw [hsetting] at hphase
      cases hphase
    | writeImage buf hphase =>
      rw [hsetting] at hphase
      cases hphase
  obtain ⟨rfl, hfit⟩ := hcopied
  rcases List.eq_nil_or_concat later with rfl | ⟨mid, j, rfl⟩
  · cases htail
    rw [to_phase_self] at hok
    cases hok
  have hjk : j = k := by
    have hsplit : before ++ k :: mid.concat j = (before ++ k :: mid) ++ [j] := by simp
    rw [hsplit, List.getLast?_concat] at hlast
    exact Option.some.inj hlast
  subst hjk
  rw [List.concat_eq_append] at htail
  obtain ⟨w, hw, hend⟩ := run_append_iff.mp htail
  obtain ⟨t, ht, hnil⟩ := run_cons_iff.mp hend
  cases hnil
  have hcarries : Carries j u.configuration.countEntries.image w := by
    refine run_invariant (fun s i t h ht => carries_step h (step_does ht)) ?_ hw
    refine ⟨?_, ?_, ?_⟩
    · rw [to_phase_self]
      nofun
    · intro size buf hbuf
      rw [to_phase_self] at hbuf
      cases hbuf
      rfl
    · rw [to_phase_self]
      nofun
  have hreach : run (step inetAton) (start c flash settings) (before ++ j :: mid) = some w :=
    run_append_iff.mpr ⟨u, hu, run_cons_iff.mpr ⟨_, hv, hw⟩⟩
  have hsize : OneSize u.configuration.total w := by
    rw [htotal]
    exact oneSize_run hreach
  cases step_does ht with
  | set f value bytes left b hphase => exact absurd hphase (hcarries.past _)
  | copy hphase => exact absurd hphase (hcarries.past _)
  | writeSize size buf hphase =>
    rw [to_phase_self] at hok
    cases hok
  | writeImage buf hphase =>
    have hbuf := hcarries.sized buf hphase
    subst hbuf
    rw [← htotal]
    exact stored_image hsize hfit hphase

variable (inetAton) in
def Holds (c : Configuration sz) (settings : List (Field × Bytes)) : Prop :=
  ∀ p ∈ settings, encode inetAton p.1 p.2 = some (c.mainBody.field p.1)

variable (inetAton) in
/-- A load finds the updates of both commands. -/
def BothKept (sz : EntrySizes) (g : Garbage) (settings : Console → List (Field × Bytes))
    (flash : Flash) : Prop :=
  let load := loadNvm g .none flash (freshConfiguration sz)
  load.result = true ∧ ∀ k, Holds inetAton load.configuration (settings k)

variable (inetAton) in
/-- What the other console has not set when the console that writes last copies was there
from the start. -/
def InTime (c : Configuration sz) (settings : Console → List (Field × Bytes))
    (schedule : List Console) : Prop :=
  ∀ before k later, schedule = before ++ k :: later → before.count k = (settings k).length →
    schedule.getLast? = some k →
      Holds inetAton c ((settings k.other).drop (before.count k.other))

theorem eq_other {k j : Console} (h : j ≠ k) : j = k.other := by
  cases k <;> cases j <;> first | rfl | exact absurd rfl h

theorem late_field {c : Configuration sz} {settings : Console → List (Field × Bytes)}
    {before : List Console} {u : State sz} (hdistinct : Distinct settings)
    (h : Progress inetAton c settings before u) {k : Console} {p : Field × Bytes}
    (hp : p ∈ (settings k).drop (before.count k)) :
    u.configuration.mainBody.field p.1 = c.mainBody.field p.1 := by
  apply h.frame
  intro j q hq
  by_cases hj : j = k
  · subst hj
    have hnodup := hdistinct.1 j
    rw [← List.take_append_drop (before.count j) (settings j), List.map_append,
      List.nodup_append] at hnodup
    exact hnodup.2.2 q.1 (List.mem_map_of_mem hq) p.1 (List.mem_map_of_mem hp)
  · exact distinct_other hdistinct hj (List.mem_of_mem_take hq) (List.mem_of_mem_drop hp)

theorem kept_at_iff {c : Configuration sz} {flash : Flash}
    {settings : Console → List (Field × Bytes)} (hdistinct : Distinct settings)
    {before later : List Console} {k : Console} {s : State sz}
    (hrun : run (step inetAton) (start c flash settings) (before ++ k :: later) = some s)
    (hcopy : before.count k = (settings k).length)
    (hlast : (before ++ k :: later).getLast? = some k) (hok : s.phase k = .ok) (g : Garbage) :
    BothKept inetAton sz g settings s.flash ↔ c.total ≤ flashTargetSize ∧
      Holds inetAton c ((settings k.other).drop (before.count k.other)) := by
  obtain ⟨u, hu, hstored⟩ := final_stored hdistinct hrun hcopy hlast hok
  have hprogress := progress_run hdistinct hu
  have htotal : u.configuration.countEntries.total = c.total := (oneSize_run hu).current
  by_cases hfit : c.total ≤ flashTargetSize
  swap
  · refine iff_of_false (fun h => ?_) (fun h => hfit h.1)
    have hbig : flashTargetSize < u.configuration.countEntries.total := by omega
    have hno := load_stored_tooBig hstored hbig g htotal.le (freshConfiguration sz)
    rw [h.1] at hno
    cases hno
  obtain ⟨hresult, hload⟩ := load_stored hstored (htotal ▸ hfit) htotal.le g (freshConfiguration sz)
  rw [BothKept, hload]
  constructor
  · rintro ⟨-, hkept⟩
    refine ⟨hfit, fun p hp => ?_⟩
    rw [← late_field hdistinct hprogress hp, ← countEntries_field]
    exact hkept k.other p (List.mem_of_mem_drop hp)
  · rintro ⟨-, hholds⟩
    refine ⟨hresult, fun j p hp => ?_⟩
    rw [countEntries_field]
    by_cases hj : j = k
    · subst hj
      apply hprogress.taken j p
      rwa [hcopy, List.take_length]
    · rw [eq_other hj] at hp
      rw [← List.take_append_drop (before.count k.other) (settings k.other),
        List.mem_append] at hp
      rcases hp with hp | hp
      · exact hprogress.taken k.other p hp
      · rw [late_field hdistinct hprogress hp]
        exact hholds p hp

theorem exists_copy {k : Console} {n : ℕ} {schedule : List Console} (h : n < schedule.count k) :
    ∃ before later, schedule = before ++ k :: later ∧ before.count k = n := by
  induction schedule generalizing n with
  | nil => simp at h
  | cons j schedule ih =>
    by_cases hjk : j = k
    · subst hjk
      cases n with
      | zero => exact ⟨[], schedule, rfl, rfl⟩
      | succ n =>
        rw [List.count_cons_self] at h
        obtain ⟨before, later, rfl, hcount⟩ := ih (Nat.lt_of_succ_lt_succ h)
        exact ⟨j :: before, later, rfl, by rw [List.count_cons_self, hcount]⟩
    · rw [List.count_cons_of_ne hjk] at h
      obtain ⟨before, later, rfl, hcount⟩ := ih h
      exact ⟨j :: before, later, rfl, by rw [List.count_cons_of_ne hjk, hcount]⟩

/-- Two saves that both go through leave both updates in flash exactly if the console that
writes last copied after the other had set its fields. -/
theorem both_kept_iff {c : Configuration sz} {flash : Flash}
    {settings : Console → List (Field × Bytes)} (hdistinct : Distinct settings)
    {schedule : List Console} {s : State sz}
    (hrun : run (step inetAton) (start c flash settings) schedule = some s)
    (hok : ∀ k, s.phase k = .ok) (g : Garbage) :
    BothKept inetAton sz g settings s.flash ↔
      c.total ≤ flashTargetSize ∧ InTime inetAton c settings schedule := by
  have hprogress := progress_run hdistinct hrun
  have hcount : ∀ k, (settings k).length < schedule.count k := by
    intro k
    by_contra hle
    have hsetting := hprogress.setting k (Nat.not_lt.mp hle)
    rw [hok k] at hsetting
    cases hsetting
  obtain ⟨k, hlast⟩ : ∃ k, schedule.getLast? = some k := by
    apply Option.ne_none_iff_exists'.mp
    intro hnone
    have hempty := hcount .usb
    rw [List.getLast?_eq_none_iff.mp hnone] at hempty
    exact absurd hempty (Nat.not_lt_zero _)
  constructor
  · intro h
    have hat : ∀ before k later, schedule = before ++ k :: later →
        before.count k = (settings k).length → schedule.getLast? = some k →
          c.total ≤ flashTargetSize ∧
            Holds inetAton c ((settings k.other).drop (before.count k.other)) := by
      intro before k later hsplit hcopy hlast
      subst hsplit
      exact (kept_at_iff hdistinct hrun hcopy hlast (hok k) g).mp h
    obtain ⟨before, later, hsplit, hcopy⟩ := exists_copy (hcount k)
    exact ⟨(hat before k later hsplit hcopy hlast).1,
      fun before k later hsplit hcopy hlast => (hat before k later hsplit hcopy hlast).2⟩
  · rintro ⟨hfit, htime⟩
    obtain ⟨before, later, rfl, hcopy⟩ := exists_copy (hcount k)
    exact (kept_at_iff hdistinct hrun hcopy hlast (hok k) g).mpr
      ⟨hfit, htime before k later rfl hcopy hlast⟩

def Phase.left : Phase → ℕ
  | .setting left => left.length + 3
  | .copied _ _ => 2
  | .sized _ => 1
  | .ok => 0

variable (inetAton) in
/-- Nothing a console still sets will be refused, and the image fits the address space. -/
structure Ready (s : State sz) : Prop where
  accepted : ∀ k left, s.phase k = .setting left → AllTaken inetAton left
  fits : s.configuration.total < addressSpace

theorem ready_to {s t : State sz} {k : Console} {phase : Phase} (h : Ready inetAton s)
    (hphases : t.phase = s.phase) (htotal : t.configuration.total = s.configuration.total)
    (hphase : ∀ left, phase = .setting left → AllTaken inetAton left) :
    Ready inetAton (t.to k phase) := by
  refine ⟨?_, htotal ▸ h.fits⟩
  intro j left hj
  by_cases hjk : j = k
  · subst hjk
    rw [to_phase_self] at hj
    exact hphase left hj
  · rw [to_phase_other _ _ hjk, hphases] at hj
    exact h.accepted j left hj

theorem step_setting {s : State sz} {k : Console} {f : Field} {value : Bytes}
    {left : List (Field × Bytes)} (hphase : s.phase k = .setting ((f, value) :: left))
    (haccepted : (setField inetAton f value s.configuration.mainBody).1 = true) :
    step inetAton s k = some ((s.hold { s.configuration with
      mainBody := (setField inetAton f value s.configuration.mainBody).2 }).to k
        (.setting left)) := by
  rw [step, hphase]
  exact if_pos haccepted

theorem step_copy {s : State sz} {k : Console} (hphase : s.phase k = .setting [])
    (hfit : s.configuration.total < addressSpace) :
    step inetAton s k = some ((s.hold s.configuration.countEntries).to k
      (.copied s.configuration.total s.configuration.countEntries.image)) := by
  have hcounted := countEntries_counted s.configuration
  have himage := fillImage_of_fits hcounted (c := s.configuration.countEntries) hfit
  have hsize : imageSize s.configuration.countEntries = s.configuration.total :=
    (imageSize_eq hcounted).trans (sizeT_of_lt hfit)
  rw [step, hphase]
  simp only [himage, hsize]

theorem step_ready {s : State sz} {k : Console} {n : ℕ} (h : Ready inetAton s)
    (hleft : (s.phase k).left = n + 1) :
    ∃ t, step inetAton s k = some t ∧ Ready inetAton t ∧ (t.phase k).left = n ∧
      ∀ j, j ≠ k → t.phase j = s.phase j := by
  cases hphase : s.phase k with
  | setting left =>
    rw [hphase] at hleft
    cases left with
    | cons p left =>
      obtain ⟨f, value⟩ := p
      have hall := h.accepted k _ hphase
      have hset := setField_sets inetAton f value s.configuration.mainBody
      obtain ⟨bytes, hbytes⟩ := Option.ne_none_iff_exists'.mp (hall (f, value) List.mem_cons_self)
      refine ⟨_, step_setting hphase (hset.accepted bytes hbytes).1, ?_, ?_, ?_⟩
      · refine ready_to h rfl rfl ?_
        intro later hlater
        cases hlater
        exact fun q hq => hall q (List.mem_cons_of_mem _ hq)
      · rw [to_phase_self]
        exact Nat.succ.inj hleft
      · exact fun j hj => to_phase_other _ _ hj
    | nil =>
      refine ⟨_, step_copy hphase h.fits, ready_to h rfl rfl nofun, ?_, ?_⟩
      · rw [to_phase_self]
        exact Nat.succ.inj hleft
      · exact fun j hj => to_phase_other _ _ hj
  | copied size buf =>
    rw [hphase] at hleft
    refine ⟨(s.call (sizeCalls size)).to k (.sized buf), by rw [step, hphase],
      ready_to h rfl rfl nofun, ?_, fun j hj => to_phase_other _ _ hj⟩
    rw [to_phase_self]
    exact Nat.succ.inj hleft
  | sized buf =>
    rw [hphase] at hleft
    refine ⟨(s.call (imageCalls buf)).to k .ok, by rw [step, hphase],
      ready_to h rfl rfl nofun, ?_, fun j hj => to_phase_other _ _ hj⟩
    rw [to_phase_self]
    exact Nat.succ.inj hleft
  | ok =>
    rw [hphase] at hleft
    cases hleft

theorem run_completes {s : State sz} {schedule : List Console} (h : Ready inetAton s)
    (hcount : ∀ k, schedule.count k = (s.phase k).left) :
    ∃ t, run (step inetAton) s schedule = some t ∧ ∀ k, t.phase k = .ok := by
  induction schedule generalizing s with
  | nil =>
    refine ⟨s, rfl, fun k => ?_⟩
    have hleft := hcount k
    rw [List.count_nil] at hleft
    cases hphase : s.phase k with
    | ok => rfl
    | _ => rw [hphase] at hleft; cases hleft
  | cons k schedule ih =>
    have hk := hcount k
    rw [List.count_cons_self] at hk
    obtain ⟨t, hstep, hready, hleft, hother⟩ := step_ready h hk.symm
    obtain ⟨u, hrun, hok⟩ := ih hready (fun j => by
      by_cases hj : j = k
      · rw [hj, hleft]
      · rw [hother j hj, ← hcount j, List.count_cons_of_ne (fun e => hj e.symm)])
    exact ⟨u, run_cons_iff.mpr ⟨t, hstep, hrun⟩, hok⟩

theorem run_setting {s : State sz} {k : Console} {left : List (Field × Bytes)}
    (hphase : s.phase k = .setting left) (hall : AllTaken inetAton left) :
    run (step inetAton) s (List.replicate left.length k) = some ((s.hold { s.configuration with
      mainBody := (setAll (settersOf inetAton left) s.configuration.mainBody).2 }).to k
        (.setting [])) := by
  induction left generalizing s with
  | nil =>
    have hsame : Function.update s.phase k (.setting []) = s.phase := by
      rw [← hphase, Function.update_eq_self]
    change some s = some ⟨s.configuration, s.flash, Function.update s.phase k (.setting [])⟩
    rw [hsame]
  | cons p left ih =>
    obtain ⟨f, value⟩ := p
    obtain ⟨bytes, hbytes⟩ := Option.ne_none_iff_exists'.mp (hall (f, value) List.mem_cons_self)
    have haccepted := ((setField_sets inetAton f value s.configuration.mainBody).accepted bytes
      hbytes).1
    have hrest : AllTaken inetAton left := fun q hq => hall q (List.mem_cons_of_mem _ hq)
    have hset : setAll (settersOf inetAton ((f, value) :: left)) s.configuration.mainBody =
        setAll (settersOf inetAton left)
          (setField inetAton f value s.configuration.mainBody).2 := if_pos haccepted
    rw [List.length_cons, List.replicate_succ, run_cons (step_setting hphase haccepted),
      ih (to_phase_self _ _ _) hrest, hset]
    simp only [State.to, State.hold, Function.update_idem]

/-- Without the other console the steps of a command are the command. -/
theorem run_alone (report : Report) {c : Configuration sz} (flash : Flash)
    {settings : Console → List (Field × Bytes)} {k : Console}
    (hall : AllTaken inetAton (settings k)) (hfit : c.total < addressSpace) :
    let r := setAndSave report .none c (settersOf inetAton (settings k))
    ∃ s, run (step inetAton) (start c flash settings)
        (List.replicate (settings k).length k ++ [k, k, k]) = some s ∧ s.phase k = .ok ∧
      r.printed = [okText] ∧ s.configuration = r.configuration ∧
        s.flash = flash.after r.calls := by
  have haccepted := (setAll_fst inetAton (settings k) c.mainBody).mpr hall
  have hset := run_setting (s := start c flash settings) rfl hall
  let done : Configuration sz :=
    { c with mainBody := (setAll (settersOf inetAton (settings k)) c.mainBody).2 }
  have hdone : done.total < addressSpace := hfit
  have hr : setAndSave report .none c (settersOf inetAton (settings k)) =
      ⟨0, [okText], done.countEntries, (saveNvm .none done).calls, report.onOk⟩ := by
    rw [setAndSave]
    dsimp only
    rw [if_pos haccepted, saveNvm_none hdone]
    rfl
  let before := ((start c flash settings).hold done).to k (.setting [])
  let copied := (before.hold done.countEntries).to k
    (.copied done.total done.countEntries.image)
  let sized := (copied.call (sizeCalls done.total)).to k (.sized done.countEntries.image)
  have hcopy : step inetAton before k = some copied := step_copy (to_phase_self _ _ _) hdone
  have hsize : step inetAton copied k = some sized := by
    rw [step, to_phase_self]
  have himage : step inetAton sized k =
      some ((sized.call (imageCalls done.countEntries.image)).to k .ok) := by
    rw [step, to_phase_self]
  intro r
  refine ⟨(sized.call (imageCalls done.countEntries.image)).to k .ok, ?_, to_phase_self _ _ _,
    ?_, ?_, ?_⟩
  · refine run_append_iff.mpr ⟨before, hset, ?_⟩
    rw [run_cons hcopy, run_cons hsize, run_cons himage]
    rfl
  · rw [show r = _ from hr]
  · rw [show r = _ from hr]
    rfl
  · rw [show r = _ from hr, saveNvm_none hdone]
    rfl

end Machine

def ssidAndDns : Console → List (Field × Bytes)
  | .usb => [(.wifiSsid, ascii "roof")]
  | .tcp => [(.dns1, ascii "10.0.0.1")]

theorem ssidAndDns_distinct : Distinct ssidAndDns := by
  refine ⟨?_, by decide⟩
  intro k
  cases k <;> decide

theorem ssidAndDns_ready :
    Ready oneAddress (start (freshConfiguration sampleSizes) blankFlash ssidAndDns) := by
  constructor
  · intro k left h
    cases h
    cases k <;> intro p hp <;> cases List.mem_singleton.mp hp <;> decide
  · change (freshConfiguration sampleSizes).total < addressSpace
    rw [fresh_total]
    decide

theorem both_kept_in_turn :
    let turns := List.replicate 4 Console.usb ++ List.replicate 4 Console.tcp
    ∃ s, run (step oneAddress) (start (freshConfiguration sampleSizes) blankFlash ssidAndDns)
        turns = some s ∧
      (BothKept oneAddress sampleSizes zeroGarbage ssidAndDns s.flash ↔
        (freshConfiguration sampleSizes).total ≤ flashTargetSize ∧
          InTime oneAddress (freshConfiguration sampleSizes) ssidAndDns turns) := by
  intro turns
  have hcount : ∀ k, turns.count k = ((start (freshConfiguration sampleSizes) blankFlash
      ssidAndDns).phase k).left := by
    intro k
    cases k <;> rfl
  obtain ⟨s, hrun, hok⟩ := run_completes ssidAndDns_ready hcount
  exact ⟨s, hrun, both_kept_iff ssidAndDns_distinct hrun hok zeroGarbage⟩

/-- The USB console copies, the TCP console sets and saves, the USB console writes its copy:
both report success and the name server is lost. -/
theorem dns_lost :
    let schedule := [Console.usb, .usb, .tcp, .tcp, .tcp, .tcp, .usb, .usb]
    ∃ s, run (step oneAddress) (start (freshConfiguration sampleSizes) blankFlash ssidAndDns)
        schedule = some s ∧ (∀ k, s.phase k = .ok) ∧ Distinct ssidAndDns ∧
      ¬ BothKept oneAddress sampleSizes zeroGarbage ssidAndDns s.flash := by
  intro schedule
  have hcount : ∀ k, schedule.count k = ((start (freshConfiguration sampleSizes) blankFlash
      ssidAndDns).phase k).left := by
    intro k
    cases k <;> rfl
  obtain ⟨s, hrun, hok⟩ := run_completes ssidAndDns_ready hcount
  refine ⟨s, hrun, hok, ssidAndDns_distinct, ?_⟩
  have hsplit : schedule = [.usb] ++ Console.usb :: [.tcp, .tcp, .tcp, .tcp, .usb, .usb] := rfl
  rw [hsplit] at hrun
  have hkept := kept_at_iff ssidAndDns_distinct hrun rfl rfl (hok .usb) zeroGarbage
  rw [hkept]
  rintro ⟨-, hholds⟩
  exact absurd (hholds (.dns1, ascii "10.0.0.1") (by decide)) (by decide)

end MeshRoofFirmware.ConsoleInterleaving
