import Kernel391.Terminal.Display
import Mathlib.Algebra.Order.Group.Nat

/-!
# The rate of the rtc

`rtc_read` step by step, with rtc interrupts between the steps. A pass of its loop waits for the
flag the handler sets and clears it; the flag may be set from before the call, so a read of `n`
passes waits for `n - 1` interrupts at least, and may wait for no more. A write sets 64 passes
whatever it is given.
-/

namespace Kernel391
open Base

/-- Where a process is in `rtc_read`, in pass `i` of its loop: at the test of the loop, waiting for
the flag, or about to clear it. -/
inductive RtcPoint where
  | outside
  | test (i : Nat)
  | wait (i : Nat)
  | clear (i : Nat)
  deriving DecidableEq

/-- A process that reads the rtc, and the interrupts since its last read began. -/
structure RtcReader where
  kernel : Kernel
  point : RtcPoint
  interrupts : Nat

/-- An rtc interrupt, a `read` of the descriptor, or one step of `rtc_read`. -/
inductive RtcEvent where
  | interrupt
  | read (buf n : BitVec 32)
  | step

/-- `read` of the descriptor passes the checks and comes to `rtc_read`. -/
def Kernel.ReadsRtc (s : Kernel) (fd buf n : BitVec 32) : Prop :=
  userBuffer buf n ∧ fd.toNat < 7 ∧ fd.toNat ≠ 1 ∧ s.fdArrayMapped ∧
    (s.proc.fd fd.toNat).flags ≠ 0 ∧ (s.proc.fd fd.toNat).fileotPointer = 0

/-- Whether a read reaches the rtc can be read from the state. -/
instance (s : Kernel) (fd buf n : BitVec 32) : Decidable (s.ReadsRtc fd buf n) :=
  inferInstanceAs (Decidable (_ ∧ _ ∧ _ ∧ _ ∧ _ ∧ _))

/-- `rtc_interrupt_handler`. -/
def Kernel.rtcInterruptHandler (s : Kernel) : Kernel := { s with rtc.rtcInterrupt := true }

/-- One event. A read that is refused returns at once and begins no wait. -/
def rtcStep (fd : BitVec 32) (x : RtcReader) : RtcEvent → Option RtcReader
  | .interrupt =>
    some { x with kernel := x.kernel.rtcInterruptHandler, interrupts := x.interrupts + 1 }
  | .read buf n =>
    if x.point = .outside ∧ x.kernel.ReadsRtc fd buf n then
      some { x with point := .test 0, interrupts := 0 }
    else none
  | .step =>
    match x.point with
    | .outside => none
    | .test i =>
      -- the division by a frequency of 0 is a fault
      if x.kernel.rtc.rtcFreq = 0 then none
      else if i < 128 / x.kernel.rtc.rtcFreq then some { x with point := .wait i }
      else some { x with point := .outside }
    | .wait i => some (if x.kernel.rtc.rtcInterrupt then { x with point := .clear i } else x)
    | .clear i =>
      -- with interrupts disabled
      some { x with kernel := { x.kernel with rtc.rtcInterrupt := false }, point := .test (i + 1) }

/-- Every read of the run returns only after at least `n` interrupts since it began. -/
def ReadsWait (fd : BitVec 32) (n : Nat) (s : Kernel) (es : List RtcEvent) : Prop :=
  Along (rtcStep fd) (fun x _ x' => x.point ≠ .outside → x'.point = .outside → n ≤ x'.interrupts)
    ⟨s, .outside, 0⟩ es

/-- The virtual frequencies: the powers of two from 2 to 1024. -/
def IsRate (v : Nat) : Prop := ∃ k, 1 ≤ k ∧ k ≤ 10 ∧ v = 2 ^ k

/-- A write of the value `v` is honoured: if `v` is a frequency and the write succeeds, every later
read waits for `1024 / v` interrupts; if it is none, the write returns -1 and the rate stays. -/
def HonorsRate (s : Kernel) (fd buf : BitVec 32) (v : Nat) : Prop :=
  (IsRate v → ∀ s' r, s.sysWrite fd buf 4 = some (s', r) → r ≠ -1 →
    ∀ es, ReadsWait fd (1024 / v) s' es) ∧
  (¬ IsRate v → ∃ s', s.sysWrite fd buf 4 = some (s', -1) ∧ s'.rtc.rtcFreq = s.rtc.rtcFreq)

/-- A write of the 4-byte value `v` to a descriptor that is open on the rtc. -/
structure RtcWrite (s : Kernel) (fd buf : BitVec 32) (v : Nat) : Prop where
  mapped : s.fdArrayMapped
  low : 2 ≤ fd.toNat
  high : fd.toNat < fdarrayMax
  flags : (s.proc.fd fd.toNat).flags ≠ 0
  table : (s.proc.fd fd.toNat).fileotPointer = 0
  buffer : userBuffer buf 4
  value : s.loadWord buf.toNat = some v

section Reads

variable {s : Kernel} {fd buf n : BitVec 32} {x x' : RtcReader} {es : List RtcEvent}

/-- What a read has waited for: each pass has used up an interrupt or the flag the read began
with. -/
def RtcReader.Waited (freq : Nat) (x : RtcReader) : Prop :=
  x.kernel.rtc.rtcFreq = freq ∧
    match x.point with
    | .outside => True
    | .test i => i + x.kernel.rtc.rtcInterrupt.toNat ≤ x.interrupts + 1
    | .wait i => i + x.kernel.rtc.rtcInterrupt.toNat ≤ x.interrupts + 1
    | .clear i => i ≤ x.interrupts

/-- A read that returns has made all its passes. -/
lemma RtcReader.Waited.step {freq : Nat} {e : RtcEvent} (h : x.Waited freq)
    (run : rtcStep fd x e = some x') :
    x'.Waited freq ∧ (x.point ≠ .outside → x'.point = .outside →
      128 / freq ≤ x'.interrupts + 1) := by
  obtain ⟨s, point, interrupts⟩ := x
  obtain ⟨hf, waited⟩ := h
  cases e with
  | interrupt =>
      cases run
      refine ⟨⟨hf, ?_⟩, fun ne back => absurd back ne⟩
      have flag := Bool.toNat_le s.rtc.rtcInterrupt
      cases point with
      | outside => trivial
      | test i =>
          show i + 1 ≤ interrupts + 1 + 1
          dsimp only at waited
          omega
      | wait i =>
          show i + 1 ≤ interrupts + 1 + 1
          dsimp only at waited
          omega
      | clear i => exact Nat.le_succ_of_le waited
  | read buf n =>
      rw [rtcStep] at run
      split_ifs at run with begins
      cases run
      refine ⟨⟨hf, ?_⟩, fun ne => absurd begins.1 ne⟩
      have flag := Bool.toNat_le s.rtc.rtcInterrupt
      show 0 + s.rtc.rtcInterrupt.toNat ≤ 0 + 1
      omega
  | step =>
      cases point with
      | outside => cases run
      | test i =>
          simp only [rtcStep] at run
          split_ifs at run with zero more
          · cases run
            exact ⟨⟨hf, waited⟩, fun _ back => RtcPoint.noConfusion back⟩
          · cases run
            refine ⟨⟨hf, trivial⟩, fun _ _ => ?_⟩
            have hf : s.rtc.rtcFreq = freq := hf
            rw [hf] at more
            dsimp only at waited ⊢
            omega
      | wait i =>
          simp only [rtcStep, Option.some.injEq] at run
          split_ifs at run with flag
          · cases run
            refine ⟨⟨hf, ?_⟩, fun _ back => RtcPoint.noConfusion back⟩
            dsimp only at waited flag ⊢
            rw [flag] at waited
            exact Nat.le_of_succ_le_succ waited
          · cases run
            exact ⟨⟨hf, waited⟩, fun _ back => RtcPoint.noConfusion back⟩
      | clear i =>
          cases run
          refine ⟨⟨hf, ?_⟩, fun _ back => RtcPoint.noConfusion back⟩
          show i + 1 + 0 ≤ interrupts + 1
          dsimp only at waited
          omega

/-- At frequency `freq` every read waits for all its passes but one. -/
lemma readsWait_of_freq {k : Nat} (freq : Nat) (hf : s.rtc.rtcFreq = freq)
    (hk : k + 1 ≤ 128 / freq) :
    ReadsWait fd k s es := by
  refine along_of_inv (RtcReader.Waited freq) ?_ ⟨hf, trivial⟩
  intro x e x' inv run
  obtain ⟨inv', passes⟩ := inv.step run
  refine ⟨inv', fun ne back => ?_⟩
  have all := passes ne back
  omega

/-- One pass that begins with the flag clear and waits for one interrupt. -/
def onePass : List RtcEvent := [.step, .interrupt, .step, .step]

/-- Passes with one interrupt each. -/
lemma runs_passes (fd : BitVec 32) {k i c freq : Nat} (hx : x.point = .test i)
    (hc : x.interrupts = c) (hr : x.kernel.rtc = ⟨false, freq⟩) (pos : freq ≠ 0)
    (hk : i + k ≤ 128 / freq) :
    ∃ x', runs (rtcStep fd) x (List.replicate k onePass).flatten = some x' ∧
      x'.point = .test (i + k) ∧
      x'.interrupts = c + k ∧ x'.kernel.rtc = ⟨false, freq⟩ := by
  induction k generalizing x i c with
  | zero => exact ⟨x, rfl, hx, hc, hr⟩
  | succ k ih =>
      obtain ⟨s, point, interrupts⟩ := x
      obtain rfl : point = .test i := hx
      obtain rfl : interrupts = c := hc
      have hr : s.rtc = ⟨false, freq⟩ := hr
      have more : i < 128 / freq := by omega
      have pass : runs (rtcStep fd) ⟨s, .test i, interrupts⟩ onePass
          = some ⟨{ s with rtc := ⟨false, freq⟩ }, .test (i + 1), interrupts + 1⟩ := by
        simp [onePass, rtcStep, hr, pos, more, Kernel.rtcInterruptHandler]
      have rest : i + 1 + k ≤ 128 / freq := by omega
      obtain ⟨x', run, point, count, rtc⟩ :=
        ih (x := ⟨{ s with rtc := ⟨false, freq⟩ }, .test (i + 1), interrupts + 1⟩) rfl rfl rfl rest
      have count : x'.interrupts = interrupts + 1 + k := count
      refine ⟨x', ?_, ?_, ?_, rtc⟩
      · rw [List.replicate_succ, List.flatten_cons, runs_append, pass]
        exact run
      · rw [point]
        congr 1
        omega
      · omega

/-- A read that finds the flag set and gets one interrupt in each further pass. -/
def staleRead (passes : Nat) (buf n : BitVec 32) : List RtcEvent :=
  [.interrupt, .read buf n, .step, .step, .step] ++ (List.replicate passes onePass).flatten

/-- The wait of `readsWait_of_freq` is exact: with an interrupt between two reads the second can
return after one interrupt less than it has passes. -/
lemma not_readsWait {freq k : Nat} (hf : s.rtc.rtcFreq = freq) (pos : freq ≠ 0)
    (hk : 128 / freq = k + 1) (reads : s.ReadsRtc fd buf n) :
    ¬ ReadsWait fd (k + 1) s (staleRead k buf n ++ [.step]) := by
  intro waits
  have interrupt : rtcStep fd ⟨s, .outside, 0⟩ .interrupt
      = some ⟨{ s with rtc := ⟨true, freq⟩ }, .outside, 1⟩ := by
    rw [← hf]
    rfl
  have read : rtcStep fd ⟨{ s with rtc := ⟨true, freq⟩ }, .outside, 1⟩ (.read buf n)
      = some ⟨{ s with rtc := ⟨true, freq⟩ }, .test 0, 0⟩ := if_pos ⟨rfl, reads⟩
  have pass : runs (rtcStep fd) ⟨{ s with rtc := ⟨true, freq⟩ }, .test 0, 0⟩ [.step, .step, .step]
      = some ⟨{ s with rtc := ⟨false, freq⟩ }, .test 1, 0⟩ := by
    have more : 0 < 128 / freq := by omega
    simp [rtcStep, pos, more]
  have begins : runs (rtcStep fd) ⟨s, .outside, 0⟩ [.interrupt, .read buf n, .step, .step, .step]
      = some ⟨{ s with rtc := ⟨false, freq⟩ }, .test 1, 0⟩ := by
    rw [runs_cons, interrupt, Option.bind_some, runs_cons, read, Option.bind_some, pass]
  have fits : 1 + k ≤ 128 / freq := by omega
  obtain ⟨x, passes, point, count, rtc⟩ := runs_passes fd
    (x := ⟨{ s with rtc := ⟨false, freq⟩ }, .test 1, 0⟩) rfl rfl rfl pos fits
  have run : runs (rtcStep fd) ⟨s, .outside, 0⟩ (staleRead k buf n) = some x := by
    rw [staleRead, runs_append, begins]
    exact passes
  have returns : rtcStep fd x .step = some { x with point := .outside } := by
    have done : ¬ 1 + k < 128 / freq := by omega
    simp [rtcStep, point, rtc, pos, done]
  have count : x.interrupts = 0 + k := count
  have waited := waits.next run returns (by rw [point]; exact RtcPoint.noConfusion) rfl
  dsimp only at waited
  omega

/-- A write to the last descriptor is refused; every other sets the frequency 2. -/
lemma sysWrite_rtc {v : Nat} (h : RtcWrite s fd buf v) :
    s.sysWrite fd buf 4
      = if fd.toNat = 7 then some (s, -1) else some ({ s with rtc.rtcFreq := 2 }, 0) := by
  have low := h.low
  have high := h.high
  rw [fdarrayMax] at high
  rw [Kernel.sysWrite, if_neg (not_not.mpr h.buffer)]
  by_cases last : fd.toNat = 7
  · rw [if_pos (.inl (by omega)), if_pos last]
  · rw [if_neg (by omega), if_neg (not_not.mpr h.mapped), if_neg h.flags, if_neg last, h.table]
    rfl

end Reads

section Rates

variable {s : Kernel} {fd buf : BitVec 32} {v : Nat}

/-- A frequency below 32 asks for at least 64 interrupts. -/
lemma few_passes (rate : IsRate v) (small : v < 32) : 64 ≤ 1024 / v := by
  obtain ⟨k, one, -, rfl⟩ := rate
  have lt : k < 5 := (Nat.pow_lt_pow_iff_right (a := 2) (by decide)).mp small
  obtain rfl | rfl | rfl | rfl : k = 1 ∨ k = 2 ∨ k = 3 ∨ k = 4 := by omega
  all_goals decide

/-- **The virtual rate** is honoured exactly for the frequencies from 32 on, and by the refusal of
the last descriptor. -/
theorem honorsRate_iff (h : RtcWrite s fd buf v) :
    HonorsRate s fd buf v ↔ fd.toNat = 7 ∨ IsRate v ∧ 32 ≤ v := by
  have write := sysWrite_rtc h
  by_cases last : fd.toNat = 7
  · rw [if_pos last] at write
    refine ⟨fun _ => .inl last, fun _ => ⟨fun _ s' r run refused => ?_, fun _ => ⟨s, write, rfl⟩⟩⟩
    rw [write] at run
    cases run
    exact absurd rfl refused
  · rw [if_neg last] at write
    constructor
    · rintro ⟨rates, others⟩
      right
      by_cases rate : IsRate v
      · refine ⟨rate, ?_⟩
        by_contra small
        -- a second read can return after 63 interrupts
        have waits := rates rate _ 0 write (by decide) (staleRead 63 buf 4 ++ [.step])
        have reads : { s with rtc.rtcFreq := 2 }.ReadsRtc fd buf 4 := by
          have low := h.low
          have high := h.high
          rw [fdarrayMax] at high
          exact ⟨h.buffer, by omega, by omega, h.mapped, h.flags, h.table⟩
        have enough := few_passes rate (Nat.lt_of_not_le small)
        have two : ({ s with rtc.rtcFreq := 2 } : Kernel).rtc.rtcFreq = 2 := rfl
        apply not_readsWait two (by decide) (rfl : 128 / 2 = 63 + 1) reads
        exact waits.imp fun x e x' waited ne back => Nat.le_trans enough (waited ne back)
      · obtain ⟨s', run, -⟩ := others rate
        rw [write] at run
        exact absurd (Prod.mk.inj (Option.some.inj run)).2 (by decide)
    · rintro (seven | ⟨rate, le⟩)
      · exact absurd seven last
      · refine ⟨fun _ s' r run _ es => ?_, fun no => absurd rate no⟩
        rw [write] at run
        cases run
        have enough : 1024 / v ≤ 1024 / 32 := Nat.div_le_div_left le (by decide)
        exact readsWait_of_freq 2 rfl (by omega)

/-- The boot shell with the rtc open. -/
def rtcShell : Option Kernel :=
  (bootShell sampleFrame sampleBoot).bind fun s =>
    runs Call.step s [.sysOpen sampleFrame (some (bytesOf ['r', 't', 'c']))]

/-- A write to the rtc, from what a state holds. -/
lemma rtcWrite_of {s : Kernel} {v : Nat} (facts : ((s.proc.fd 2).flags, (s.proc.fd 2).fileotPointer,
    s.loadWord 0x08048100, decide s.fdArrayMapped) = (1, 0, some v, true)) :
    RtcWrite s 2 0x08048100 v := by
  simp only [Prod.mk.injEq, decide_eq_true_eq] at facts
  obtain ⟨flags, table, value, mapped⟩ := facts
  refine ⟨mapped, by decide, by decide, ?_, table, by decide, value⟩
  exact flags.symm ▸ (by decide : (1 : Nat) ≠ 0)

/-- The shell stores the word 64 and writes it to the rtc. -/
theorem honorsRate_iff_sample :
    ∃ s, (rtcShell.bind fun s => s.storePointer 0x08048100 64) = some s ∧
    RtcWrite s 2 0x08048100 64 ∧ HonorsRate s 2 0x08048100 64 := by
  have facts : (rtcShell.bind fun s => s.storePointer 0x08048100 64).map (fun s =>
      ((s.proc.fd 2).flags, (s.proc.fd 2).fileotPointer, s.loadWord 0x08048100,
        decide s.fdArrayMapped)) = some (1, 0, some 64, true) := by decide +kernel
  obtain ⟨s, hs, e⟩ := Option.map_eq_some_iff.mp facts
  have write := rtcWrite_of e
  exact ⟨s, hs, write, (honorsRate_iff write).mpr (Or.inr ⟨⟨6, by decide⟩, by decide⟩)⟩

/-- A write of 0 succeeds. -/
theorem not_always_honored : ¬ ∀ (s : Kernel) (fd buf : BitVec 32) (v : Nat), RtcWrite s fd buf v →
    HonorsRate s fd buf v := by
  intro claim
  have facts : rtcShell.map (fun s => ((s.proc.fd 2).flags, (s.proc.fd 2).fileotPointer,
      s.loadWord 0x08048100, decide s.fdArrayMapped)) = some (1, 0, some 0, true) := by
        decide +kernel
  obtain ⟨s, -, e⟩ := Option.map_eq_some_iff.mp facts
  have write := rtcWrite_of e
  have no_rate : ¬ IsRate 0 := by
    rintro ⟨k, -, -, e⟩
    exact absurd e (Nat.ne_of_lt (Nat.pow_pos (by decide)))
  obtain ⟨s', run, -⟩ := (claim s 2 0x08048100 0 write).2 no_rate
  rw [sysWrite_rtc write, if_neg (by decide)] at run
  exact absurd (Prod.mk.inj (Option.some.inj run)).2 (by decide)

end Rates

end Kernel391
