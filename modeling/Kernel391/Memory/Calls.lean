import Kernel391.Memory.Routines
import Kernel391.Process.Forest
import Kernel391.Terminal.Pane

/-!
# Calls of the memory routines

What the routines are for: `memset` and its relatives fill a range with a pattern, `memcpy` and
`memmove` copy one. Any sequence of calls does this one after the other, also when a `memmove`
leaves the direction flag set. A switch of terminals makes two such calls.
-/

namespace Kernel391
open Base

namespace MemCall

/-- What a call is for. -/
def effect (m : BitVec 32 → UInt8) : MemCall → BitVec 32 → UInt8
  | .memset s c n => fill m s n.toNat fun _ => byteOf c 0
  | .memsetWord s c n => fill m s (2 * n.toNat) fun j => byteOf c (j % 2)
  | .memsetDword s c n => fill m s (4 * n.toNat) fun j => byteOf c (j % 4)
  | .memcpy dest src n => copyRange m dest src 0 n.toNat
  | .memmove dest src n => copyRange m dest src 0 n.toNat

/-- What a call asks of its arguments: `memcpy` that its destination does not begin inside its
source, `memmove` that its ranges end in the address space. -/
def Safe : MemCall → Prop
  | .memcpy dest src n => UpSafe dest src n.toNat
  | .memmove dest src n => dest.toNat + n.toNat ≤ 2 ^ 32 ∧ src.toNat + n.toNat ≤ 2 ^ 32
  | _ => True

/-- The calls run to their ends, one after the other, and `Q` holds behind the last one. -/
def Completes (o : Outside Empty) (Q : Cpu → Prop) : List MemCall → Cpu → Prop
  | [], c => Q c
  | k :: ks, c => Finishes o k.listing (Completes o Q ks) k.listing (k.load c)

end MemCall

open MemCall

variable {o : Outside Empty} {Q : Cpu → Prop} {c c' c₀ : Cpu} {k : MemCall}

/-- What two routines preserve, both in sequence preserve. -/
lemma Preserved.trans (h : Preserved c₀ c) (h' : Preserved c c') : Preserved c₀ c' :=
  ⟨h'.ebx.trans h.ebx, h'.esp.trans h.esp, h'.ebp.trans h.ebp, h'.ds.trans h.ds⟩

/-- The word `memset` fills with has the byte four times. -/
lemma toNat_spread (c : BitVec 32) :
    (spread c).toNat = 2 ^ 24 * (c.toNat % 2 ^ 8) + 2 ^ 16 * (c.toNat % 2 ^ 8)
      + 2 ^ 8 * (c.toNat % 2 ^ 8) + c.toNat % 2 ^ 8 := by
  have low : (c &&& 0xFF).toNat = c.toNat % 2 ^ 8 := by
    rw [BitVec.toNat_and]
    exact Nat.and_two_pow_sub_one_eq_mod c.toNat 8
  have small : c.toNat % 2 ^ 8 < 2 ^ 8 := Nat.mod_lt _ (by decide)
  simp only [spread, BitVec.toNat_or, BitVec.toNat_shiftLeft, low]
  generalize c.toNat % 2 ^ 8 = b at small ⊢
  have fits (k : Nat) (hk : k ≤ 24) : b <<< k % 2 ^ 32 = b <<< k := by
    apply Nat.mod_eq_of_lt
    rw [Nat.shiftLeft_eq]
    calc b * 2 ^ k < 2 ^ 8 * 2 ^ k := Nat.mul_lt_mul_of_pos_right small (Nat.two_pow_pos k)
      _ = 2 ^ (8 + k) := (Nat.pow_add 2 8 k).symm
      _ ≤ 2 ^ 32 := Nat.pow_le_pow_right (by decide) (by omega)
  rw [fits 24 (by decide), fits 16 (by decide), fits 8 (by decide), Nat.or_assoc, Nat.or_assoc]
  -- each byte is below the lowest bit of the next
  rw [← Nat.shiftLeft_add_eq_or_of_lt (i := 8) small]
  have two : b <<< 8 + b < 2 ^ 16 := by
    rw [Nat.shiftLeft_eq]
    omega
  rw [← Nat.shiftLeft_add_eq_or_of_lt two]
  have three : b <<< 16 + (b <<< 8 + b) < 2 ^ 24 := by
    rw [Nat.shiftLeft_eq, Nat.shiftLeft_eq]
    omega
  rw [← Nat.shiftLeft_add_eq_or_of_lt three]
  simp only [Nat.shiftLeft_eq]
  omega

/-- The word `memset` stores has the byte `c` everywhere. -/
lemma byteOf_spread (c : BitVec 32) {j : Nat} (hj : j < 4) : byteOf (spread c) j = byteOf c 0 := by
  have low : c.toNat / 2 ^ (8 * 0) % 2 ^ 8 = c.toNat % 2 ^ 8 := by
    rw [Nat.mul_zero, Nat.pow_zero, Nat.div_one]
  rw [byteOf, byteOf, toNat_spread]
  apply UInt8.toNat_inj.mp
  rw [UInt8.toNat_ofNat', UInt8.toNat_ofNat', low]
  have small : c.toNat % 2 ^ 8 < 2 ^ 8 := Nat.mod_lt _ (by decide)
  generalize c.toNat % 2 ^ 8 = b at small ⊢
  have quotient : (2 ^ 24 * b + 2 ^ 16 * b + 2 ^ 8 * b + b) / 2 ^ (8 * j) =
      (if j = 0 then 2 ^ 24 * b else 0) + (if j ≤ 1 then 2 ^ 16 * b else 0)
        + (if j ≤ 2 then 2 ^ 8 * b else 0) + b := by
    interval_cases j <;> simp only [Nat.reduceMul, Nat.reducePow, Nat.reduceLeDiff, reduceIte,
      Nat.reduceEqDiff] <;> omega
  rw [quotient]
  split_ifs <;> omega

/-- A word is the word of its value. -/
lemma eq_ofNat_toNat (n : BitVec 32) : n = BitVec.ofNat 32 n.toNat := by
  rw [BitVec.ofNat_toNat, BitVec.setWidth_eq]

/-- A call does what it is for. -/
lemma MemCall.finishes (safe : k.Safe)
    (done : ∀ c', c'.mem = k.effect c.mem → Preserved c c' → Q c') :
    Finishes o k.listing Q k.listing (k.load c) := by
  cases k with
  | memset s v n =>
    have uniform : Uniform (spread v) := fun j hj => by
      rw [byteOf_spread v hj, byteOf_spread v (by decide)]
    have byte : byteOf (spread v) 0 = byteOf v 0 := byteOf_spread v (by decide)
    have start : FillLeft c s (spread v) n.toNat .ecx n.toNat ((MemCall.memset s v n).load c) :=
      ⟨0, Nat.zero_add _, ⟨fill_zero.symm, (BitVec.add_zero s).symm, rfl, rfl, rfl, rfl, rfl⟩,
        eq_ofNat_toNat n⟩
    refine finishes_memset uniform n.isLt (fun c' h => done c' ?_ h.kept) start
    rw [h.mem, byte]
    rfl
  | memsetWord s v n =>
    exact finishes_memsetWord fun c' mem kept => done c' mem ⟨kept.ebx, kept.esp, kept.ebp, kept.ds⟩
  | memsetDword s v n =>
    exact finishes_memsetDword fun c' mem kept => done c' mem
      ⟨kept.ebx, kept.esp, kept.ebp, kept.ds⟩
  | memcpy dest src n =>
    have start : CopyLeft c dest src n.toNat .ecx n.toNat ((MemCall.memcpy dest src n).load c) :=
      ⟨0, Nat.zero_add _, ⟨(copyRange_self 0).symm, (BitVec.add_zero dest).symm,
        (BitVec.add_zero src).symm, rfl, rfl, rfl, rfl⟩, eq_ofNat_toNat n⟩
    exact finishes_memcpy safe n.isLt (fun c' h => done c' h.mem h.kept) start
  | memmove dest src n =>
    exact finishes_memmove safe.1 safe.2 fun c' mem _ kept =>
      done c' mem ⟨kept.ebx, kept.esp, kept.ebp, kept.ds⟩

/-- Calls one after the other. -/
lemma completes_calls (ks : List MemCall) (safe : ∀ k ∈ ks, k.Safe)
    (done : ∀ c', c'.mem = ks.foldl MemCall.effect c.mem → Preserved c c' → Q c') :
    Completes o Q ks c := by
  induction ks generalizing c with
  | nil => exact done c rfl ⟨rfl, rfl, rfl, rfl⟩
  | cons k ks ih =>
    obtain ⟨first, rest⟩ := List.forall_mem_cons.mp safe
    refine MemCall.finishes first fun c' mem kept => ih rest fun c'' mem' kept' => ?_
    refine done c'' ?_ (kept.trans kept')
    rw [mem', mem, List.foldl_cons]

/-- **The memory routines**, called any number of times one after the other, do to memory what they
are for, at every alignment and whatever the direction flag and `es` were left at. -/
theorem memory_routines (o : Outside Empty) (ks : List MemCall)
    (safe : ∀ k ∈ ks, k.Safe) (c : Cpu) :
    Completes o (fun c' => c'.mem = ks.foldl MemCall.effect c.mem ∧ Preserved c c') ks c :=
  completes_calls ks safe fun _ mem kept => ⟨mem, kept⟩

/-- A processor with cleared registers and memory. -/
def idleCpu : Cpu :=
  ⟨fun _ => 0, ⟨false, false, false, false, false, false⟩, 0, 0, 0, 0, 0, fun _ => 0⟩

/-- No routines outside a listing. -/
def nothingOutside : Outside Empty := ⟨Empty.elim, fun _ _ => none, 0⟩

/-- An overlapping move, a copy and a fill, none of them aligned. -/
theorem memory_routines_sample :
    let ks : List MemCall :=
  [.memmove 0x1001 0x1000 7, .memcpy 0x2003 0x1001 9, .memset 0x1002 0x41 6]
    Completes nothingOutside (fun c' => c'.mem = ks.foldl MemCall.effect idleCpu.mem ∧
      Preserved idleCpu c')
      ks idleCpu := by
  refine memory_routines nothingOutside _ (fun k hk => ?_) idleCpu
  obtain rfl | rfl | rfl : k = .memmove 0x1001 0x1000 7 ∨ k = .memcpy 0x2003 0x1001 9 ∨
      k = .memset 0x1002 0x41 6 := by simpa using hk
  · exact ⟨by decide, by decide⟩
  · exact .inl (by decide)
  · trivial

/-- **`memmove` moves**, whichever way its ranges overlap, and returns with the direction flag set
exactly when the destination is above the source. -/
theorem memmove_direction (o : Outside Empty) (dest src n : BitVec 32)
    (hdest : dest.toNat + n.toNat ≤ 2 ^ 32) (hsrc : src.toNat + n.toNat ≤ 2 ^ 32) (c : Cpu) :
    Finishes o memmove (fun c' => c'.mem = copyRange c.mem dest src 0 n.toNat ∧
      (c'.flags.direction = true ↔ src.toNat < dest.toNat)) memmove
      ((MemCall.memmove dest src n).load c) := by
  refine finishes_memmove hdest hsrc fun c' mem direction _ => ⟨mem, ?_⟩
  rw [direction]
  exact decide_eq_true_iff

/-- A move upwards by three bytes. -/
theorem memmove_direction_sample :
    Finishes nothingOutside memmove (fun c' => c'.mem = copyRange idleCpu.mem 0x1003 0x1000 0 9 ∧
      (c'.flags.direction = true ↔ (0x1000 : BitVec 32).toNat < (0x1003 : BitVec 32).toNat)) memmove
      ((MemCall.memmove 0x1003 0x1000 9).load idleCpu) :=
  memmove_direction nothingOutside 0x1003 0x1000 9 (by decide) (by decide) idleCpu

/-! ## Switching terminals -/

/-- The memory as the processor sees it. -/
def Base.Mem.image (m : Mem) : BitVec 32 → UInt8 := fun a => m a.toNat

/-- A copy between ranges that end in the address space. -/
lemma copyRange_image (m : Mem) {dst src n : Nat} (hdst : dst + n < 2 ^ 32)
    (hsrc : src + n < 2 ^ 32) :
    copyRange m.image (BitVec.ofNat 32 dst) (BitVec.ofNat 32 src) 0 n
      = (m.blit dst src n).image := by
  funext x
  have lt := x.isLt
  have distance : (x - BitVec.ofNat 32 dst).toNat = (x.toNat + (2 ^ 32 - dst)) % 2 ^ 32 := by
    rw [BitVec.toNat_sub, BitVec.toNat_ofNat]
    omega
  rw [copyRange, distance]
  simp only [Mem.image, Mem.blit]
  by_cases inside : dst ≤ x.toNat ∧ x.toNat < dst + n
  · have source : (BitVec.ofNat 32 src + (x - BitVec.ofNat 32 dst)).toNat
      = src + (x.toNat - dst) := by
      rw [BitVec.toNat_add, distance, BitVec.toNat_ofNat]
      omega
    rw [if_pos (by omega), if_pos inside, source]
  · rw [if_neg (by omega), if_neg inside]

/-- The calls of `memcpy` in `save_terminal` and `restore_terminal`, of a switch to terminal `t`. -/
def switchCopies (s : Kernel) (t : Nat) : List MemCall :=
  let saved := (s.term.terminalArray s.term.currentTerminalId).videoBufferAddr
  let shown := (s.term.terminalArray t).videoBufferAddr
  [.memcpy (BitVec.ofNat 32 saved) (BitVec.ofNat 32 videoMem) (BitVec.ofNat 32 fourKb),
   .memcpy (BitVec.ofNat 32 videoMem) (BitVec.ofNat 32 shown) (BitVec.ofNat 32 fourKb)]

/-- What `memcpy` of a page is for, on the memory of the kernel model. -/
lemma effect_memcpy (m : Mem) {dst src : Nat} (hdst : dst + fourKb < 2 ^ 32)
    (hsrc : src + fourKb < 2 ^ 32) :
    MemCall.effect m.image (.memcpy (BitVec.ofNat 32 dst) (BitVec.ofNat 32 src)
      (BitVec.ofNat 32 fourKb)) =
      (m.blit dst src fourKb).image := copyRange_image m hdst hsrc

/-- Pages that are apart can be copied upwards. -/
lemma upSafe_pages {dst src : Nat} (hdst : dst + fourKb < 2 ^ 32) (hsrc : src + fourKb < 2 ^ 32)
    (apart : dst + fourKb ≤ src ∨ src + fourKb ≤ dst) :
    UpSafe (BitVec.ofNat 32 dst) (BitVec.ofNat 32 src) fourKb := by
  left
  rw [fourKb] at *
  rw [BitVec.toNat_sub, BitVec.toNat_ofNat, BitVec.toNat_ofNat]
  omega

/-- **A switch of terminals** in a state that calls lead to: the two calls of `memcpy` leave the
memory of the switched state. -/
theorem switch_copies (fr : Frame) (b : BootInfo) (s₀ s : Kernel) (cs : List Call)
    (boot : bootShell fr b = some s₀) (run : runs Call.step s₀ cs = some s) (t : Fin 3)
    (other : (t : Nat) ≠ s.term.currentTerminalId) (o : Outside Empty) (c : Cpu)
    (here : c.mem = s.mem.image) :
    Completes o (fun c' => c'.mem = (s.changeTerminal t).mem.image) (switchCopies s t) c := by
  have ok : s.display.Ok :=
    inv_runs (fun s => s.display.Ok) (fun _ _ _ h st => h.step st) (display_bootShell boot) run
  have forest : s.procView.Forest :=
    inv_runs (fun s => s.procView.Forest) (fun _ _ _ h st => forest_step h st)
      (forest_bootShell boot) run
  obtain ⟨chain, planted⟩ := forest.planted
  have current : s.term.currentTerminalId < 3 := planted.current
  have saved : (s.term.terminalArray s.term.currentTerminalId).videoBufferAddr =
      videoBuffer s.term.currentTerminalId := ok.base _
  have shown : (s.term.terminalArray t).videoBufferAddr = videoBuffer t := ok.base t
  have ht := t.isLt
  have low (u : Nat) (hu : u < 3) : videoBuffer u + fourKb < 2 ^ 32 ∧
    videoMem + fourKb ≤ videoBuffer u := by
    rw [videoBuffer, videoMem, fourKb]
    omega
  have screen : videoMem + fourKb < 2 ^ 32 := by decide
  obtain ⟨fits, above⟩ := low _ current
  obtain ⟨fits', above'⟩ := low t ht
  rw [switchCopies, saved, shown]
  refine completes_calls _ (fun k hk => ?_) fun c' mem _ => ?_
  · rcases List.mem_pair.mp hk with rfl | rfl
    · exact upSafe_pages fits screen (.inr above)
    · exact upSafe_pages screen fits' (.inl above')
  · rw [mem, here, mem_changeTerminal ok other]
    simp only [List.foldl_cons, List.foldl_nil]
    rw [effect_memcpy _ fits screen, effect_memcpy _ screen fits']

/-- The boot shell's screen is saved, and that of terminal 1 shown. -/
theorem switch_copies_sample : ∃ s, bootShell sampleFrame sampleBoot = some s ∧
    ∃ c : Cpu, Completes nothingOutside (fun c' => c'.mem = (s.changeTerminal 1).mem.image)
      (switchCopies s 1) c := by
  obtain ⟨s, hs, current⟩ : ∃ s, bootShell sampleFrame sampleBoot = some s ∧
    s.term.currentTerminalId = 0 := by
    have facts : (bootShell sampleFrame sampleBoot).map (fun s => s.term.currentTerminalId)
        = some 0 := by decide +kernel
    exact Option.map_eq_some_iff.mp facts
  have other : ((1 : Fin 3) : Nat) ≠ s.term.currentTerminalId := by
    rw [current]
    decide
  exact ⟨s, hs, { idleCpu with mem := s.mem.image },
    switch_copies sampleFrame sampleBoot s s [] hs rfl 1 other nothingOutside _ rfl⟩

end Kernel391
