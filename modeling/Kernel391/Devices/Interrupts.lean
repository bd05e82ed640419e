import Mathlib.Tactic.IntervalCases
import Kernel391.Devices.Masks
import Kernel391.Model.Interrupts

/-!
# Interrupts

The table `idt_init` leaves, whatever was there before, and the lines on which interrupts can still
reach the kernel after any interrupts that came since it started.
-/

namespace Kernel391
open Base

/-! ## The descriptor table -/

section Entries

variable {v w n : Nat} {f : IdtDesc → IdtDesc} {g : Nat → IdtDesc → IdtDesc} {idt : Nat → IdtDesc}

/-- The entry that is changed. -/
lemma changeEntry_self : changeEntry v f idt v = f (idt v) := Function.update_self ..

/-- The other entries stay. -/
lemma changeEntry_other (h : w ≠ v) : changeEntry v f idt w = idt w := Function.update_of_ne h ..

/-- A loop over one entry more. -/
lemma forEntries_succ : forEntries (n + 1) g idt = changeEntry n (g n) (forEntries n g idt) := by
  rw [forEntries, List.range_succ, List.foldl_append]
  rfl

/-- A loop leaves the entries above its bound. -/
lemma forEntries_above (h : n ≤ w) : forEntries n g idt w = idt w := by
  induction n with
  | zero => rfl
  | succ n ih => rw [forEntries_succ, changeEntry_other (by omega), ih (by omega)]

/-- A loop changes each of its entries by itself. -/
lemma forEntries_below (h : w < n) : forEntries n g idt w = g w (idt w) := by
  induction n with
  | zero => exact absurd h (Nat.not_lt_zero w)
  | succ n ih =>
    rw [forEntries_succ]
    by_cases last : w = n
    · rw [last, changeEntry_self, forEntries_above (le_refl n)]
    · rw [changeEntry_other last, ih (by omega)]

end Entries

/-- `SET_IDT_ENTRY` splits the address of a handler over two fields. -/
lemma offset_setEntry (d : IdtDesc) (handler : BitVec 32) :
    (d.setEntry handler).offset3116 ++ (d.setEntry handler).offset1500 = handler := by
  apply BitVec.eq_of_getLsbD_eq
  intro i hi
  simp only [IdtDesc.setEntry, BitVec.getLsbD_append]
  interval_cases i <;> simp

/-- The entry of a vector whose handler is at `handler`. -/
def IdtDesc.opened (d : IdtDesc) (handler : BitVec 32) (reserved3 : BitVec 1)
    (dpl : BitVec 2) : IdtDesc :=
  { d.clear.setEntry handler with reserved3 := reserved3, dpl := dpl, present := 1 }

/-- The gate of an entry that `idt_init` opens. -/
lemma gate_opened (d : IdtDesc) (handler : BitVec 32) (reserved3 : BitVec 1) (dpl : BitVec 2) :
    (d.opened handler reserved3 dpl).gate = some ⟨kernelCs, handler, reserved3 == 1⟩ := by
  let set := d.clear.setEntry handler
  show some (Gate.mk kernelCs (set.offset3116 ++ set.offset1500) (reserved3 == 1)) = _
  rw [offset_setEntry]

/-- An entry of the table. -/
lemma idtInit_apply (address : Handler → BitVec 32) (idt : Nat → IdtDesc) {v : Nat}
    (hv : v < idtSize) :
    idtInit address idt v =
      match vectorHandler v with
      | some h => (idt v).opened (address h) (if v < numException ∨ v = systemCall then 1 else 0)
          (if v = systemCall then 3 else 0)
      | none => (idt v).clear := by
  have all {g : Nat → IdtDesc → IdtDesc} : forEntries idtSize g idt v = g v (idt v) :=
    forEntries_below hv
  simp only [vectorHandler]
  by_cases low : v < numException
  · have no (w : Nat) (high : numException ≤ w) : v ≠ w := by omega
    simp only [idtInit, true_or, low, changeEntry_other (no systemCall (by decide)),
      changeEntry_other (no itrKeyboard (by decide)), changeEntry_other (no itrRtc (by decide)),
      changeEntry_other (no pitVector (by decide)), forEntries_below low, all,
        if_neg (no systemCall (by decide))]
    rfl
  have high := Nat.not_lt.mp low
  simp only [low, false_or, if_false]
  by_cases pit : v = pitVector
  · subst pit
    simp (disch := decide) only [idtInit, changeEntry_other, changeEntry_self,
      forEntries_above, all]
    rfl
  by_cases rtc : v = itrRtc
  · subst rtc
    simp (disch := decide) only [idtInit, changeEntry_other, changeEntry_self,
      forEntries_above, all]
    rfl
  by_cases keyboard : v = itrKeyboard
  · subst keyboard
    simp (disch := decide) only [idtInit, changeEntry_other, changeEntry_self,
      forEntries_above, all]
    rfl
  by_cases call : v = systemCall
  · subst call
    simp (disch := decide) only [idtInit, changeEntry_other, changeEntry_self,
      forEntries_above, all]
    rfl
  simp only [idtInit, changeEntry_other call, changeEntry_other keyboard, changeEntry_other rtc,
    changeEntry_other pit, forEntries_above high, all, if_neg pit, if_neg rtc, if_neg keyboard,
      if_neg call]

/-- Interrupt gates turn further interrupts off, trap gates do not. -/
def Handler.trap : Handler → Bool
  | .e _ => true
  | .systemcall => true
  | _ => false

/-- Exceptions and system calls have trap gates, devices interrupt gates. -/
lemma trap_vectorHandler {v : Nat} {h : Handler} (found : vectorHandler v = some h) :
    h.trap = decide (v < numException ∨ v = systemCall) := by
  rw [vectorHandler] at found
  split_ifs at found with low pit rtc keyboard call <;> cases found
  · exact (decide_eq_true (.inl low)).symm
  · subst pit
    rfl
  · subst rtc
    rfl
  · subst keyboard
    rfl
  · exact (decide_eq_true (.inr call)).symm

/-- **The descriptor table** `idt_init` leaves, whatever was in it: the processor finds a gate to
the right handler at exactly the 24 vectors that have one, and user code may use vector `0x80`
only. -/
theorem descriptor_table (address : Handler → BitVec 32) (idt : Nat → IdtDesc) (v : Nat) :
    (v < idtSize → (idtInit address idt v).gate =
        (vectorHandler v).map (fun h => ⟨kernelCs, address h, h.trap⟩) ∧
      (3 ≤ (idtInit address idt v).dpl.toNat ↔ v = systemCall)) ∧
    (idtSize ≤ v → idtInit address idt v = idt v) := by
  constructor
  · intro hv
    rw [idtInit_apply address idt hv]
    cases found : vectorHandler v with
    | some h =>
      refine ⟨?_, ?_⟩
      · show IdtDesc.gate (IdtDesc.opened ..) = _
        rw [gate_opened, Option.map_some, trap_vectorHandler found]
        by_cases open_ : v < numException ∨ v = systemCall
        · rw [if_pos open_, decide_eq_true open_]
          rfl
        · rw [if_neg open_, decide_eq_false open_]
          rfl
      · show 3 ≤ (if v = systemCall then (3 : BitVec 2) else 0).toNat ↔ _
        split_ifs with call
        · exact iff_of_true (le_refl 3) call
        · exact iff_of_false (by decide) call
    | none =>
      refine ⟨rfl, iff_of_false (show ¬ 3 ≤ 0 by decide) ?_⟩
      rintro rfl
      cases found
  · intro high
    have no (w : Nat) (low : w < idtSize) : v ≠ w := by omega
    rw [idtInit, changeEntry_other (no _ (by decide)), changeEntry_other (no _ (by decide)),
      changeEntry_other (no _ (by decide)), changeEntry_other (no _ (by decide)),
      changeEntry_other (no _ (by decide)), changeEntry_other (no _ (by decide)),
      changeEntry_other (no _ (by decide)), changeEntry_other (no _ (by decide)),
      forEntries_above (le_trans (by decide) high), forEntries_above (le_trans (by decide) high),
      forEntries_above high]

/-! ## The lines that stay open -/

namespace Controllers

variable {c : Controllers} {irq : Nat}

/-- The mask registers `entry` leaves: open are the keyboard, line 2 of the master with the slave on
it, and every line of the slave. -/
structure Booted (c : Controllers) : Prop where
  master : c.pic.master = ⟨0, 0xF9⟩
  slave : c.pic.slave = ⟨0, 0⟩

/-- The two chips and what was written to them before `i8259_init` enables lines. -/
lemma initWords_start (master slave : Chip) : (Pic.start master slave).initWords =
    { masterMask := 0xFF
      slaveMask := 0xFF
      master := ⟨0, 0⟩
      slave := ⟨0, 0⟩
      writes := [(0xA1, 0), (0x21, 0), (0xA1, 1), (0xA1, 2), (0xA1, 0x28), (0xA0, 0x11),
        (0x21, 1), (0x21, 4), (0x21, 0x20), (0x20, 0x11), (0xA1, 0xFF), (0x21, 0xFF)] } := by
  simp [Pic.initWords, Pic.start, Pic.outb, Chip.out, master8259Port, slave8259Port]
  exact ⟨rfl, rfl, by decide⟩

/-- The controllers after `i8259_init`. -/
lemma init_start (master slave : Chip) : (Pic.start master slave).i8259Init =
    { masterMask := 0xFB
      slaveMask := 0
      master := ⟨0, 0xFB⟩
      slave := ⟨0, 0⟩
      writes := [(0x21, 0xFB), (0xA1, 0), (0xA1, 0), (0x21, 0xFB),
        (0xA1, 0), (0x21, 0), (0xA1, 1), (0xA1, 2), (0xA1, 0x28), (0xA0, 0x11),
        (0x21, 1), (0x21, 4), (0x21, 0x20), (0x20, 0x11), (0xA1, 0xFF), (0x21, 0xFF)] } := by
  rw [Pic.i8259Init, initWords_start]
  rfl

/-- The kernel's start opens its lines, and no line is in service. -/
lemma booted_boot (c : Controllers) (master slave : Chip) (h : c.pic = Pic.start master slave) :
    c.boot.Booted ∧ c.boot.masterService = 0 ∧ c.boot.slaveService = 0 := by
  have first : c.through Pic.i8259Init = ⟨(Pic.start master slave).i8259Init, 0, 0⟩ := by
    rw [through, h, init_start]
    rfl
  rw [boot, first, init_start]
  exact ⟨⟨rfl, rfl⟩, rfl, rfl⟩

section EndOfInterrupt

variable {service : UInt8} {n : Nat}

/-- The byte that `send_eoi` writes takes its line out of service. -/
lemma serviceOut_eoi (hn : n ≤ 7) :
    serviceOut service (UInt8.ofNat (n ||| eoi)) = Pic.cleared service n := by
  interval_cases n <;> rfl

/-- The byte that `send_eoi` writes is no initialization word. -/
lemma command_eoi (chip : Chip) (hn : n ≤ 7) : chip.command (UInt8.ofNat (n ||| eoi)) = chip := by
  interval_cases n <;> rfl

/-- The end of an interrupt of line `n` of the master. -/
lemma outb_master (c : Controllers) (hn : n ≤ 7) :
    (c.outb (UInt8.ofNat (n ||| eoi)) master8259Port).pic.master = c.pic.master ∧
      (c.outb (UInt8.ofNat (n ||| eoi)) master8259Port).pic.slave = c.pic.slave ∧
      (c.outb (UInt8.ofNat (n ||| eoi)) master8259Port).masterService
        = Pic.cleared c.masterService n ∧
      (c.outb (UInt8.ofNat (n ||| eoi)) master8259Port).slaveService = c.slaveService :=
  ⟨command_eoi _ hn, rfl, serviceOut_eoi hn, rfl⟩

/-- The end of an interrupt of line `n` of the slave. -/
lemma outb_slave (c : Controllers) (hn : n ≤ 7) :
    (c.outb (UInt8.ofNat (n ||| eoi)) slave8259Port).pic.master = c.pic.master ∧
      (c.outb (UInt8.ofNat (n ||| eoi)) slave8259Port).pic.slave = c.pic.slave ∧
      (c.outb (UInt8.ofNat (n ||| eoi)) slave8259Port).masterService = c.masterService ∧
      (c.outb (UInt8.ofNat (n ||| eoi)) slave8259Port).slaveService
        = Pic.cleared c.slaveService n :=
  ⟨rfl, command_eoi _ hn, rfl, serviceOut_eoi hn⟩

end EndOfInterrupt

end Controllers

/-- **The end of an interrupt.** `send_eoi` of a line takes this line out of service, of a line of
the slave also line 2 of the master, and leaves both chips as they are, except for line 2: the byte
it sends to the slave for that one starts the initialization, which opens all lines of the slave and
makes the chip take the next mask for something else. -/
theorem end_of_interrupt (c : Controllers) (irqNum : BitVec 32) :
    (c.sendEoi irqNum).pic.master = c.pic.master ∧
    (c.sendEoi irqNum).masterService =
      (if irqNum.toNat ≤ 7 then Pic.cleared c.masterService irqNum.toNat
      else if irqNum.toNat ≤ 15 then Pic.cleared c.masterService 2
      else c.masterService) ∧
    (irqNum ≠ 2 → (c.sendEoi irqNum).pic.slave = c.pic.slave ∧
      (c.sendEoi irqNum).slaveService =
        if 8 ≤ irqNum.toNat ∧ irqNum.toNat ≤ 15 then Pic.cleared c.slaveService (irqNum.toNat - 8)
        else c.slaveService) ∧
    (irqNum = 2 → (c.sendEoi irqNum).pic.slave = ⟨1, 0⟩ ∧ (c.sendEoi irqNum).slaveService = 0) := by
  rw [Controllers.sendEoi]
  by_cases invalid : 15 < irqNum.toNat
  · rw [if_pos invalid, if_neg (by omega), if_neg (by omega), if_neg (by omega)]
    refine ⟨rfl, rfl, fun _ => ⟨rfl, rfl⟩, ?_⟩
    rintro rfl
    exact absurd invalid (by decide)
  rw [if_neg invalid]
  by_cases two : irqNum = 2
  · subst two
    exact ⟨rfl, rfl, fun h => absurd rfl h, fun _ => ⟨rfl, rfl⟩⟩
  by_cases low : irqNum.toNat ≤ 7
  · obtain ⟨master, slave, service, service'⟩ := Controllers.outb_master c low
    have byte : (irqNum ||| BitVec.ofNat 32 Controllers.eoi).toNat =
        irqNum.toNat ||| Controllers.eoi := by
      rw [BitVec.toNat_or]
      rfl
    rw [if_pos ⟨low, two⟩, if_pos low, if_neg (by omega), byte]
    exact ⟨master, service, fun _ => ⟨slave, service'⟩, fun h => absurd h two⟩
  · have high : irqNum.toNat - 8 ≤ 7 := by omega
    have byte : (irqNum - 8 ||| BitVec.ofNat 32 Controllers.eoi).toNat =
        (irqNum.toNat - 8) ||| Controllers.eoi := by
      rw [BitVec.toNat_or, BitVec.toNat_sub_of_le (by bv_omega)]
      rfl
    obtain ⟨master, slave, service, service'⟩ := Controllers.outb_slave c high
    obtain ⟨master₂, slave₂, service₂, service₂'⟩ := Controllers.outb_master
      (c.outb (UInt8.ofNat ((irqNum.toNat - 8) ||| Controllers.eoi)) slave8259Port)
        (n := 2) (by decide)
    rw [if_neg (fun h => low h.1), if_neg low, if_pos (by omega), if_pos (by omega)]
    dsimp only
    rw [byte]
    refine ⟨master₂.trans master, service₂.trans ?_,
      fun _ => ⟨slave₂.trans slave, service₂'.trans service'⟩,
      fun h => absurd h two⟩
    rw [service]

namespace Controllers

/-- What is in service: the lines behind a stray interrupt of line `k` of the slave. -/
structure Serves (c : Controllers) (stray : Option Nat) : Prop extends c.Booted where
  masterService : c.masterService = if stray.isSome then 4 else 0
  slaveService : c.slaveService = stray.elim 0 fun k => (1 : UInt8) <<< UInt8.ofNat (k - 8)

variable {c : Controllers} {irq : Nat} {stray : Option Nat}

/-- The lines on which an interrupt gets through. -/
lemma Serves.delivers (h : c.Serves stray) (hk : ∀ k ∈ stray, 9 ≤ k ∧ k ≤ 15) (hi : irq < 16) :
    c.delivers irq = decide (irq = 1 ∨ 8 ≤ irq ∧ stray = none) := by
  rw [Controllers.delivers, h.master, h.slave, h.masterService, h.slaveService]
  cases stray with
  | none => interval_cases irq <;> decide
  | some k =>
    obtain ⟨low, high⟩ := hk k rfl
    interval_cases irq <;> interval_cases k <;> decide

/-- An interrupt of the keyboard is over when its handler starts. -/
lemma Serves.keyboard (h : c.Serves stray) (switches : Bool) :
    ((c.accept 1).acknowledge switches .keyboardIrqWrap).Serves stray := by
  obtain ⟨master, slave, service, service'⟩ := outb_master (c.accept 1) (n := 1) (by decide)
  refine ⟨⟨master.trans h.master, slave.trans h.slave⟩, service.trans ?_,
    service'.trans h.slaveService⟩
  show Pic.cleared (c.masterService ||| (1 : UInt8) <<< 1) 1 = _
  rw [h.masterService]
  cases stray.isSome <;> decide

/-- One of the rtc is over when its handler is. -/
lemma Serves.rtc (h : c.Serves none) (switches : Bool) :
    ((c.accept 8).acknowledge switches .rtcIrqWrap).Serves none := by
  obtain ⟨master, slave, service, service'⟩ := outb_slave (c.accept 8) (n := 0) (by decide)
  obtain ⟨master₂, slave₂, service₂, service₂'⟩ := outb_master
    ((c.accept 8).outb (UInt8.ofNat (0 ||| eoi)) slave8259Port) (n := 2) (by decide)
  refine ⟨⟨(master₂.trans master).trans h.master, (slave₂.trans slave).trans h.slave⟩, ?_, ?_⟩
  · refine service₂.trans ?_
    rw [service]
    show Pic.cleared (c.masterService ||| (1 : UInt8) <<< 2) 2 = _
    rw [h.masterService]
    rfl
  · refine (service₂'.trans service').trans ?_
    show Pic.cleared (c.slaveService ||| 1 <<< UInt8.ofNat (8 - 8)) 0 = _
    rw [h.slaveService]
    rfl

/-- One of a line without a handler is never over. -/
lemma Serves.accept (h : c.Serves none) (low : 9 ≤ irq) : (c.accept irq).Serves (some irq) := by
  rw [Controllers.accept, if_neg (by omega)]
  refine ⟨⟨h.master, h.slave⟩, ?_, ?_⟩
  · show c.masterService ||| (1 : UInt8) <<< 2 = _
    rw [h.masterService]
    rfl
  · show c.slaveService ||| 1 <<< UInt8.ofNat (irq - 8) = _
    rw [h.slaveService]
    exact UInt8.zero_or

/-- The line that is stuck behind a request. -/
def strayAfter (stray : Option Nat) (irq : Nat) : Option Nat :=
  stray.or (if 9 ≤ irq then some irq else none)

/-- One interrupt keeps the lines open that should be. -/
lemma Serves.interrupt (h : c.Serves stray) (hk : ∀ k ∈ stray, 9 ≤ k ∧ k ≤ 15) (hi : irq < 16)
    (switches : Bool) : (c.interrupt irq switches).Serves (strayAfter stray irq) := by
  rw [Controllers.interrupt, h.delivers hk hi, strayAfter]
  by_cases open_ : irq = 1 ∨ 8 ≤ irq ∧ stray = none
  · rw [if_pos (decide_eq_true open_)]
    rcases open_ with rfl | ⟨high, rfl⟩
    · rw [if_neg (by decide), Option.or_none]
      exact h.keyboard switches
    · by_cases rtc : irq = 8
      · subst rtc
        exact h.rtc switches
      · have low : 9 ≤ irq := by omega
        have absent : vectorHandler (icw2Master.toNat + irq) = none := by
          interval_cases irq <;> rfl
        rw [if_pos low, absent]
        exact h.accept low
  · rw [if_neg (by simpa using open_)]
    cases stray with
    | none =>
      have high : ¬ 9 ≤ irq := fun low => open_ (.inr ⟨by omega, rfl⟩)
      rw [if_neg high]
      exact h
    | some k => exact h

/-- What is stuck after requests on some lines: the first of them that has no handler. -/
lemma serves_run (rs : List (Fin 16 × Bool)) (h : c.Serves stray)
    (hk : ∀ k ∈ stray, 9 ≤ k ∧ k ≤ 15) :
    ∃ stray', (rs.foldl (fun c r => c.interrupt r.1 r.2) c).Serves stray' ∧
      (∀ k ∈ stray', 9 ≤ k ∧ k ≤ 15) ∧ (stray' = none ↔ stray = none ∧ ∀ r ∈ rs, r.1.val ≤ 8) := by
  induction rs generalizing c stray with
  | nil => exact ⟨stray, h, hk, by simp⟩
  | cons r rs ih =>
    have after : ∀ k ∈ strayAfter stray r.1, 9 ≤ k ∧ k ≤ 15 := by
      intro k mem
      cases stray with
      | some _ => exact hk k mem
      | none =>
        rw [strayAfter, Option.none_or] at mem
        split_ifs at mem with low
        · cases mem
          exact ⟨low, by omega⟩
        · cases mem
    obtain ⟨stray', serves, range, absent⟩ := ih (h.interrupt hk r.1.isLt r.2) after
    refine ⟨stray', serves, range, absent.trans ?_⟩
    have first : strayAfter stray r.1 = none ↔ stray = none ∧ r.1.val ≤ 8 := by
      rw [strayAfter, Option.or_eq_none_iff]
      refine and_congr_right fun _ => ?_
      split_ifs with low
      · exact iff_of_false (by simp) (by omega)
      · exact iff_of_true rfl (by omega)
    rw [first, List.forall_mem_cons, and_assoc]

end Controllers

/-- **The lines that stay open.** After any interrupts since the kernel started, in any order, the
keyboard still gets through. The rtc and the other lines of the slave get through as long as there
was no interrupt on a line above the one of the rtc; no other line ever does. -/
theorem open_lines (master slave : Chip) (service service' : UInt8) (rs : List (Fin 16 × Bool))
    (irq : Fin 16) :
    (rs.foldl (fun c r => c.interrupt r.1 r.2)
      (Controllers.boot ⟨Pic.start master slave, service, service'⟩)).delivers irq = true ↔
      irq.val = 1 ∨ 8 ≤ irq.val ∧ ∀ r ∈ rs, r.1.val ≤ 8 := by
  obtain ⟨booted, quiet, quiet'⟩ :=
    Controllers.booted_boot ⟨Pic.start master slave, service, service'⟩ master slave rfl
  have start : (Controllers.boot ⟨Pic.start master slave, service, service'⟩).Serves none :=
    ⟨booted, quiet, quiet'⟩
  obtain ⟨stray, serves, range, absent⟩ := Controllers.serves_run rs start (by simp)
  rw [serves.delivers range irq.isLt, decide_eq_true_iff, absent]
  simp only [true_and]

end Kernel391
