import Mathlib.Tactic.IntervalCases
import Kernel391.Model.I8259

/-!
# The interrupt masks

Whether the masks `i8259.c` keeps are the masks the two chips have. Every branch of `enable_irq` and
`disable_irq` sends the mask it changed to the data port of its chip, but for one: `disable_irq` of
a line of the slave sends it to the command port. Up to the first such call the masks agree, and
from it on they need not.
-/

namespace Kernel391
open Base

/-- A call of `enable_irq` or `disable_irq`. -/
inductive PicCall where
  | enable (irqNum : Nat)
  | disable (irqNum : Nat)
  deriving DecidableEq

/-- The argument of a call. -/
def PicCall.irqNum : PicCall → Nat
  | .enable n => n
  | .disable n => n

/-- A call of `disable_irq` for a line of the slave. -/
def PicCall.DisablesSlave (c : PicCall) : Prop := ∃ n, 8 ≤ n ∧ n ≤ 15 ∧ c = .disable n

/-- `enable_irq` never disables the line of the slave. -/
lemma not_disablesSlave_enable {n : Nat} : ¬ (PicCall.enable n).DisablesSlave := by
  rintro ⟨m, -, -, eq⟩
  cases eq

namespace Pic

/-- One call. -/
def call (p : Pic) : PicCall → Pic
  | .enable n => p.enableIrq n
  | .disable n => p.disableIrq n

/-- The calls of a list, in order. -/
def calls (p : Pic) (cs : List PicCall) : Pic := cs.foldl call p

/-- The last byte written to a port. -/
def lastOut (p : Pic) (port : Nat) : Option UInt8 :=
  (p.writes.find? fun w => w.1 == port).map Prod.snd

/-- What was written to the two command ports, the last first. -/
def commands (p : Pic) : List (Nat × UInt8) :=
  p.writes.filter fun w => w.1 == master8259Port || w.1 == slave8259Port

/-- The masks the kernel keeps are the last bytes the data ports got, and the command ports got no
byte but the two that start the initialization. -/
structure Agrees (p : Pic) : Prop where
  master : p.lastOut (master8259Port + 1) = some p.masterMask
  slave : p.lastOut (slave8259Port + 1) = some p.slaveMask
  commands : p.commands = [(slave8259Port, icw1), (master8259Port, icw1)]

/-- The chip a line belongs to masks it. -/
def Masked (p : Pic) (irq : Nat) : Prop :=
  if irq ≤ 7 then byteBit p.master.maskRegister irq = true
  else byteBit p.slave.maskRegister (irq - 8) = true

/-- A mask bit can be read. -/
instance (p : Pic) (irq : Nat) : Decidable (p.Masked irq) := inferInstanceAs (Decidable (ite ..))

end Pic

/-- The most recent call for a line is `disable_irq`, and `enable_irq(2)` was not called after
it. -/
def LastDisabled (irq : Nat) (cs : List PicCall) : Prop :=
  ∃ pre post, cs = pre ++ .disable irq :: post ∧ ∀ c ∈ post, c.irqNum ≠ irq ∧ c ≠ .enable 2

/-- After the calls the masks agree, and the lines that were disabled last are masked. -/
structure MasksAgree (p : Pic) (cs : List PicCall) : Prop where
  agrees : (p.calls cs).Agrees
  masked : ∀ irq ≤ 15, irq ≠ 2 → LastDisabled irq cs → (p.calls cs).Masked irq

section Bits

variable {a b : UInt8} {n k : Nat}

/-- The bit of a line in its mask. -/
lemma byteBit_shift (hn : n ≤ 7) (hk : k ≤ 7) :
    byteBit ((1 : UInt8) <<< UInt8.ofNat n) k = decide (k = n) := by
  interval_cases n <;> interval_cases k <;> decide

/-- The bits of a mask with another added. -/
lemma byteBit_or : byteBit (a ||| b) k = (byteBit a k || byteBit b k) := by
  simp only [byteBit, UInt8.toBitVec_or, BitVec.getLsbD_or]

/-- The bits of a mask with another removed. -/
lemma byteBit_and_not (hk : k ≤ 7) : byteBit (a &&& ~~~b) k = (byteBit a k && !byteBit b k) := by
  have lt : k < 8 := by omega
  simp [byteBit, lt]

end Bits

namespace Pic

section Ports

variable {p : Pic} {m : UInt8} {n : Nat}

/-- The mask of the master changes, and goes to its data port. -/
def setMaster (p : Pic) (m : UInt8) : Pic :=
  { p with masterMask := m }.outb m (master8259Port + 1)

/-- The mask of the slave changes, and goes to its data port. -/
def setSlave (p : Pic) (m : UInt8) : Pic :=
  { p with slaveMask := m }.outb m (slave8259Port + 1)

/-- The mask with line `n` cleared. -/
def cleared (m : UInt8) (n : Nat) : UInt8 := m &&& ~~~(1 <<< UInt8.ofNat n)

/-- The mask with line `n` set. -/
def raised (m : UInt8) (n : Nat) : UInt8 := m ||| (1 <<< UInt8.ofNat n)

/-- The cases of `enable_irq`. -/
lemma enableIrq_eq : p.enableIrq n =
    if n > 15 then p
    else if n ≤ 7 then
      if n = 2 then (p.setMaster (cleared p.masterMask n)).setSlave 0
      else p.setMaster (cleared p.masterMask n)
    else (p.setSlave (cleared p.slaveMask (n - 8))).setMaster (cleared p.masterMask 2) := rfl

/-- The cases of `disable_irq`. -/
lemma disableIrq_eq : p.disableIrq n =
    if n > 15 then p
    else if n ≤ 7 then
      if n = 2 then (p.setMaster (raised p.masterMask n)).setSlave 0xFF
      else p.setMaster (raised p.masterMask n)
    else { p with slaveMask := raised p.slaveMask (n - 8) }.outb
      (raised p.slaveMask (n - 8)) slave8259Port := rfl

/-- The kernel's mask of the master, the last byte on its data port and its mask register are one
byte. -/
structure MasterOk (p : Pic) : Prop where
  last : p.lastOut (master8259Port + 1) = some p.masterMask
  chip : p.master = ⟨0, p.masterMask⟩

/-- The same for the slave. -/
structure SlaveOk (p : Pic) : Prop where
  last : p.lastOut (slave8259Port + 1) = some p.slaveMask
  chip : p.slave = ⟨0, p.slaveMask⟩

/-- Writing the mask of the master brings chip and variable together. -/
lemma masterOk_setMaster (h : p.master.expected = 0) : (p.setMaster m).MasterOk := by
  refine ⟨rfl, ?_⟩
  show p.master.data m = ⟨0, m⟩
  rw [Chip.data, if_pos h, h]

/-- Writing the mask of the master keeps chip and variable together. -/
lemma MasterOk.setMaster (h : p.MasterOk) : (p.setMaster m).MasterOk :=
  masterOk_setMaster (congrArg Chip.expected h.chip)

/-- Writing the mask of the slave leaves the master alone. -/
lemma MasterOk.setSlave (h : p.MasterOk) : (p.setSlave m).MasterOk := ⟨h.last, h.chip⟩

/-- Writing the mask of the slave brings chip and variable together. -/
lemma slaveOk_setSlave (h : p.slave.expected = 0) : (p.setSlave m).SlaveOk := by
  refine ⟨rfl, ?_⟩
  show p.slave.data m = ⟨0, m⟩
  rw [Chip.data, if_pos h, h]

/-- Writing the mask of the slave keeps chip and variable together. -/
lemma SlaveOk.setSlave (h : p.SlaveOk) : (p.setSlave m).SlaveOk :=
  slaveOk_setSlave (congrArg Chip.expected h.chip)

/-- Writing the mask of the master leaves the slave alone. -/
lemma SlaveOk.setMaster (h : p.SlaveOk) : (p.setMaster m).SlaveOk := ⟨h.last, h.chip⟩

end Ports

section Calls

variable {p : Pic} {c : PicCall} {cs : List PicCall} {irq n : Nat}

/-- The master's mask agrees whatever is called. -/
lemma MasterOk.call (h : p.MasterOk) : (p.call c).MasterOk := by
  cases c with
  | enable n =>
      show (p.enableIrq n).MasterOk
      rw [enableIrq_eq]
      split_ifs
      · exact h
      · exact h.setMaster.setSlave
      · exact h.setMaster
      · exact h.setSlave.setMaster
  | disable n =>
      show (p.disableIrq n).MasterOk
      rw [disableIrq_eq]
      split_ifs
      · exact h
      · exact h.setMaster.setSlave
      · exact h.setMaster
      · exact ⟨h.last, h.chip⟩

/-- The slave's agrees as long as none of its lines is disabled. -/
lemma SlaveOk.call (h : p.SlaveOk) (hc : ¬ c.DisablesSlave) : (p.call c).SlaveOk := by
  cases c with
  | enable n =>
      show (p.enableIrq n).SlaveOk
      rw [enableIrq_eq]
      split_ifs
      · exact h
      · exact h.setMaster.setSlave
      · exact h.setMaster
      · exact h.setSlave.setMaster
  | disable n =>
      show (p.disableIrq n).SlaveOk
      rw [disableIrq_eq]
      split_ifs with high low
      · exact h
      · exact h.setMaster.setSlave
      · exact h.setMaster
      · exact absurd ⟨n, by omega, by omega, rfl⟩ hc

/-- A call that disables a line of the slave leaves one more byte on a command port. -/
lemma commands_disable (hc : c.DisablesSlave) :
    (p.call c).commands.length = p.commands.length + 1 := by
  obtain ⟨n, low, high, rfl⟩ := hc
  show (p.disableIrq n).commands.length = _
  rw [disableIrq_eq, if_neg (by omega), if_neg (by omega)]
  rfl

/-- Every other call leaves none. -/
lemma commands_other (hc : ¬ c.DisablesSlave) : (p.call c).commands = p.commands := by
  cases c with
  | enable n =>
      show (p.enableIrq n).commands = p.commands
      rw [enableIrq_eq]
      split_ifs <;> rfl
  | disable n =>
      show (p.disableIrq n).commands = p.commands
      rw [disableIrq_eq]
      split_ifs with high low
      · rfl
      · rfl
      · rfl
      · exact absurd ⟨n, by omega, by omega, rfl⟩ hc

/-- The command ports got no more bytes exactly when no line of the slave was disabled. -/
lemma commands_calls : p.commands.length ≤ (p.calls cs).commands.length ∧
    ((p.calls cs).commands.length = p.commands.length → ∀ c ∈ cs, ¬ c.DisablesSlave) := by
  induction cs generalizing p with
  | nil => exact ⟨le_refl _, fun _ c hc => absurd hc List.not_mem_nil⟩
  | cons c cs ih =>
      obtain ⟨grows, none⟩ := ih (p := p.call c)
      rw [show p.calls (c :: cs) = (p.call c).calls cs from rfl]
      by_cases hc : c.DisablesSlave
      · rw [commands_disable hc] at grows
        exact ⟨by omega, fun eq => by omega⟩
      · rw [commands_other hc] at grows none
        exact ⟨grows, fun eq => List.forall_mem_cons.mpr ⟨hc, none eq⟩⟩

/-- Both masks agree along calls that disable no line of the slave. -/
lemma agree_calls (master : p.MasterOk) (slave : p.SlaveOk)
    (all : ∀ c ∈ cs, ¬ c.DisablesSlave) :
    (p.calls cs).MasterOk ∧ (p.calls cs).SlaveOk ∧ (p.calls cs).commands = p.commands := by
  induction cs generalizing p with
  | nil => exact ⟨master, slave, rfl⟩
  | cons c cs ih =>
      obtain ⟨hc, rest⟩ := List.forall_mem_cons.mp all
      obtain ⟨m, s, commands⟩ := ih (p := p.call c) master.call (slave.call hc) rest
      exact ⟨m, s, commands.trans (commands_other hc)⟩

/-- A line of the master other than the slave's keeps its bit through a call that is not
`enable_irq` of that line. -/
lemma masterMask_call (hi : irq ≤ 7) (two : irq ≠ 2) (hc : c ≠ .enable irq)
    (h : byteBit p.masterMask irq = true) : byteBit (p.call c).masterMask irq = true := by
  have clear : ∀ n ≤ 7, n ≠ irq → byteBit (cleared p.masterMask n) irq = true := by
    intro n hn ne
    rw [cleared, byteBit_and_not hi, byteBit_shift hn hi, h, decide_eq_false (Ne.symm ne)]
    rfl
  have raise : ∀ n, byteBit (raised p.masterMask n) irq = true := by
    intro n
    rw [raised, byteBit_or, h, Bool.true_or]
  cases c with
  | enable n =>
      have ne : n ≠ irq := fun eq => hc (congrArg PicCall.enable eq)
      show byteBit (p.enableIrq n).masterMask irq = true
      rw [enableIrq_eq]
      split_ifs with high low
      · exact h
      · exact clear n low ne
      · exact clear n low ne
      · exact clear 2 (by omega) (Ne.symm two)
  | disable n =>
      show byteBit (p.disableIrq n).masterMask irq = true
      rw [disableIrq_eq]
      split_ifs
      · exact h
      · exact raise n
      · exact raise n
      · exact h

/-- A line of the master that no call enables stays masked. -/
lemma masterMask_calls (cs : List PicCall) (hi : irq ≤ 7) (two : irq ≠ 2)
    (all : ∀ c ∈ cs, c ≠ .enable irq) (h : byteBit p.masterMask irq = true) :
    byteBit (p.calls cs).masterMask irq = true := by
  induction cs generalizing p with
  | nil => exact h
  | cons c cs ih =>
      obtain ⟨hc, rest⟩ := List.forall_mem_cons.mp all
      exact ih rest (masterMask_call hi two hc h)

/-- `disable_irq` sets the bit of a line of the master. -/
lemma masterMask_disable (hi : irq ≤ 7) :
    byteBit (p.call (.disable irq)).masterMask irq = true := by
  have raise : byteBit (raised p.masterMask irq) irq = true := by
    rw [raised, byteBit_or, byteBit_shift hi hi, decide_eq_true rfl, Bool.or_true]
  show byteBit (p.disableIrq irq).masterMask irq = true
  rw [disableIrq_eq, if_neg (by omega), if_pos hi]
  split_ifs
  · exact raise
  · exact raise

/-- Two lists of calls. -/
lemma calls_append {ds : List PicCall} : p.calls (cs ++ ds) = (p.calls cs).calls ds :=
  List.foldl_append

end Calls

section Init

variable {master slave : Chip} {cs : List PicCall}

/-- A chip that was told to start takes three words and then its mask. -/
lemma expected_init (c : Chip) (b₁ b₂ b₃ b₄ : UInt8) :
    (((((c.command icw1).data b₁).data b₂).data b₃).data b₄).expected = 0 := rfl

/-- The four words leave the master in operation. -/
lemma master_initWords (p : Pic) :
    p.initWords.master.expected = 0 := by
  have words : p.initWords.master =
      (((((p.master.data 0xFF).command icw1).data icw2Master).data icw3Master).data icw4).data
        p.masterMask := by
    simp [initWords, outb, Chip.out, master8259Port, slave8259Port]
  rw [words]
  exact expected_init ..

/-- The four words leave the slave in operation. -/
lemma slave_initWords (p : Pic) :
    p.initWords.slave.expected = 0 := by
  have words : p.initWords.slave =
      (((((p.slave.data 0xFF).command icw1).data icw2Slave).data icw3Slave).data icw4).data
        p.slaveMask := by
    simp [initWords, outb, Chip.out, master8259Port, slave8259Port]
  rw [words]
  exact expected_init ..

/-- The initialization ends with both masks in agreement, whatever state the chips were in. -/
lemma init_ok (p : Pic) : p.i8259Init.MasterOk ∧ p.i8259Init.SlaveOk := by
  have two : p.initWords.enableIrq 2 =
      (p.initWords.setMaster (cleared p.initWords.masterMask 2)).setSlave 0 := by
    rw [enableIrq_eq, if_neg (by omega), if_pos (by omega), if_pos rfl]
  have m : (p.initWords.enableIrq 2).MasterOk := by
    rw [two]
    exact (masterOk_setMaster (master_initWords p)).setSlave
  have s : (p.initWords.enableIrq 2).SlaveOk := by
    rw [two]
    exact slaveOk_setSlave (slave_initWords p)
  exact ⟨m.call (c := .enable 8), s.call (c := .enable 8) not_disablesSlave_enable⟩

/-- `i8259_init` writes one command to each chip. -/
lemma commands_init :
    (start master slave).i8259Init.commands = [(slave8259Port, icw1), (master8259Port, icw1)] := by
  have enable :
      (start master slave).i8259Init.commands = (start master slave).initWords.commands :=
    (commands_other (c := .enable 8) not_disablesSlave_enable).trans
      (commands_other (c := .enable 2) not_disablesSlave_enable)
  rw [enable]
  simp [commands, initWords, outb, start, master8259Port, slave8259Port]

end Init

end Pic

/-- **Interrupt mask agreement.** After the initialization and any calls, the masks the kernel keeps
are those of the chips, and every line disabled last is masked, exactly when no line of the slave
was disabled. -/
theorem masks_agree_iff (master slave : Chip) (cs : List PicCall) :
    MasksAgree (Pic.start master slave).i8259Init cs ↔ ∀ c ∈ cs, ¬ c.DisablesSlave := by
  constructor
  · intro h
    refine (Pic.commands_calls (p := (Pic.start master slave).i8259Init)).2 ?_
    rw [h.agrees.commands, Pic.commands_init]
  · intro all
    obtain ⟨m, s⟩ := (Pic.start master slave).init_ok
    obtain ⟨m', s', commands⟩ := Pic.agree_calls m s all
    refine ⟨⟨m'.last, s'.last, commands.trans Pic.commands_init⟩, ?_⟩
    rintro irq hi two ⟨pre, post, rfl, last⟩
    have low : irq ≤ 7 := by
      by_contra high
      refine all (.disable irq) ?_ ⟨irq, by omega, hi, rfl⟩
      exact List.mem_append_right _ List.mem_cons_self
    have not_enabled : ∀ c ∈ post, c ≠ .enable irq := by
      rintro c hc rfl
      exact (last _ hc).1 rfl
    rw [Pic.Masked, if_pos low, m'.chip, Pic.calls_append]
    exact Pic.masterMask_calls post low two not_enabled (Pic.masterMask_disable low)

/-- After `disable_irq(8)` the kernel takes the line of the rtc for masked, and the slave does
not. -/
theorem not_always_masks_agree :
    ¬ ∀ master slave cs, MasksAgree (Pic.start master slave).i8259Init cs := by
  intro h
  have masked := (h ⟨0, 0⟩ ⟨0, 0⟩ [.disable 8]).masked 8 (by omega) (by omega)
    ⟨[], [], rfl, fun c hc => absurd hc List.not_mem_nil⟩
  exact absurd masked (by decide +kernel)

end Kernel391
