import Kernel391.Base.While
import Mathlib.Algebra.Group.Nat.Defs
import Mathlib.Logic.Function.Basic
import Mathlib.Logic.Function.Iterate

/-!
# A 32-bit x86 processor

The registers and flags of a processor in protected mode with flat segments, and the instructions
hand-written routines are made of. A listing is a list of instructions and labels, as the assembler
reads it; `step` executes the instruction at its head, and a jump goes on behind its label. Code
outside the listing, called or trapped to, is a parameter. `Finishes` says that a listing runs to
its end and what holds there, with one rule for each way an instruction goes on.
-/

namespace Kernel391.Base

/-- The general registers. -/
inductive Reg where
  | eax | ecx | edx | ebx | esp | ebp | esi | edi
  deriving DecidableEq

/-- The flags that instructions set and test here; the parity and adjust flags are left out. -/
structure Flags where
  carry : Bool
  zero : Bool
  sign : Bool
  interrupt : Bool
  direction : Bool
  overflow : Bool

/-- A processor and its memory. `eip` is where it goes on behind the listing. -/
structure Cpu where
  reg : Reg → BitVec 32
  flags : Flags
  eip : BitVec 32
  cs : BitVec 16
  ss : BitVec 16
  ds : BitVec 16
  es : BitVec 16
  mem : BitVec 32 → UInt8

/-! ## Memory -/

/-- Byte `i` of a word, counted from the lowest. -/
def byteOf (w : BitVec 32) (i : Nat) : UInt8 := UInt8.ofNat (w.toNat / 2 ^ (8 * i))

/-- The memory after the `k` low bytes of `w` were stored at `a`. -/
def storeBytes (m : BitVec 32 → UInt8) (a : BitVec 32) (k : Nat) (w : BitVec 32) :
    BitVec 32 → UInt8 := fun x =>
  if (x - a).toNat < k then byteOf w (x - a).toNat else m x

/-- The memory after `k` bytes were read at `src` and then stored at `dst`. -/
def copyBytes (m : BitVec 32 → UInt8) (dst src : BitVec 32)
    (k : Nat) : BitVec 32 → UInt8 := fun x =>
  if (x - dst).toNat < k then m (src + (x - dst)) else m x

/-- The word at `a`. -/
def loadWord (m : BitVec 32 → UInt8) (a : BitVec 32) : BitVec 32 :=
  BitVec.ofNat 32 ((m a).toNat + 2 ^ 8 * (m (a + 1)).toNat + 2 ^ 16 * (m (a + 2)).toNat
    + 2 ^ 24 * (m (a + 3)).toNat)

/-! ## Registers and flags -/

namespace Cpu

/-- `movl` of a value to a register. -/
def set (c : Cpu) (r : Reg) (v : BitVec 32) : Cpu := { c with reg := Function.update c.reg r v }

/-- The processor with another memory. -/
def put (c : Cpu) (m : BitVec 32 → UInt8) : Cpu := { c with mem := m }

/-- The flags of a logical operation with result `v`. -/
def logic (c : Cpu) (v : BitVec 32) : Cpu :=
  { c with
    flags :=
      { c.flags with carry := false, zero := v == 0, sign := v.msb, overflow := false } }

/-- The flags of the subtraction `v - w`. -/
def compare (c : Cpu) (v w : BitVec 32) : Cpu :=
  { c with
    flags :=
      { c.flags with
        carry := v.ult w
        zero := v - w == 0
        sign := (v - w).msb
        overflow := BitVec.ssubOverflow v w } }

/-- The flags of the addition `v + w`. -/
def addFlags (c : Cpu) (v w : BitVec 32) : Cpu :=
  { c with
    flags :=
      { c.flags with
        carry := BitVec.uaddOverflow v w
        zero := v + w == 0
        sign := (v + w).msb
        overflow := BitVec.saddOverflow v w } }

/-- What a string instruction on `k` bytes adds to its pointers. -/
def stride (c : Cpu) (k : Nat) : BitVec 32 :=
  if c.flags.direction then - BitVec.ofNat 32 k else BitVec.ofNat 32 k

/-- One `stos` of `k` bytes under a `rep` prefix. -/
def stos (k : Nat) (c : Cpu) : Cpu :=
  ((c.put (storeBytes c.mem (c.reg .edi) k (c.reg .eax))).set .edi
    (c.reg .edi + c.stride k)).set .ecx
    (c.reg .ecx - 1)

/-- One `movs` of `k` bytes under a `rep` prefix. -/
def movs (k : Nat) (c : Cpu) : Cpu :=
  (((c.put (copyBytes c.mem (c.reg .edi) (c.reg .esi) k)).set .edi
    (c.reg .edi + c.stride k)).set .esi
    (c.reg .esi + c.stride k)).set .ecx (c.reg .ecx - 1)

/-- A string instruction under a `rep` prefix. It goes through `es`, which has to select the segment
`ds` does. -/
def rep (f : Cpu → Cpu) (c : Cpu) : Option Cpu :=
  if c.es = c.ds then some (f^[(c.reg .ecx).toNat] c) else none

/-- `pushl` of a value. -/
def push (c : Cpu) (w : BitVec 32) : Cpu :=
  (c.put (storeBytes c.mem (c.reg .esp - 4) 4 w)).set .esp (c.reg .esp - 4)

/-- The word on top of the stack. -/
def top (c : Cpu) : BitVec 32 := loadWord c.mem (c.reg .esp)

/-- The processor with the top of the stack removed. -/
def drop (c : Cpu) : Cpu := c.set .esp (c.reg .esp + 4)

/-- `popl`; for `popl %esp` the popped value wins. -/
def pop (c : Cpu) (r : Reg) : Cpu := c.drop.set r c.top

/-- A register after another, or the same, was set. -/
@[simp] lemma reg_set (c : Cpu) (r s : Reg) (v : BitVec 32) :
    (c.set r v).reg s = if s = r then v else c.reg s := Function.update_apply ..

/-- A push leaves the other registers alone. -/
lemma reg_push (c : Cpu) (w : BitVec 32) {r : Reg} (hr : r ≠ .esp) :
    (c.push w).reg r = c.reg r := by
  rw [push, reg_set, if_neg hr]
  rfl

end Cpu

/-- The flags register. Bit 1 is always set. -/
def Flags.word (f : Flags) : BitVec 32 :=
  BitVec.ofNat 32 (2 + f.carry.toNat + 2 ^ 6 * f.zero.toNat + 2 ^ 7 * f.sign.toNat
    + 2 ^ 9 * f.interrupt.toNat + 2 ^ 10 * f.direction.toNat + 2 ^ 11 * f.overflow.toNat)

/-- The flags a word in the flags register stands for. -/
def Flags.ofWord (w : BitVec 32) : Flags where
  carry := w.getLsbD 0
  zero := w.getLsbD 6
  sign := w.getLsbD 7
  interrupt := w.getLsbD 9
  direction := w.getLsbD 10
  overflow := w.getLsbD 11

/-- The flags come back from the word they are pushed as. -/
lemma Flags.ofWord_word (f : Flags) : Flags.ofWord f.word = f := by
  obtain ⟨c, z, s, i, d, o⟩ := f
  revert c z s i d o
  simp only [Flags.ofWord, Flags.mk.injEq]
  decide

/-! ## Listings -/

/-- The instructions, in the order of operands the assembler takes: source before destination. `L`
are the labels of a listing and `F` the routines outside it. -/
inductive Instr (L F : Type) where
  | label (l : L)
  | jz (l : L)
  | jae (l : L)
  | jg (l : L)
  | jl (l : L)
  | jmp (l : L)
  | testl (s d : Reg)
  | testlImm (i : BitVec 32) (d : Reg)
  | cmpl (s d : Reg)
  | cmplImm (i : BitVec 32) (d : Reg)
  | movl (s d : Reg)
  | movlImm (i : BitVec 32) (d : Reg)
  /-- `movl disp(s), d` -/
  | movlLoad (disp : BitVec 32) (s d : Reg)
  /-- `leal disp(b, i), d` -/
  | leal (disp : BitVec 32) (b i d : Reg)
  | addl (i : BitVec 32) (d : Reg)
  | subl (i : BitVec 32) (d : Reg)
  | andl (i : BitVec 32) (d : Reg)
  | shrl (n : Nat) (d : Reg)
  /-- `movb` of the low byte of `s` to the byte at `d` -/
  | movbStore (s d : Reg)
  /-- `movb` of the byte at `s` to the low byte of `d` -/
  | movbLoad (s d : Reg)
  /-- `movw %ds` to the low half of `d` -/
  | movwDs (d : Reg)
  /-- `movw` of the low half of `s` to `%es` -/
  | movwEs (s : Reg)
  | cld
  | std
  | repStosl
  | repStosw
  | repMovsl
  | repMovsb
  | pushl (s : Reg)
  | popl (d : Reg)
  | pushal
  | popal
  | pushfl
  | popfl
  | call (f : F)
  /-- `call *table(, r, 4)`; a missing entry is no routine -/
  | callTable (table : List (Option F)) (r : Reg)
  | int (n : Nat)
  | ret
  | iret

/-- The code outside a listing: what a called routine and a trap do up to their return, and the
return address a call pushes. -/
structure Outside (F : Type) where
  call : F → Cpu → Option Cpu
  trap : Nat → Cpu → Option Cpu
  back : BitVec 32

section Machine

variable {L F : Type}

/-- What a call does: the routine finds its return address on the stack and has taken it off when it
comes back. -/
def Outside.enter (o : Outside F) (f : F) (c : Cpu) : Option Cpu := o.call f (c.push o.back)

/-- The processor after `pushal`; the stack pointer pushed is the one before. -/
def Cpu.pushAll (c : Cpu) : Cpu :=
  [Reg.eax, .ecx, .edx, .ebx, .esp, .ebp, .esi, .edi].foldl (fun d r => d.push (c.reg r)) c

/-- The processor after `popal`; the stack pointer stored is skipped. -/
def Cpu.popAll (c : Cpu) : Cpu :=
  (((((((c.pop .edi).pop .esi).pop .ebp).drop.pop .ebx).pop .edx).pop .ecx).pop .eax)

/-- The processor after `ret`. -/
def Cpu.callReturn (c : Cpu) : Cpu := { c.drop with eip := c.top }

/-- The processor after `iret`: the stack pointer is popped, too, when the privilege changes. -/
def Cpu.interruptReturn (c : Cpu) : Cpu :=
  let c₁ := { c.drop with eip := c.top }
  let c₂ := { c₁.drop with cs := c₁.top.setWidth 16 }
  let c₃ := { c₂.drop with flags := Flags.ofWord c₂.top }
  if c.cs.toNat % 4 < c₃.cs.toNat % 4 then { c₃.set .esp c₃.top with ss := c₃.drop.top.setWidth 16 }
  else c₃

/-- What an instruction that goes on with the next one does; `none` is a fault. -/
def Instr.run (o : Outside F) (c : Cpu) : Instr L F → Option Cpu
  | .testl s d => some (c.logic (c.reg s &&& c.reg d))
  | .testlImm i d => some (c.logic (i &&& c.reg d))
  | .cmpl s d => some (c.compare (c.reg d) (c.reg s))
  | .cmplImm i d => some (c.compare (c.reg d) i)
  | .movl s d => some (c.set d (c.reg s))
  | .movlImm i d => some (c.set d i)
  | .movlLoad disp s d => some (c.set d (loadWord c.mem (c.reg s + disp)))
  | .leal disp b i d => some (c.set d (disp + c.reg b + c.reg i))
  | .addl i d => some ((c.addFlags (c.reg d) i).set d (c.reg d + i))
  | .subl i d => some ((c.compare (c.reg d) i).set d (c.reg d - i))
  | .andl i d => some ((c.logic (i &&& c.reg d)).set d (i &&& c.reg d))
  | .shrl n d =>
    let v := c.reg d >>> n
    let carry := (c.reg d).getLsbD (n - 1)
    some { c.set d v with flags := { c.flags with carry := carry, zero := v == 0, sign := v.msb } }
  | .movbStore s d => some (c.put (storeBytes c.mem (c.reg d) 1 (c.reg s)))
  | .movbLoad s d =>
    some (c.set d (BitVec.ofNat 32 ((c.reg d).toNat / 2 ^ 8 * 2 ^ 8 + (c.mem (c.reg s)).toNat)))
  | .movwDs d => some (c.set d (BitVec.ofNat 32 ((c.reg d).toNat / 2 ^ 16 * 2 ^ 16 + c.ds.toNat)))
  | .movwEs s => some { c with es := (c.reg s).setWidth 16 }
  | .cld => some { c with flags := { c.flags with direction := false } }
  | .std => some { c with flags := { c.flags with direction := true } }
  | .repStosl => c.rep (Cpu.stos 4)
  | .repStosw => c.rep (Cpu.stos 2)
  | .repMovsl => c.rep (Cpu.movs 4)
  | .repMovsb => c.rep (Cpu.movs 1)
  | .pushl s => some (c.push (c.reg s))
  | .popl d => some (c.pop d)
  | .pushal => some c.pushAll
  | .popal => some c.popAll
  | .pushfl => some (c.push c.flags.word)
  | .popfl => some { c.drop with flags := Flags.ofWord c.top }
  | .call f => o.enter f c
  | .callTable table r => (table[(c.reg r).toNat]?.join).bind fun f => o.enter f c
  | .int n => o.trap n c
  | .ret => some c.callReturn
  | .iret => some c.interruptReturn
  | _ => some c

/-- The label an instruction jumps to, if it does. -/
def Instr.target (c : Cpu) : Instr L F → Option L
  | .jz l => if c.flags.zero then some l else none
  | .jae l => if c.flags.carry then none else some l
  | .jg l => if c.flags.zero = false ∧ c.flags.sign = c.flags.overflow then some l else none
  | .jl l => if c.flags.sign = c.flags.overflow then none else some l
  | .jmp l => some l
  | _ => none

/-! ### Signed comparisons -/

/-- The flags that a signed comparison tests. -/
lemma sign_eq_overflow_iff (v w : BitVec 32) :
    (v - w).msb = BitVec.ssubOverflow v w ↔ w.toInt ≤ v.toInt := by
  have low := BitVec.le_toInt v
  have high := BitVec.toInt_lt (x := v)
  have low' := BitVec.le_toInt w
  have high' := BitVec.toInt_lt (x := w)
  have difference := BitVec.toInt_sub (x := v) (y := w)
  rw [Int.bmod_def] at difference
  rw [BitVec.msb_eq_toInt, BitVec.ssubOverflow]
  simp only [Nat.add_one_sub_one] at *
  have sign : decide ((v - w).toInt < 0) = (decide (v.toInt - w.toInt ≥ 2 ^ 31) || decide
    (v.toInt - w.toInt < - 2 ^ 31))
      ↔ ((v - w).toInt < 0 ↔ (v.toInt - w.toInt ≥ 2 ^ 31 ∨ v.toInt - w.toInt < - 2 ^ 31)) := by
    rw [← Bool.decide_or, decide_eq_decide]
  rw [sign]
  split_ifs at difference <;> omega

/-- `jg` behind a comparison. -/
lemma target_jg (l : L) (c : Cpu) (v w : BitVec 32) :
    (Instr.jg l : Instr L F).target (c.compare v w) = if w.toInt < v.toInt then some l
      else none := by
  have zero : (v - w == 0#32) = false ↔ v.toInt ≠ w.toInt := by
    rw [beq_eq_false_iff_ne, ne_eq, ne_eq, BitVec.toInt_inj, BitVec.sub_eq_iff_eq_add,
      BitVec.zero_add]
  have above : ((c.compare v w).flags.zero = false ∧
      (c.compare v w).flags.sign = (c.compare v w).flags.overflow) ↔ w.toInt < v.toInt := by
    show ((v - w == 0#32) = false ∧ (v - w).msb = BitVec.ssubOverflow v w) ↔ _
    rw [zero, sign_eq_overflow_iff]
    omega
  exact if_congr above rfl rfl

/-- `jl` behind a comparison. -/
lemma target_jl (l : L) (c : Cpu) (v w : BitVec 32) :
    (Instr.jl l : Instr L F).target (c.compare v w) = if v.toInt < w.toInt then some l
      else none := by
  show (if (v - w).msb = BitVec.ssubOverflow v w then none else some l) = _
  by_cases below : v.toInt < w.toInt
  · rw [if_pos below, if_neg (by rw [sign_eq_overflow_iff]; omega)]
  · rw [if_neg below, if_pos (by rw [sign_eq_overflow_iff]; omega)]

/-- The instruction is the last one the listing executes. -/
def Instr.leaves : Instr L F → Bool
  | .ret => true
  | .iret => true
  | _ => false

/-- What stands behind label `l`. -/
def after [DecidableEq L] (l : L) : List (Instr L F) → Option (List (Instr L F))
  | [] => none
  | .label l' :: is => if l' = l then some is else after l is
  | _ :: is => after l is

variable [DecidableEq L] (o : Outside F) (listing : List (Instr L F))

/-- One instruction of a listing: the code to go on with and the processor after it. -/
def step : List (Instr L F) × Cpu → Option (List (Instr L F) × Cpu)
  | ([], _) => none
  | (i :: is, c) =>
    match i.target c with
    | some l => (after l listing).map (·, c)
    | none => (i.run o c).map (if i.leaves then [] else is, ·)

/-- The listing, entered at `code`, runs to its end, and `Q` holds of the processor there. -/
def Finishes (Q : Cpu → Prop) (code : List (Instr L F)) (c : Cpu) : Prop :=
  ∃ n c', whileLoop (fun x => !x.1.isEmpty) (step o listing) n (code, c) = some ([], c') ∧ Q c'

section Rules

variable {o listing} {Q Q' : Cpu → Prop} {i : Instr L F} {is code : List (Instr L F)}
  {c c' : Cpu} {l : L}

/-- A listing at its end has finished. -/
lemma Finishes.done (h : Q c) : Finishes o listing Q [] c :=
  ⟨0, c, whileLoop_stop 0 rfl, h⟩

/-- One instruction, and then the rest. -/
lemma Finishes.step (st : step o listing (i :: is, c) = some (code, c'))
    (rest : Finishes o listing Q code c') : Finishes o listing Q (i :: is) c := by
  obtain ⟨n, c'', run, h⟩ := rest
  exact ⟨n + 1, c'', (whileLoop_pass rfl st).trans run, h⟩

/-- An instruction that goes on with the next one. -/
lemma Finishes.next (stay : i.target c = none) (more : i.leaves = false) (run : i.run o c = some c')
    (rest : Finishes o listing Q is c') : Finishes o listing Q (i :: is) c := by
  refine .step ?_ rest
  rw [Base.step, stay, run]
  dsimp only
  rw [more]
  rfl

/-- An instruction that leaves the listing. -/
lemma Finishes.leave (stay : i.target c = none) (last : i.leaves = true) (run : i.run o c = some c')
    (h : Q c') : Finishes o listing Q (i :: is) c := by
  refine .step ?_ (.done h)
  rw [Base.step, stay, run]
  dsimp only
  rw [last]
  rfl

/-- A jump. -/
lemma Finishes.jump (go : i.target c = some l) (found : after l listing = some code)
    (rest : Finishes o listing Q code c) : Finishes o listing Q (i :: is) c := by
  refine .step ?_ rest
  rw [Base.step, go]
  dsimp only
  rw [found]
  rfl

/-- What holds at the end can be weakened. -/
lemma Finishes.mono (imp : ∀ c, Q c → Q' c) (h : Finishes o listing Q code c) :
    Finishes o listing Q' code c := by
  obtain ⟨n, c', run, hc⟩ := h
  exact ⟨n, c', run, imp c' hc⟩

/-- A loop that comes back to its head with one pass less to make. -/
lemma Finishes.counted {P : Nat → Cpu → Prop} (exit : ∀ c, P 0 c → Finishes o listing Q code c)
    (pass : ∀ k c, P (k + 1) c → (∀ c', P k c' → Finishes o listing Q code c') →
      Finishes o listing Q code c) (k : Nat) (c : Cpu) (h : P k c) :
    Finishes o listing Q code c := by
  induction k generalizing c with
  | zero => exact exit c h
  | succ k ih => exact pass k c h ih

end Rules

end Machine

end Kernel391.Base
