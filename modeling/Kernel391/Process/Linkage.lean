import Kernel391.Model.Linkage

/-!
# Into the kernel and back

A system call from user code and back: the wrapper loads the arguments into registers and traps
(`doCall`), the gate and `systemcall` bring them to the kernel's stack, the routine of that number
runs, and `iret` and `ret` lead back (`system_call`). A number without a routine returns -1 and
changes nothing else (`systemcall_invalid`), and the wrappers of the interrupts give the interrupted
code back what it had (`interrupt_transparent`).
-/

namespace Kernel391
open Base

variable {o : Outside Routine} {Q : Cpu → Prop} {u c d : Cpu} {g : Gate} {t : TaskStack}
  {f : Routine}
  {ws : List (BitVec 32)}

/-- The registers `systemcall` pushes, from the top of the stack down, on a stack that ends at
`esp`. -/
def callWords (c : Cpu) : List (BitVec 32) :=
  [c.reg .ebx, c.reg .ecx, c.reg .edx, c.reg .esp - 8, c.reg .edi, c.reg .esi]

/-- The processor after the six pushes. -/
def pushWords (c : Cpu) : Cpu :=
  let c₁ := (c.push (c.reg .esi)).push (c.reg .edi)
  (((c₁.push (c₁.reg .esp)).push (c.reg .edx)).push (c.reg .ecx)).push (c.reg .ebx)

/-- The six pushes put their words above those that were there. -/
lemma stacked_pushWords (h : c.Stacked ws) (room : ws.length + 6 < 2 ^ 30) :
    (pushWords c).Stacked (callWords c ++ ws) := by
  have esp : ((c.push (c.reg .esi)).push (c.reg .edi)).reg .esp = c.reg .esp - 8 := by
    show c.reg .esp - 4 - 4 = c.reg .esp - 8
    bv_omega
  have two := (h.push (by omega) (c.reg .esi)).push (by simp; omega) (c.reg .edi)
  have three := two.push (by simp; omega) (c.reg .esp - 8)
  rw [pushWords, esp]
  exact ((three.push (by simp; omega) (c.reg .edx)).push (by simp; omega) (c.reg .ecx)).push
    (by simp; omega) (c.reg .ebx)

/-- The processor after the six pops. -/
def popWords (c d : Cpu) : Cpu :=
  { d with
    reg := fun
      | .eax => d.reg .eax
      | .ebp => d.reg .ebp
      | r => c.reg r }

/-- Behind `done`: the registers are popped, and `iret` ends the call. -/
lemma finishes_done (h : d.Stacked (callWords c ++ ws)) (esp : d.reg .esp = c.reg .esp - 24)
    (done : (popWords c d).Stacked ws → Q (popWords c d).interruptReturn) :
    Finishes o systemcall Q (systemcall.drop 12) d := by
  obtain ⟨e₁, h₁⟩ := Cpu.Stacked.pop h (r := .ebx) (by decide)
  obtain ⟨e₂, h₂⟩ := Cpu.Stacked.pop h₁ (r := .ecx) (by decide)
  obtain ⟨e₃, h₃⟩ := Cpu.Stacked.pop h₂ (r := .edx) (by decide)
  -- the value popped is the one the stack pointer has
  have own : c.reg .esp - 8 = d.reg .esp + 4 + 4 + 4 + 4 := by
    rw [esp]
    bv_omega
  have e₄ := h₃.pop_esp own
  obtain ⟨e₅, h₅⟩ := Cpu.Stacked.pop h₃.drop (r := .edi) (by decide)
  obtain ⟨e₆, h₆⟩ := Cpu.Stacked.pop h₅ (r := .esi) (by decide)
  refine .next rfl rfl (congrArg some e₁) (.next rfl rfl (congrArg some e₂) ?_)
  refine .next rfl rfl (congrArg some e₃) (.next rfl rfl (congrArg some e₄) ?_)
  refine .next rfl rfl (congrArg some e₅) (.next rfl rfl (congrArg some e₆) (.leave rfl rfl rfl ?_))
  have back : (((((d.popped .ebx (c.reg .ebx)).popped .ecx (c.reg .ecx)).popped .edx
      (c.reg .edx)).drop.popped .edi (c.reg .edi)).popped .esi (c.reg .esi)) = popWords c d := by
    simp only [Cpu.popped, Cpu.drop, Cpu.set, popWords, Cpu.mk.injEq, and_true]
    funext r
    cases r with
    | esp =>
      show d.reg .esp + 4 + 4 + 4 + 4 + 4 + 4 = c.reg .esp
      rw [esp]
      bv_omega
    | _ => rfl
  rw [back] at h₆ ⊢
  exact done h₆

/-- Behind a gate, with the registers pushed: what a system call has on the kernel stack. -/
lemma stacked_service (u : Cpu) (g : Gate) (t : TaskStack) :
    (pushWords (u.accept g t)).Stacked (callWords (u.accept g t) ++ u.frame g) := by
  have frame := stacked_accept (c := u) (g := g) (t := t) Cpu.Stacked.nil (by simp)
  rw [ite_self, List.append_nil] at frame
  have length := length_frame (c := u) (g := g)
  exact stacked_pushWords frame (by omega)

/-- `systemcall` with the registers pushed. -/
lemma finishes_pushWords (h : Finishes o systemcall Q (systemcall.drop 6) (pushWords c)) :
    Finishes o systemcall Q systemcall c := by
  refine .next rfl rfl rfl (.next rfl rfl rfl (.next rfl rfl rfl ?_))
  refine .next rfl rfl rfl (.next rfl rfl rfl (.next rfl rfl rfl ?_))
  exact h

/-- The state in which the routine of a system call starts. -/
def serviceEntry (kernel : Outside Routine) (u : Cpu) (g : Gate) (t : TaskStack) : Cpu :=
  ((pushWords (u.accept g t)).compare (u.reg .eax) 1).push kernel.back

/-- What user code goes on with behind a system call: everything is as before, but `eax`, memory and
the data segments are as the call left them. -/
def resumed (u d : Cpu) (g : Gate) (eax : BitVec 32) : Cpu :=
  { d with
    reg := fun r => if r = .eax then eax else u.reg r
    eip := u.eip
    cs := u.cs
    flags := u.flags
    ss := if u.Outer g then u.ss else d.ss }

/-- Taking a gate changes no register but the stack pointer. -/
lemma reg_accept (u : Cpu) (g : Gate) (t : TaskStack) {r : Reg} (hr : r ≠ .esp) :
    (u.accept g t).reg r = u.reg r := by
  rw [Cpu.accept]
  split_ifs <;> simp only [Cpu.reg_push _ _ hr, Cpu.reg_set, if_neg hr]

/-- The pushes change no register but the stack pointer. -/
lemma reg_pushWords (c : Cpu) {r : Reg} (hr : r ≠ .esp) : (pushWords c).reg r = c.reg r := by
  simp only [pushWords, Cpu.reg_push _ _ hr]

/-- The result is handed back to where the call came from. -/
lemma resumed_eq {x : Cpu} (h : x.Stacked (u.frame g)) (esp : x.reg .esp = (u.accept g t).reg .esp)
    (reg : ∀ r, r ≠ .esp → r ≠ .eax → x.reg r = u.reg r) (cs : x.cs = g.selector) :
    x.interruptReturn = resumed u x g (x.reg .eax) := by
  rw [interruptReturn_frame h cs esp, resumed]
  have regs : (x.set .esp (u.reg .esp)).reg = fun r => if r = .eax then x.reg .eax
    else u.reg r := by
    funext r
    rw [Cpu.reg_set]
    by_cases stack : r = .esp
    · subst stack
      rfl
    · rw [if_neg stack]
      by_cases result : r = .eax
      · rw [if_pos result, result]
      · rw [if_neg result]
        exact reg r stack result
  rw [← regs]
  rfl

/-- The registers popped, the call returns. -/
lemma finishes_return {eax : BitVec 32} (h : d.Stacked (callWords (u.accept g t) ++ u.frame g))
    (esp : d.reg .esp = (u.accept g t).reg .esp - 24) (ebp : d.reg .ebp = u.reg .ebp)
    (cs : d.cs = g.selector) (result : d.reg .eax = eax) (done : Q (resumed u d g eax)) :
    Finishes o systemcall Q (systemcall.drop 12) d := by
  refine finishes_done h esp fun frame => ?_
  have same : (popWords (u.accept g t) d).reg .eax = eax := result
  rw [resumed_eq (t := t) frame rfl ?_ cs, same]
  · exact done
  · intro r stack result
    cases r with
    | eax => exact absurd rfl result
    | esp => exact absurd rfl stack
    | ebp => exact ebp
    | _ => exact reg_accept u g t stack

/-- The two comparisons let a number of `sysJumpTable` through. -/
lemma finishes_valid (low : 1 ≤ (c.reg .eax).toInt) (high : (c.reg .eax).toInt ≤ 10)
    (h : Finishes o systemcall Q (systemcall.drop 10) (c.compare (c.reg .eax) 1)) :
    Finishes o systemcall Q (systemcall.drop 6) c := by
  have ten : (10 : BitVec 32).toInt = 10 := rfl
  have one : (1 : BitVec 32).toInt = 1 := rfl
  have stay : (Instr.jg CallLabel.invalid : Instr CallLabel Routine).target
    (c.compare (c.reg .eax) 10) = none := by
    rw [target_jg, if_neg (by omega)]
  have stay' : (Instr.jl CallLabel.invalid : Instr CallLabel Routine).target
    (c.compare (c.reg .eax) 1) = none := by
    rw [target_jl, if_neg (by omega)]
  refine .next rfl rfl rfl (.next stay rfl rfl (.next rfl rfl rfl (.next stay' rfl rfl ?_)))
  exact h

/-- Any other number makes `eax` -1. -/
lemma finishes_invalid (bad : ¬ (1 ≤ (c.reg .eax).toInt ∧ (c.reg .eax).toInt ≤ 10))
    (h : ∀ d, d.reg = (c.set .eax (-1)).reg → d.mem = c.mem → d.cs = c.cs → d.ss = c.ss →
    d.ds = c.ds →
      d.es = c.es → Finishes o systemcall Q (systemcall.drop 12) d) :
    Finishes o systemcall Q (systemcall.drop 6) c := by
  have ten : (10 : BitVec 32).toInt = 10 := rfl
  have one : (1 : BitVec 32).toInt = 1 := rfl
  refine .next rfl rfl rfl ?_
  by_cases above : 10 < (c.reg .eax).toInt
  · have go : (Instr.jg CallLabel.invalid : Instr CallLabel Routine).target
      (c.compare (c.reg .eax) 10) =
        some .invalid := by rw [target_jg, if_pos (by omega)]
    refine .jump go rfl (.next rfl rfl rfl (.jump rfl rfl ?_))
    exact h _ rfl rfl rfl rfl rfl rfl
  · have stay : (Instr.jg CallLabel.invalid : Instr CallLabel Routine).target
      (c.compare (c.reg .eax) 10) = none := by
      rw [target_jg, if_neg (by omega)]
    have go : (Instr.jl CallLabel.invalid : Instr CallLabel Routine).target
      (c.compare (c.reg .eax) 1) =
        some .invalid := by rw [target_jl, if_pos (by omega)]
    refine .next stay rfl rfl
      (.next rfl rfl rfl (.jump go rfl (.next rfl rfl rfl (.jump rfl rfl ?_))))
    exact h _ rfl rfl rfl rfl rfl rfl

/-- The pushes take 24 bytes. -/
lemma esp_pushWords (c : Cpu) : (pushWords c).reg .esp = c.reg .esp - 24 := by
  show c.reg .esp - 4 - 4 - 4 - 4 - 4 - 4 = c.reg .esp - 24
  bv_omega

/-- A system call puts at most eleven words on the kernel's stack. -/
lemma length_service : (callWords (u.accept g t) ++ u.frame g).length ≤ 11 := by
  have frame := length_frame (c := u) (g := g)
  rw [List.length_append]
  show 6 + _ ≤ 11
  omega

/-- The routine finds the registers of the caller, but for the stack pointer. -/
lemma reg_serviceEntry (o : Outside Routine) (u : Cpu) (g : Gate) (t : TaskStack) {r : Reg}
    (hr : r ≠ .esp) :
    (serviceEntry o u g t).reg r = u.reg r := by
  have flags (c : Cpu) (v w : BitVec 32) : (c.compare v w).reg = c.reg := rfl
  rw [serviceEntry, Cpu.reg_push _ _ hr, flags, reg_pushWords _ hr, reg_accept _ _ _ hr]

/-- The routine's stack pointer is 28 bytes below what the gate left. -/
lemma esp_serviceEntry (o : Outside Routine) (u : Cpu) (g : Gate) (t : TaskStack) :
    (serviceEntry o u g t).reg .esp = (u.accept g t).reg .esp - 28 := by
  show (pushWords (u.accept g t)).reg .esp - 4 = _
  rw [esp_pushWords]
  bv_omega

/-- The routine runs in the segment of the gate. -/
lemma cs_serviceEntry (o : Outside Routine) (u : Cpu) (g : Gate) (t : TaskStack) :
    (serviceEntry o u g t).cs = g.selector := rfl

/-- What the routine of a system call finds on its stack. -/
lemma stacked_serviceEntry (o : Outside Routine) (u : Cpu) (g : Gate) (t : TaskStack) :
    (serviceEntry o u g t).Stacked (o.back :: (callWords (u.accept g t) ++ u.frame g)) := by
  have length := length_service (u := u) (g := g) (t := t)
  exact ((stacked_service u g t).congr rfl rfl).push (by omega) o.back

/-- A valid number: the routine is called, and its result returned. -/
lemma finishes_systemcall {n : Nat} (h1 : 1 ≤ n) (h10 : n ≤ 10)
    (eax : u.reg .eax = BitVec.ofNat 32 n) (entry : sysJumpTable[n]? = some (some f))
    (call : o.call f (serviceEntry o u g t) = some d) (ret : Returns 11 (serviceEntry o u g t) d)
    (done : Q (resumed u d g (d.reg .eax))) :
    Finishes o systemcall Q systemcall (u.accept g t) := by
  have reg : (pushWords (u.accept g t)).reg .eax = u.reg .eax := by
    rw [reg_pushWords _ (by decide), reg_accept _ _ _ (by decide)]
  have number : (u.reg .eax).toInt = n := by
    rw [eax, BitVec.toInt_eq_toNat_cond, BitVec.toNat_ofNat]
    split_ifs <;> omega
  have value : (u.reg .eax).toNat = n := by
    rw [eax, BitVec.toNat_ofNat]
    omega
  refine finishes_pushWords (finishes_valid (by rw [reg]; omega) (by rw [reg]; omega) ?_)
  have run : (Instr.callTable sysJumpTable .eax : Instr CallLabel Routine).run o
      ((pushWords (u.accept g t)).compare ((pushWords (u.accept g t)).reg .eax) 1) = some d := by
    show (sysJumpTable[((pushWords (u.accept g t)).reg .eax).toNat]?.join).bind _ = some d
    rw [reg, value, entry]
    exact call
  have popped := ret.stacked (stacked_serviceEntry o u g t) length_service (by decide)
  refine .next rfl rfl run (.next rfl rfl rfl (finishes_return popped ?_ ?_ ?_ rfl done))
  · rw [ret.esp, esp_serviceEntry]
    bv_omega
  · rw [ret.ebp, reg_serviceEntry _ _ _ _ (by decide)]
  · exact ret.cs.trans (cs_serviceEntry o u g t)

/-- Where the kernel's part of the stack of a call begins: at the stack of the task state segment,
if the call comes from a less privileged level. -/
def kernelTop (u : Cpu) (g : Gate) (t : TaskStack) : BitVec 32 :=
  if u.Outer g then t.esp0 else u.reg .esp

/-- Behind the gate and the pushes memory has changed in the 44 bytes below that place only. -/
lemma pushed_pushWords (u : Cpu) (g : Gate) (t : TaskStack) :
    ∃ k ≤ 44, Cpu.Pushed (kernelTop u g t) 44 k u (pushWords (u.accept g t)) := by
  have words {c : Cpu} {top : BitVec 32} {k : Nat} (h : Cpu.Pushed top 44 k u c)
    (room : k + 24 ≤ 44) :
      Cpu.Pushed top 44 (k + 24) u (pushWords c) := by
    have two := (h.push (by omega) (by decide) (c.reg .esi)).push (by omega) (by decide)
      (c.reg .edi)
    exact (((two.push (by omega) (by decide) _).push (by omega) (by decide) _).push (by omega)
      (by decide) _).push
      (by omega) (by decide) _
  by_cases outer : u.Outer g
  · have start : Cpu.Pushed t.esp0 44 0 u { u.set .esp t.esp0 with ss := t.ss0 } :=
      ⟨(BitVec.sub_zero _).symm, fun _ _ => rfl⟩
    have old := (start.push (by decide) (by decide) (u.ss.setWidth 32)).push (by decide) (by decide)
      (u.reg .esp)
    have frame := ((old.push (by decide) (by decide) u.flags.word).push (by decide) (by decide)
      (u.cs.setWidth 32)).push (by decide) (by decide) u.eip
    rw [kernelTop, if_pos outer]
    refine ⟨20 + 24, by decide, words ?_ (by decide)⟩
    rw [Cpu.accept, if_pos outer]
    exact ⟨frame.esp, frame.mem⟩
  · have start : Cpu.Pushed (u.reg .esp) 44 0 u u := ⟨(BitVec.sub_zero _).symm, fun _ _ => rfl⟩
    have frame := ((start.push (by decide) (by decide) u.flags.word).push (by decide) (by decide)
      (u.cs.setWidth 32)).push (by decide) (by decide) u.eip
    rw [kernelTop, if_neg outer]
    refine ⟨12 + 24, by decide, words ?_ (by decide)⟩
    rw [Cpu.accept, if_neg outer]
    exact ⟨frame.esp, frame.mem⟩

/-- The call of the routine writes four bytes more. -/
lemma mem_serviceEntry (o : Outside Routine) (u : Cpu) (g : Gate) (t : TaskStack) {x : BitVec 32}
    (far : 48 ≤ (x - (kernelTop u g t - 48)).toNat) : (serviceEntry o u g t).mem x = u.mem x := by
  obtain ⟨k, low, pushed⟩ := pushed_pushWords u g t
  have wide : Cpu.Pushed (kernelTop u g t) 48 k u (pushWords (u.accept g t)) :=
    ⟨pushed.esp, fun y hy => pushed.mem y (by bv_omega)⟩
  exact (wide.push (by omega) (by decide) o.back).mem x far

/-- Taking a gate keeps the data segments, and the stack segment without a change of privilege. -/
lemma segments_accept (u : Cpu) (g : Gate) (t : TaskStack) :
    (u.accept g t).ds = u.ds ∧ (u.accept g t).es = u.es ∧
      (¬ u.Outer g → (u.accept g t).ss = u.ss) := by
  rw [Cpu.accept]
  by_cases outer : u.Outer g
  · rw [if_pos outer]
    exact ⟨rfl, rfl, fun inner => absurd outer inner⟩
  · rw [if_neg outer]
    exact ⟨rfl, rfl, fun _ => rfl⟩

/-! ## A sample machine -/

/-- User code with its stack at `0x8010`. -/
def sampleProgram : Cpu where
  reg := fun r => if r = .esp then 0x8010 else 11
  flags := ⟨false, false, false, true, false, false⟩
  eip := 0x8048000
  cs := 0x23
  ss := 0x2b
  ds := 0x2b
  es := 0x2b
  mem := fun _ => 0

/-- A gate to kernel code. -/
def sampleGate : Gate := ⟨0x10, 0x400000, true⟩

/-- A stack of the kernel. -/
def sampleStack : TaskStack := ⟨0x800000, 0x18⟩

/-- A kernel whose routines all return 5. -/
def sampleKernel : Outside Routine :=
  ⟨fun _ c => some (c.drop.set .eax 5), fun _ _ => none, 0x400100⟩

/-- A routine that returns 5 keeps the calling convention. -/
lemma returns_sample (k : Nat) (c : Cpu) : Returns k c (c.drop.set .eax 5) :=
  ⟨rfl, rfl, rfl, rfl, rfl, rfl, fun _ _ => rfl⟩

/-- **A number without a system call** returns -1 and changes nothing else: no register, no flag,
and no memory but the kernel stack. -/
theorem systemcall_invalid (kernel : Outside Routine) (u : Cpu) (g : Gate) (t : TaskStack)
    (bad : ¬ (1 ≤ (u.reg .eax).toInt ∧ (u.reg .eax).toInt ≤ 10)) :
    Finishes kernel systemcall (fun v => v.reg = (u.set .eax (-1)).reg ∧ v.flags = u.flags ∧
      v.eip = u.eip ∧
      v.cs = u.cs ∧ v.ss = u.ss ∧ v.ds = u.ds ∧ v.es = u.es ∧
      ∀ x, 44 ≤ (x - (kernelTop u g t - 44)).toNat → v.mem x = u.mem x) systemcall
        (u.accept g t) := by
  obtain ⟨k, -, pushed⟩ := pushed_pushWords u g t
  have reg : (pushWords (u.accept g t)).reg .eax = u.reg .eax := by
    rw [reg_pushWords _ (by decide), reg_accept _ _ _ (by decide)]
  refine finishes_pushWords (finishes_invalid (by rwa [reg]) fun d regs mem cs ss ds es => ?_)
  have esp : d.reg .esp = (pushWords (u.accept g t)).reg .esp := by
    rw [regs, Cpu.reg_set, if_neg (by decide)]
  have ebp : d.reg .ebp = u.reg .ebp := by
    rw [regs, Cpu.reg_set, if_neg (by decide), reg_pushWords _ (by decide),
      reg_accept _ _ _ (by decide)]
  have eax : d.reg .eax = -1 := by
    rw [regs, Cpu.reg_set, if_pos rfl]
  have stacked := (stacked_service u g t).congr esp mem
  refine finishes_return stacked (esp.trans (esp_pushWords _)) ebp cs eax
    ⟨?_, rfl, rfl, rfl, ?_, ?_, ?_, ?_⟩
  · funext r
    rw [Cpu.reg_set]
    rfl
  · obtain ⟨-, -, same⟩ := segments_accept u g t
    show (if u.Outer g then u.ss else d.ss) = u.ss
    split_ifs with outer
    · rfl
    · rw [ss]
      exact same outer
  · exact ds.trans (segments_accept u g t).1
  · exact es.trans (segments_accept u g t).2.1
  · intro x far
    show d.mem x = u.mem x
    rw [mem]
    exact pushed.mem x far

/-- The number 11 is refused. -/
theorem systemcall_invalid_sample : Finishes sampleKernel systemcall (fun v =>
    v.reg = (sampleProgram.set .eax (-1)).reg ∧ v.flags = sampleProgram.flags ∧
      v.eip = sampleProgram.eip ∧
      v.cs = sampleProgram.cs ∧ v.ss = sampleProgram.ss ∧ v.ds = sampleProgram.ds ∧
        v.es = sampleProgram.es ∧
      ∀ x, 44 ≤ (x - (kernelTop sampleProgram sampleGate sampleStack - 44)).toNat →
        v.mem x = sampleProgram.mem x)
    systemcall (sampleProgram.accept sampleGate sampleStack) :=
  systemcall_invalid sampleKernel sampleProgram sampleGate sampleStack (by decide)

/-- The state in which the handler of an interrupt starts. -/
def handlerEntry (kernel : Outside Routine) (u : Cpu) (g : Gate) (t : TaskStack) : Cpu :=
  ((u.accept g t).pushAll.push (u.accept g t).flags.word).push kernel.back

/-- **Interrupts are transparent.** When the handler an interrupt wrapper calls keeps the calling
convention, the interrupted code goes on with every register and flag it had. -/
theorem interrupt_transparent (kernel : Outside Routine) (handler : Routine) (u d : Cpu) (g : Gate)
    (t : TaskStack) (call : kernel.call handler (handlerEntry kernel u g t) = some d)
    (ret : Returns 14 (handlerEntry kernel u g t) d) :
    Finishes kernel (irqWrap handler) (fun v => v.reg = u.reg ∧ v.flags = u.flags ∧ v.eip = u.eip ∧
      v.cs = u.cs ∧ (u.Outer g → v.ss = u.ss) ∧ v.mem = d.mem) (irqWrap handler)
        (u.accept g t) := by
  have frame := stacked_accept (c := u) (g := g) (t := t) Cpu.Stacked.nil (by simp)
  rw [ite_self, List.append_nil] at frame
  have length := length_frame (c := u) (g := g)
  have saved := frame.pushAll (by omega)
  have eight : ((u.accept g t).saved ++ u.frame g).length ≤ 13 := by
    rw [List.length_append]
    show 8 + _ ≤ 13
    omega
  have entry := (saved.push (by omega) (u.accept g t).flags.word).push
    (by simp only [List.length_cons]; omega)
    kernel.back
  have left := ret.stacked entry (by rw [List.length_cons]; omega) (by decide)
  obtain ⟨popped, rest⟩ := popAll_saved (d := { d.drop with flags := Flags.ofWord d.top }) left.drop
  have esp : d.reg .esp + 36 = (u.accept g t).reg .esp := by
    rw [ret.esp]
    show (u.accept g t).reg .esp - 4 - 4 - 4 - 4 - 4 - 4 - 4 - 4 - 4 - 4 + 4 + 36 = _
    bv_omega
  rw [popped] at rest
  refine .next rfl rfl rfl (.next rfl rfl rfl (.next rfl rfl call (.next rfl rfl rfl ?_)))
  refine .next rfl rfl (congrArg some popped) (.leave rfl rfl rfl ?_)
  have stack : d.reg .esp + 4 + 32 = (u.accept g t).reg .esp := by
    rw [← esp]
    bv_omega
  rw [interruptReturn_frame (t := t) rest (ret.cs.trans rfl) stack]
  refine ⟨?_, rfl, rfl, rfl, fun outer => if_pos outer, rfl⟩
  funext r
  rw [Cpu.reg_set]
  split_ifs with sp
  · rw [sp]
  · show (if r = .esp then _ else (u.accept g t).reg r) = u.reg r
    rw [if_neg sp, reg_accept _ _ _ sp]

/-- A timer interrupt from user code. -/
theorem interrupt_transparent_sample :
    let d := (handlerEntry sampleKernel sampleProgram sampleGate sampleStack).drop.set .eax 5
    Finishes sampleKernel (irqWrap .pitHandler) (fun v => v.reg = sampleProgram.reg ∧
      v.flags = sampleProgram.flags ∧ v.eip = sampleProgram.eip ∧ v.cs = sampleProgram.cs ∧
      (sampleProgram.Outer sampleGate → v.ss = sampleProgram.ss) ∧ v.mem = d.mem)
      (irqWrap .pitHandler) (sampleProgram.accept sampleGate sampleStack) :=
  interrupt_transparent sampleKernel .pitHandler sampleProgram _ sampleGate sampleStack rfl
    (returns_sample _ _)

/-! ## From user code -/

/-- User code at the `int` instruction of a wrapper it called in `u`. -/
def atInt (number : BitVec 32) (u : Cpu) : Cpu :=
  let c := u.push (u.reg .ebx)
  (((c.set .eax number).set .ebx (loadWord c.mem (c.reg .esp + 8))).set .ecx
    (loadWord c.mem (c.reg .esp + 12))).set .edx (loadWord c.mem (c.reg .esp + 16))

/-- What a wrapper has in registers and on the stack at its `int`. -/
lemma atInt_spec {back a b c : BitVec 32} (number : BitVec 32) (stack : u.Stacked [back, a, b, c]) :
    (atInt number u).Stacked [u.reg .ebx, back] ∧ (atInt number u).reg .eax = number ∧
      (atInt number u).reg .ebx = a ∧ (atInt number u).reg .ecx = b ∧
        (atInt number u).reg .edx = c := by
  have five := stack.push (by simp) (u.reg .ebx)
  have first : loadWord (u.push (u.reg .ebx)).mem ((u.push (u.reg .ebx)).reg .esp + 8) = a :=
    five 2 (by simp)
  have second : loadWord (u.push (u.reg .ebx)).mem ((u.push (u.reg .ebx)).reg .esp + 12) = b :=
    five 3 (by simp)
  have third : loadWord (u.push (u.reg .ebx)).mem ((u.push (u.reg .ebx)).reg .esp + 16) = c :=
    five 4 (by simp)
  have two : (u.push (u.reg .ebx)).Stacked ([u.reg .ebx, back] ++ [a, b, c]) := five
  exact ⟨two.of_append.congr rfl rfl, rfl, first, second, third⟩

/-- The entry of the jump table for a number. -/
lemma sysNumber_spec {n : BitVec 32} (number : sysNumber f = some n) :
    1 ≤ n.toNat ∧ n.toNat ≤ 10 ∧ sysJumpTable[n.toNat]? = some (some f) := by
  cases f <;> cases number <;> decide

/-- The trap of a wrapper, for enough instructions of the kernel. -/
lemma trap_systemcall {n : BitVec 32} (number : sysNumber f = some n) {u : Cpu}
    (eax : u.reg .eax = n) (call : o.call f (serviceEntry o u g t) = some d)
    (ret : Returns 11 (serviceEntry o u g t) d) :
    ∃ N, ∀ fuel ≥ N, trapInto o g t fuel 0x80 u = some (resumed u d g (d.reg .eax)) := by
  obtain ⟨low, high, entry⟩ := sysNumber_spec number
  have whole : u.reg .eax = BitVec.ofNat 32 n.toNat := by
    rw [eax, BitVec.ofNat_toNat, BitVec.setWidth_eq]
  obtain ⟨N, v, run, rfl⟩ : Finishes o systemcall (· = resumed u d g (d.reg .eax)) systemcall
    (u.accept g t) :=
    finishes_systemcall low high whole entry call ret rfl
  refine ⟨N, fun fuel enough => ?_⟩
  rw [trapInto, if_pos rfl, whileLoop_mono run enough]
  rfl

/-- **A system call**: when user code calls a wrapper of the library with three arguments on its
stack, the routine of that name starts in the kernel with these arguments on its own. When it comes
back, the wrapper returns its result to the caller, whose other registers are as they were. -/
theorem system_call (kernel : Outside Routine) (g : Gate) (t : TaskStack) (f : Routine)
    (n : BitVec 32)
    (number : sysNumber f = some n) (u : Cpu) (back a b c : BitVec 32)
    (stack : u.Stacked [back, a, b, c]) :
    (serviceEntry kernel (atInt n u) g t).Stacked [kernel.back, a, b, c] ∧
    ∀ d, kernel.call f (serviceEntry kernel (atInt n u) g t) = some d →
      Returns 11 (serviceEntry kernel (atInt n u) g t) d →
      (∀ x, (x - (atInt n u).reg .esp).toNat < 8 → d.mem x = (atInt n u).mem x) →
      ∃ N, ∀ fuel ≥ N, Finishes (underKernel kernel g t fuel) (doCall n)
        (fun v => v.reg .eax = d.reg .eax ∧ v.reg .esp = u.reg .esp + 4 ∧ v.eip = back ∧
          v.mem = d.mem ∧
          ∀ r ∈ [Reg.ebx, .esi, .edi, .ebp], v.reg r = u.reg r) (doCall n) u := by
  obtain ⟨frame, eax, ebx, ecx, edx⟩ := atInt_spec n stack
  constructor
  · have whole := stacked_serviceEntry kernel (atInt n u) g t
    have words : callWords ((atInt n u).accept g t)
        = [a, b, c] ++ (callWords ((atInt n u).accept g t)).drop 3 := by
      rw [callWords, reg_accept _ _ _ (by decide), reg_accept _ _ _ (by decide),
        reg_accept _ _ _ (by decide), ebx, ecx, edx]
      rfl
    rw [words, List.append_assoc, ← List.cons_append] at whole
    exact whole.of_append
  · intro d call ret left
    obtain ⟨N, trap⟩ := trap_systemcall number eax call ret
    refine ⟨N, fun fuel enough => ?_⟩
    have back_here : (resumed (atInt n u) d g (d.reg .eax)).Stacked [u.reg .ebx, back] := by
      intro i hi
      rw [← frame i hi]
      apply loadWord_congr
      intro j hj
      rw [List.length_cons, List.length_singleton] at hi
      apply left
      show ((atInt n u).reg .esp + BitVec.ofNat 32 (4 * i) + BitVec.ofNat 32 j
        - (atInt n u).reg .esp).toNat < 8
      bv_omega
    obtain ⟨popped, rest⟩ := Cpu.Stacked.pop back_here (r := .ebx) (by decide)
    refine .next rfl rfl rfl
      (.next rfl rfl rfl (.next rfl rfl rfl (.next rfl rfl rfl (.next rfl rfl rfl ?_))))
    refine .next rfl rfl (trap fuel enough) (.next rfl rfl (congrArg some popped)
      (.leave rfl rfl rfl ?_))
    refine ⟨rfl, ?_, rest.top, rfl, ?_⟩
    · show (atInt n u).reg .esp + 4 + 4 = u.reg .esp + 4
      show u.reg .esp - 4 + 4 + 4 = u.reg .esp + 4
      bv_omega
    · simp only [List.forall_mem_cons]
      exact ⟨rfl, rfl, rfl, rfl, fun _ h => absurd h List.not_mem_nil⟩

/-- The user code above calls `ece391_read(1, 2, 3)`. -/
def sampleCaller : Cpu := (((sampleProgram.push 3).push 2).push 1).push 0x8048010

/-- The caller has a return address and three arguments on its stack. -/
lemma stacked_sampleCaller : sampleCaller.Stacked [0x8048010, 1, 2, 3] :=
  (((Cpu.Stacked.nil.push (by decide) 3).push (by decide) 2).push (by decide) 1).push (by decide) _

/-- The stacks of caller and kernel are apart. -/
lemma apart_sampleCaller {x : BitVec 32} (near : (x - (atInt 3 sampleCaller).reg .esp).toNat < 8) :
    48 ≤ (x - (kernelTop (atInt 3 sampleCaller) sampleGate sampleStack - 48)).toNat := by
  have esp : (atInt 3 sampleCaller).reg .esp = 0x7ffc := by decide
  have outer : (atInt 3 sampleCaller).Outer sampleGate := by decide
  have top : kernelTop (atInt 3 sampleCaller) sampleGate sampleStack = 0x800000 := if_pos outer
  rw [esp] at near
  rw [top]
  bv_omega

/-- What the sample kernel makes of the call. -/
def sampleResult (u : Cpu) : Cpu :=
  (serviceEntry sampleKernel u sampleGate sampleStack).drop.set .eax 5

/-- The kernel's call leaves memory off its stack. -/
lemma mem_sampleResult {u : Cpu} {x : BitVec 32}
    (far : 48 ≤ (x - (kernelTop u sampleGate sampleStack - 48)).toNat) :
    (sampleResult u).mem x = u.mem x := by
  have returned (c : Cpu) : (c.drop.set .eax 5).mem = c.mem := rfl
  rw [sampleResult, returned, mem_serviceEntry _ _ _ _ far]

/-- `read(1, 2, 3)` through its wrapper. -/
theorem system_call_sample : ∃ N, ∀ fuel ≥ N,
    Finishes (underKernel sampleKernel sampleGate sampleStack fuel) (doCall 3)
      (fun v => v.reg .eax = 5 ∧ v.reg .esp = sampleCaller.reg .esp + 4 ∧ v.eip = 0x8048010 ∧
        ∀ r ∈ [Reg.ebx, .esi, .edi, .ebp], v.reg r = sampleCaller.reg r)
      (doCall 3) sampleCaller := by
  obtain ⟨-, back⟩ :=
    system_call sampleKernel sampleGate sampleStack .read 3 rfl sampleCaller _ _ _ _
    stacked_sampleCaller
  obtain ⟨N, ends⟩ := back (sampleResult (atInt 3 sampleCaller)) rfl (returns_sample 11 _)
    fun x near => mem_sampleResult (apart_sampleCaller near)
  have five : (sampleResult (atInt 3 sampleCaller)).reg .eax = 5 := by
    rw [sampleResult, Cpu.reg_set, if_pos rfl]
  refine ⟨N, fun fuel enough => (ends fuel enough).mono ?_⟩
  rintro v ⟨eax, esp, eip, -, saved⟩
  exact ⟨eax.trans five, esp, eip, saved⟩

end Kernel391
