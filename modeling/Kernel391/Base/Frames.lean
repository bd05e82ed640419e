import Kernel391.Base.X86

/-!
# Stack frames

What a processor has on its stack, as a list of words from the stack pointer on, and how pushes,
pops, calls, interrupts and their returns change it. A routine that keeps the calling convention
comes back with its return address taken off, the registers of its caller and the words its caller
had pushed.
-/

namespace Kernel391.Base

/-- The words on the stack, from the stack pointer on. -/
def Cpu.Stacked (c : Cpu) (ws : List (BitVec 32)) : Prop :=
  ∀ i, (h : i < ws.length) → loadWord c.mem (c.reg .esp + BitVec.ofNat 32 (4 * i)) = ws[i]

/-- An entry of the interrupt descriptor table: where the handler is, and whether it starts with
interrupts as they were. -/
structure Gate where
  selector : BitVec 16
  offset : BitVec 32
  trap : Bool

/-- The stack of the task state segment. -/
structure TaskStack where
  esp0 : BitVec 32
  ss0 : BitVec 16

/-- The gate leads to a more privileged level. -/
def Cpu.Outer (c : Cpu) (g : Gate) : Prop := g.selector.toNat % 4 < c.cs.toNat % 4

/-- Privilege levels can be compared. -/
instance (c : Cpu) (g : Gate) : Decidable (c.Outer g) := inferInstanceAs (Decidable (_ < _))

/-- The processor behind a gate: a change of level changes the stack and saves the old one, then the
flags and the place to come back to are saved. -/
def Cpu.accept (c : Cpu) (g : Gate) (t : TaskStack) : Cpu :=
  let c₁ :=
    if c.Outer g then
      (({ c.set .esp t.esp0 with ss := t.ss0 }.push (c.ss.setWidth 32)).push (c.reg .esp))
    else c
  { ((c₁.push c.flags.word).push (c.cs.setWidth 32)).push c.eip with
    eip := g.offset
    cs := g.selector
    flags := if g.trap then c.flags else { c.flags with interrupt := false } }

/-- What a processor leaves on the stack behind a gate. -/
def Cpu.frame (c : Cpu) (g : Gate) : List (BitVec 32) :=
  [c.eip, c.cs.setWidth 32, c.flags.word] ++ if c.Outer g
    then [c.reg .esp, c.ss.setWidth 32] else []

/-- A routine that was entered in `c` comes back in `d` by the calling convention, and leaves the
`k` words behind its return address as they were. -/
structure Returns (k : Nat) (c d : Cpu) : Prop where
  esp : d.reg .esp = c.reg .esp + 4
  ebx : d.reg .ebx = c.reg .ebx
  ebp : d.reg .ebp = c.reg .ebp
  esi : d.reg .esi = c.reg .esi
  edi : d.reg .edi = c.reg .edi
  cs : d.cs = c.cs
  kept : ∀ x, (x - d.reg .esp).toNat < 4 * k → d.mem x = c.mem x

section Lemmas

variable {m m' : BitVec 32 → UInt8} {a v w : BitVec 32} {c d : Cpu}
  {ws : List (BitVec 32)} {r : Reg}
  {g : Gate} {t : TaskStack}

/-- A word only depends on its four bytes. -/
lemma loadWord_congr (h : ∀ j < 4, m' (a + BitVec.ofNat 32 j) = m (a + BitVec.ofNat 32 j)) :
    loadWord m' a = loadWord m a := by
  have h0 : m' (a + 0#32) = m (a + 0#32) := h 0 (by decide)
  have h1 : m' (a + 1) = m (a + 1) := h 1 (by decide)
  have h2 : m' (a + 2) = m (a + 2) := h 2 (by decide)
  have h3 : m' (a + 3) = m (a + 3) := h 3 (by decide)
  rw [BitVec.add_zero] at h0
  rw [loadWord, loadWord, h0, h1, h2, h3]

/-- A stored word is found again byte by byte. -/
lemma storeBytes_at {j k : Nat} (hk : k ≤ 4) (h : j < k) :
    storeBytes m a k w (a + BitVec.ofNat 32 j) = byteOf w j := by
  have distance : (a + BitVec.ofNat 32 j - a).toNat = j := by bv_omega
  rw [storeBytes, distance, if_pos h]

/-- A word that was stored. -/
lemma loadWord_storeBytes (m : BitVec 32 → UInt8) (a w : BitVec 32) :
    loadWord (storeBytes m a 4 w) a = w := by
  have h0 : storeBytes m a 4 w (a + 0#32) = _ := storeBytes_at (j := 0) (by decide) (by decide)
  have h1 : storeBytes m a 4 w (a + 1) = _ := storeBytes_at (j := 1) (by decide) (by decide)
  have h2 : storeBytes m a 4 w (a + 2) = _ := storeBytes_at (j := 2) (by decide) (by decide)
  have h3 : storeBytes m a 4 w (a + 3) = _ := storeBytes_at (j := 3) (by decide) (by decide)
  have lt := w.isLt
  rw [BitVec.add_zero] at h0
  apply BitVec.eq_of_toNat_eq
  rw [loadWord, h0, h1, h2, h3, BitVec.toNat_ofNat]
  simp only [byteOf, UInt8.toNat_ofNat', Nat.reduceMul, Nat.reducePow, Nat.div_one]
  omega

/-- A word beside the one that was stored. -/
lemma loadWord_storeBytes_of_apart {b : BitVec 32}
    (apart : ∀ j < 4, 4 ≤ (b + BitVec.ofNat 32 j - a).toNat) :
    loadWord (storeBytes m a 4 w) b = loadWord m b := by
  apply loadWord_congr
  intro j hj
  rw [storeBytes, if_neg (Nat.not_lt.mpr (apart j hj))]

/-! ### Pushes and pops -/

/-- Every stack holds no words at its top. -/
lemma Cpu.Stacked.nil : c.Stacked [] := fun _ h => absurd h (Nat.not_lt_zero _)

/-- A word that is pushed stands above the words that were there. -/
lemma Cpu.Stacked.push (h : c.Stacked ws) (room : ws.length < 2 ^ 30) (w : BitVec 32) :
    (c.push w).Stacked (w :: ws) := by
  intro i hi
  rw [List.length_cons] at hi
  have esp : (c.push w).reg .esp = c.reg .esp - 4 := rfl
  have mem : (c.push w).mem = storeBytes c.mem (c.reg .esp - 4) 4 w := rfl
  rw [esp, mem]
  cases i with
  | zero =>
    rw [Nat.mul_zero, BitVec.add_zero, loadWord_storeBytes]
    rfl
  | succ i =>
    have place : c.reg .esp - 4 + BitVec.ofNat 32 (4 * (i + 1))
        = c.reg .esp + BitVec.ofNat 32 (4 * i) := by
      bv_omega
    rw [place, loadWord_storeBytes_of_apart fun j hj => by bv_omega]
    exact h i (by omega)

/-- The first word of the stack is at its top. -/
lemma Cpu.Stacked.top (h : c.Stacked (w :: ws)) : c.top = w := by
  have first := h 0 (Nat.succ_pos _)
  rw [Nat.mul_zero, BitVec.add_zero] at first
  exact first

/-- Below the first word are the others. -/
lemma Cpu.Stacked.drop (h : c.Stacked (w :: ws)) : c.drop.Stacked ws := by
  intro i hi
  have next := h (i + 1) (Nat.succ_lt_succ hi)
  have place : c.reg .esp + 4 + BitVec.ofNat 32 (4 * i)
      = c.reg .esp + BitVec.ofNat 32 (4 * (i + 1)) := by
    bv_omega
  show loadWord c.mem (c.reg .esp + 4 + _) = _
  rw [place]
  exact next

/-- The processor after the word on top of the stack was popped into a register. -/
def Cpu.popped (c : Cpu) (r : Reg) (w : BitVec 32) : Cpu := c.drop.set r w

/-- A pop takes the first word and leaves the others. -/
lemma Cpu.Stacked.pop (h : c.Stacked (w :: ws)) (hr : r ≠ .esp) :
    c.pop r = c.popped r w ∧ (c.popped r w).Stacked ws := by
  refine ⟨by rw [Cpu.pop, h.top, Cpu.popped], fun i hi => ?_⟩
  have esp : (c.popped r w).reg .esp = c.drop.reg .esp := by
    rw [Cpu.popped, reg_set, if_neg hr.symm]
  rw [esp]
  exact h.drop i hi

/-- `popl %esp` of the value the stack pointer has behind the word. -/
lemma Cpu.Stacked.pop_esp (h : c.Stacked (w :: ws)) (next : w = c.reg .esp + 4) :
    c.pop .esp = c.drop := by
  have esp : c.drop.reg .esp = w := next.symm
  rw [Cpu.pop, h.top, ← esp, Cpu.set, Function.update_eq_self]

/-- Only the stack pointer and memory matter. -/
lemma Cpu.Stacked.congr (h : c.Stacked ws) (esp : d.reg .esp = c.reg .esp) (mem : d.mem = c.mem) :
    d.Stacked ws := by
  intro i hi
  rw [esp, mem]
  exact h i hi

/-- The upper words of a stack are words of the stack. -/
lemma Cpu.Stacked.of_append {ws' : List (BitVec 32)} (h : c.Stacked (ws ++ ws')) :
    c.Stacked ws := by
  intro i hi
  rw [h i (by rw [List.length_append]; omega), List.getElem_append_left hi]

/-- What a routine that keeps the calling convention leaves on the stack. -/
lemma Returns.stacked {k : Nat} {w : BitVec 32} (ret : Returns k c d) (h : c.Stacked (w :: ws))
    (length : ws.length ≤ k) (room : 4 * k ≤ 2 ^ 32) : d.Stacked ws := by
  have under : c.drop.Stacked ws := h.drop
  intro i hi
  rw [← under i hi, ret.esp]
  apply loadWord_congr
  intro j hj
  apply ret.kept
  rw [ret.esp]
  bv_omega

/-- Only the `N` bytes below `top` were written, and the stack pointer is `k` below it. -/
structure Cpu.Pushed (top : BitVec 32) (N k : Nat) (c₀ c : Cpu) : Prop where
  esp : c.reg .esp = top - BitVec.ofNat 32 k
  mem : ∀ x, N ≤ (x - (top - BitVec.ofNat 32 N)).toNat → c.mem x = c₀.mem x

/-- One more push keeps to the room below the top. -/
lemma Cpu.Pushed.push {top : BitVec 32} {N k : Nat} {c₀ : Cpu} (h : Cpu.Pushed top N k c₀ c)
    (room : k + 4 ≤ N)
    (small : N < 2 ^ 32) (w : BitVec 32) : Cpu.Pushed top N (k + 4) c₀ (c.push w) := by
  have esp : (c.push w).reg .esp = top - BitVec.ofNat 32 (k + 4) := by
    show c.reg .esp - 4 = _
    rw [h.esp]
    bv_omega
  refine ⟨esp, fun x far => ?_⟩
  rw [← h.mem x far]
  show storeBytes c.mem (c.reg .esp - 4) 4 w x = c.mem x
  have outside : ¬ (x - (c.reg .esp - 4)).toNat < 4 := by
    rw [h.esp]
    bv_omega
  rw [storeBytes, if_neg outside]

/-! ### Interrupts -/

/-- An interrupt pushes at most five words. -/
lemma length_frame : (c.frame g).length ≤ 5 := by
  rw [Cpu.frame]
  split_ifs <;> simp

/-- A selector comes back from the word it is pushed as. -/
lemma setWidth_setWidth (x : BitVec 16) : (x.setWidth 32).setWidth 16 = x := by
  apply BitVec.eq_of_toNat_eq
  rw [BitVec.toNat_setWidth, BitVec.toNat_setWidth]
  omega

/-- Behind a gate the frame is on the stack, and behind it, without a change of level, what was
there before. -/
lemma stacked_accept (h : c.Stacked ws) (room : ws.length + 2 < 2 ^ 30) :
    (c.accept g t).Stacked (c.frame g ++ if c.Outer g then [] else ws) := by
  rw [Cpu.accept, Cpu.frame]
  by_cases outer : c.Outer g
  · simp only [if_pos outer, List.append_nil]
    have old := ((Cpu.Stacked.nil (c := { c.set .esp t.esp0 with ss := t.ss0 })).push (by simp)
      (c.ss.setWidth 32)).push (by simp) (c.reg .esp)
    have saved := ((old.push (by simp) c.flags.word).push (by simp) (c.cs.setWidth 32)).push
      (by simp) c.eip
    exact saved.congr rfl rfl
  · simp only [if_neg outer, List.append_nil]
    have saved := ((h.push (by omega) c.flags.word).push (by rw [List.length_cons]; omega)
      (c.cs.setWidth 32)).push (by rw [List.length_cons, List.length_cons]; omega) c.eip
    exact saved.congr rfl rfl

/-- Without a change of privilege three words are pushed. -/
lemma esp_accept_inner (inner : ¬ c.Outer g) : (c.accept g t).reg .esp + 12 = c.reg .esp := by
  simp only [Cpu.accept, if_neg inner]
  show c.reg .esp - 4 - 4 - 4 + 12 = c.reg .esp
  bv_omega

/-- What `iret` loads, from the words at the top of the stack. -/
lemma interruptReturn_eq (d : Cpu) : d.interruptReturn =
    if d.cs.toNat % 4 < (d.drop.top.setWidth 16).toNat % 4 then
      { d.set .esp d.drop.drop.drop.top with
        eip := d.top
        cs := d.drop.top.setWidth 16
        flags := Flags.ofWord d.drop.drop.top
        ss := d.drop.drop.drop.drop.top.setWidth 16 }
    else
      { d.set .esp (d.reg .esp + 12) with
        eip := d.top
        cs := d.drop.top.setWidth 16
        flags := Flags.ofWord d.drop.drop.top } := by
  have twelve (v : BitVec 32) : v + 4 + 4 + 4 = v + 12 := by bv_omega
  simp only [Cpu.interruptReturn, Cpu.drop, Cpu.set, Cpu.top, Function.update_self,
    Function.update_idem, twelve]

/-- `iret` at the frame of a gate restores what the gate saved. -/
lemma interruptReturn_frame (h : d.Stacked (c.frame g)) (cs : d.cs = g.selector)
    (esp : d.reg .esp = (c.accept g t).reg .esp) : d.interruptReturn =
      { d.set .esp (c.reg .esp) with
        eip := c.eip
        cs := c.cs
        flags := c.flags
        ss := if c.Outer g then c.ss else d.ss } := by
  rw [Cpu.frame] at h
  have eip : d.top = c.eip := h.top
  have code : d.drop.top = c.cs.setWidth 32 := h.drop.top
  have flags : d.drop.drop.top = c.flags.word := h.drop.drop.top
  have rest := h.drop.drop.drop
  rw [interruptReturn_eq, eip, code, flags, setWidth_setWidth, Flags.ofWord_word, cs]
  by_cases outer : c.Outer g
  · rw [if_pos outer] at rest
    have old : d.drop.drop.drop.top = c.reg .esp := rest.top
    have stack : d.drop.drop.drop.drop.top = c.ss.setWidth 32 := rest.drop.top
    have levels : g.selector.toNat % 4 < c.cs.toNat % 4 := outer
    rw [if_pos levels, if_pos outer, old, stack, setWidth_setWidth]
  · have levels : ¬ g.selector.toNat % 4 < c.cs.toNat % 4 := outer
    rw [if_neg levels, if_neg outer, esp, esp_accept_inner outer]
    rfl

/-! ### Registers pushed and popped together -/

/-- The order in which `pushal` pushes, last first. -/
def Cpu.saved (c : Cpu) : List (BitVec 32) :=
  [Reg.edi, .esi, .ebp, .esp, .ebx, .edx, .ecx, .eax].map c.reg

/-- `pusha` puts the eight registers above the words that were there. -/
lemma Cpu.Stacked.pushAll (h : c.Stacked ws) (room : ws.length + 8 < 2 ^ 30) :
    c.pushAll.Stacked (c.saved ++ ws) := by
  have four := (((h.push (by omega) (c.reg .eax)).push (by simp; omega) (c.reg .ecx)).push
    (by simp; omega)
    (c.reg .edx)).push (by simp; omega) (c.reg .ebx)
  exact (((four.push (by simp; omega) (c.reg .esp)).push (by simp; omega) (c.reg .ebp)).push
    (by simp; omega) (c.reg .esi)).push (by simp; omega) (c.reg .edi)

/-- `popal` at what `pushal` pushed. -/
lemma popAll_saved (h : d.Stacked (c.saved ++ ws)) :
    d.popAll = { d with reg := fun r => if r = .esp then d.reg .esp + 32 else c.reg r } ∧
      d.popAll.Stacked ws := by
  obtain ⟨e₁, h₁⟩ := Cpu.Stacked.pop h (r := .edi) (by decide)
  obtain ⟨e₂, h₂⟩ := Cpu.Stacked.pop h₁ (r := .esi) (by decide)
  obtain ⟨e₃, h₃⟩ := Cpu.Stacked.pop h₂ (r := .ebp) (by decide)
  obtain ⟨e₄, h₄⟩ := Cpu.Stacked.pop h₃.drop (r := .ebx) (by decide)
  obtain ⟨e₅, h₅⟩ := Cpu.Stacked.pop h₄ (r := .edx) (by decide)
  obtain ⟨e₆, h₆⟩ := Cpu.Stacked.pop h₅ (r := .ecx) (by decide)
  obtain ⟨e₇, h₇⟩ := Cpu.Stacked.pop h₆ (r := .eax) (by decide)
  rw [Cpu.popAll, e₁, e₂, e₃, e₄, e₅, e₆, e₇]
  refine ⟨?_, h₇⟩
  simp only [Cpu.popped, Cpu.drop, Cpu.set, Cpu.mk.injEq, and_true]
  funext r
  cases r with
  | esp =>
    show d.reg .esp + 4 + 4 + 4 + 4 + 4 + 4 + 4 + 4 = d.reg .esp + 32
    bv_omega
  | _ => rfl

end Lemmas

end Kernel391.Base
