import Kernel391.Base.Loop
import Kernel391.Model.Scall
import Kernel391.Model.Keyboard

/-!
# The process view

Processes are governed by a part of the state: the process globals and control blocks, the page
tables, the task state segment, and for each terminal the process it shows. `procView` is that part.
The lemmas below say what each kernel function does to it, once: console output and line editing
leave it alone, a descriptor call changes one descriptor array (`FdsChanged`), `execute` starts a
process (`Started`), `halt` ends one (`Exited`), and a terminal switch moves to another (`change`).
-/

namespace Kernel391
open Base

/-- The part of the state that governs processes. -/
structure ProcView where
  proc : Proc
  paging : Paging
  tss : Tss
  currentTerminalId : Nat
  processOf : Nat → Int

/-- The process view of a state. -/
def Kernel.procView (s : Kernel) : ProcView where
  proc := s.proc
  paging := s.paging
  tss := s.tss
  currentTerminalId := s.term.currentTerminalId
  processOf t := (s.term.terminalArray t).currentProcessId

/-- `b'` is `b` up to the saved stack registers. -/
def PCB.SameButStack (b b' : PCB) : Prop :=
  b' = { b with scheduledEsp := b'.scheduledEsp, scheduledEbp := b'.scheduledEbp }

/-- A control block is its own. -/
lemma PCB.SameButStack.refl (b : PCB) : b.SameButStack b := rfl

/-- Changes of the saved stack pointers add up to one. -/
lemma PCB.SameButStack.trans {b b' b'' : PCB} (h : b.SameButStack b') (h' : b'.SameButStack b'') :
    b.SameButStack b'' := by
  rw [PCB.SameButStack] at h h' ⊢
  rw [h', h]

/-- Control blocks of different processes are at different addresses. -/
lemma pcbAddr_inj {p q : Int} : pcbAddr p = pcbAddr q ↔ p = q := by
  constructor
  · intro h
    simp only [pcbAddr, kernelStackSize, endOfKernel] at h
    omega
  · exact congrArg pcbAddr

/-- The entry of the user page after it was mapped. -/
@[simp] lemma Paging.mapUserPage_DT (pg : Paging) (pdAddr : Nat) :
    (pg.mapUserPage pdAddr).DT userPdIndex = userPde pdAddr := by
  simp only [Paging.mapUserPage, Function.update_self]

/-! ## Functions that leave the view alone -/

section Frames

variable {s : Kernel} {fr : Frame}

/-- The view depends on the parts it shows. -/
lemma procView_congr {s' : Kernel} (hp : s'.proc = s.proc) (hg : s'.paging = s.paging)
    (ht : s'.tss = s.tss) (hc : s'.term.currentTerminalId = s.term.currentTerminalId)
    (ho : ∀ u,
      (s'.term.terminalArray u).currentProcessId = (s.term.terminalArray u).currentProcessId) :
    s'.procView = s.procView := by
  rw [Kernel.procView, Kernel.procView, hp, hg, ht, hc, funext ho]

/-- Replacing a terminal by one that shows the same process leaves every terminal's process. -/
lemma currentProcessId_setTerminal {tm : Term} {t : Nat} {e : Terminal}
    (h : e.currentProcessId = (tm.terminalArray t).currentProcessId) (u : Nat) :
    ((tm.setTerminal t e).terminalArray u).currentProcessId
      = (tm.terminalArray u).currentProcessId := by
  by_cases hu : u = t
  · subst hu
    simp only [Term.setTerminal, Function.update_self, h]
  · simp only [Term.setTerminal, Function.update_of_ne hu]

/-- The processes of the terminals after one of them was replaced. -/
lemma currentProcessId_update (tm : Term) (t : Nat) (e : Terminal) (u : Nat) :
    ((tm.setTerminal t e).terminalArray u).currentProcessId
      = Function.update
        (fun u => (tm.terminalArray u).currentProcessId) t e.currentProcessId u := by
  by_cases hu : u = t
  · subst hu
    simp only [Term.setTerminal, Function.update_self]
  · simp only [Term.setTerminal, Function.update_of_ne hu]

/-- `putc` changes no process. -/
@[simp] lemma procView_putc (c : UInt8) : (s.putc c).procView = s.procView := rfl

/-- `putc_term` changes no process. -/
@[simp] lemma procView_putcTerm (c : UInt8) (t : Nat) : (s.putcTerm c t).procView = s.procView :=
  procView_congr rfl rfl rfl rfl (currentProcessId_setTerminal rfl)

/-- `read_to_cur_terminal_buffer` changes no process. -/
@[simp] lemma procView_readToCurTerminalBuffer (i : Nat) (c : UInt8) :
    (s.readToCurTerminalBuffer i c).procView = s.procView :=
  procView_congr rfl rfl rfl rfl (currentProcessId_setTerminal rfl)

/-- `puts` changes no process. -/
@[simp] lemma procView_puts (s : Kernel) (text : List UInt8) :
    (s.puts text).procView = s.procView :=
  foldl_keeps Kernel.procView (fun _ c => procView_putc c) text

/-- A pass of `clean_buffer` changes no process. -/
lemma procView_cleanIndex (i : Nat) : (s.cleanIndex i).procView = s.procView := by
  rw [Kernel.cleanIndex, procView_readToCurTerminalBuffer]
  rfl

/-- The keyboard's variables are no part of the view. -/
lemma procView_setKbd (s : Kernel) (k : Kbd) : { s with kbd := k }.procView = s.procView := rfl

/-- `clean_buffer` changes no process. -/
@[simp] lemma procView_cleanBuffer : s.cleanBuffer.procView = s.procView := by
  have h : s.cleanIndices.procView = s.procView := by
    unfold Kernel.cleanIndices
    exact foldl_keeps Kernel.procView (fun _ i => procView_cleanIndex i) _
  exact (procView_setKbd s.cleanIndices _).trans h

/-- `terminal_close` changes no process. -/
@[simp] lemma procView_terminalClose : s.terminalClose.procView = s.procView := by
  have h (t : Kernel) : t.cleanTerminalBuffer.procView = t.procView := by
    unfold Kernel.cleanTerminalBuffer
    exact foldl_keeps Kernel.procView (fun _ i => procView_readToCurTerminalBuffer i 0) _
  exact (h s.cleanBuffer).trans procView_cleanBuffer

/-- The end of a read of the terminal changes no process. -/
@[simp] lemma procView_finishRead : s.finishRead.procView = s.procView := by
  have h (t : Kernel) : { t with
      term := t.term.setTerminal t.term.currentTerminalId
          { t.term.current with bufPos := 0 } }.procView
      = t.procView :=
    procView_congr rfl rfl rfl rfl (currentProcessId_setTerminal rfl)
  exact (h s.cleanBuffer).trans procView_cleanBuffer

/-- The loop of `terminal_write` keeps what printing a character keeps. -/
lemma writeLoop_inv {P : Kernel → Prop} {out : Kernel → UInt8 → Kernel}
    (print : ∀ t c, P t → P (out t c)) {n buf : Nat} {s' : Kernel} (h : P s)
    (run : Kernel.writeLoop out n buf s = some s') : P s' := by
  induction n generalizing buf s with
  | zero => cases run; exact h
  | succ n ih =>
    rw [Kernel.writeLoop] at run
    cases hl : s.load buf with
    | none => rw [hl] at run; cases run
    | some c =>
      rw [hl] at run
      exact ih (print s c h) run

/-- `terminal_write` keeps what every character it prints keeps. -/
lemma terminalWrite_inv {P : Kernel → Prop} {buf : Nat} {n r : Int} {s' : Kernel} (h : P s)
    (visible : s.term.currentTerminalId = s.getNTerminal → ∀ t c, P t → P (t.putc c))
    (hidden : s.term.currentTerminalId ≠ s.getNTerminal → ∀ t c,
    P t → P (t.putcTerm c s.getNTerminal))
    (run : s.terminalWrite buf n = some (r, s')) : P s' := by
  rw [Kernel.terminalWrite] at run
  split at run
  · cases run
    exact h
  obtain ⟨t, loop, e⟩ := Option.map_eq_some_iff.mp run
  cases e
  apply writeLoop_inv _ h loop
  intro t c ht
  split
  next shown => exact visible shown t c ht
  next away => exact hidden away t c ht

/-- `terminal_write` changes no process. -/
lemma procView_terminalWrite {buf : Nat} {n r : Int} {s' : Kernel}
    (run : s.terminalWrite buf n = some (r, s')) : s'.procView = s.procView :=
  terminalWrite_inv (P := fun t => t.procView = s.procView) rfl
    (fun _ _ c h => (procView_putc c).trans h) (fun _ _ c h => (procView_putcTerm c _).trans h) run

/-- Everything an uninterrupted `terminal_read` can do: refuse its arguments, or copy a line and
clean the buffers. -/
lemma terminalRead_cases {buf : Nat} {n r : Int} {bytes : List UInt8} {s' : Kernel}
    (run : s.terminalRead buf n = some (r, bytes, s')) :
    (r = -1 ∧ bytes = [] ∧ s' = s) ∨
    s.checkEnter = true ∧ r = bytes.length ∧ s' = s.finishRead ∧
      Kernel.copyLine s.term.current.terminalBuffer maxTerminalBufferSize 0 = some bytes := by
  rw [Kernel.terminalRead] at run
  split_ifs at run with _ _ _ enter
  · cases run
    exact .inl ⟨rfl, rfl, rfl⟩
  · cases run
    exact .inl ⟨rfl, rfl, rfl⟩
  · cases run
    exact .inl ⟨rfl, rfl, rfl⟩
  · obtain ⟨line, hline, e⟩ := Option.map_eq_some_iff.mp run
    cases e
    exact .inr ⟨Bool.not_eq_false _ ▸ enter, rfl, rfl, hline⟩

/-- `terminal_read` changes no process. -/
lemma procView_terminalRead {buf : Nat} {n r : Int} {bytes : List UInt8} {s' : Kernel}
    (run : s.terminalRead buf n = some (r, bytes, s')) : s'.procView = s.procView := by
  rcases terminalRead_cases run with ⟨-, -, rfl⟩ | ⟨-, -, rfl, -⟩
  · rfl
  · exact procView_finishRead

end Frames

/-! ## Descriptor calls -/

/-- The two views differ at most in the descriptor array in use. -/
def FdsChanged (v v' : ProcView) : Prop :=
  ∃ fa, v' = { v with
    proc := v.proc.setPcb v.proc.filedArray { v.proc.pcb v.proc.filedArray with fdArray := fa } }

namespace FdsChanged

variable {v v' v'' : ProcView}

/-- Nothing done changes no descriptor. -/
lemma refl (v : ProcView) : FdsChanged v v := by
  refine ⟨(v.proc.pcb v.proc.filedArray).fdArray, ?_⟩
  simp only [Proc.setPcb, Proc.pcb, Function.update_eq_self]

/-- The same view has the same descriptors. -/
lemma of_eq (h : v' = v) : FdsChanged v v' := h ▸ refl v

/-- Changes of descriptors add up to one. -/
lemma trans (h : FdsChanged v v') (h' : FdsChanged v' v'') : FdsChanged v v'' := by
  obtain ⟨fa, rfl⟩ := h
  obtain ⟨fb, rfl⟩ := h'
  refine ⟨fb, ?_⟩
  simp only [Proc.setPcb, Proc.pcb, Function.update_self, Function.update_idem]

/-- Writing one descriptor. -/
lemma setFd (s : Kernel) (fd : Nat) (e : FdArray) :
    FdsChanged s.procView { s with proc := s.proc.setFd fd e }.procView := ⟨_, rfl⟩

/-- Which slots are taken stays. -/
lemma pidCheck (h : FdsChanged v v') : v'.proc.pidCheck = v.proc.pidCheck := by
  obtain ⟨fa, rfl⟩ := h
  rfl

/-- The current process stays. -/
lemma curPid (h : FdsChanged v v') : v'.proc.curPid = v.proc.curPid := by
  obtain ⟨fa, rfl⟩ := h
  rfl

/-- The pointer to the current control block stays. -/
lemma curProcessPtr (h : FdsChanged v v') : v'.proc.curProcessPtr = v.proc.curProcessPtr := by
  obtain ⟨fa, rfl⟩ := h
  rfl

/-- The pointer to the descriptors stays. -/
lemma filedArray (h : FdsChanged v v') : v'.proc.filedArray = v.proc.filedArray := by
  obtain ⟨fa, rfl⟩ := h
  rfl

/-- The page tables stay. -/
lemma paging (h : FdsChanged v v') : v'.paging = v.paging := by
  obtain ⟨fa, rfl⟩ := h
  rfl

/-- The task state segment stays. -/
lemma tss (h : FdsChanged v v') : v'.tss = v.tss := by
  obtain ⟨fa, rfl⟩ := h
  rfl

/-- The current terminal stays. -/
lemma currentTerminalId (h : FdsChanged v v') : v'.currentTerminalId = v.currentTerminalId := by
  obtain ⟨fa, rfl⟩ := h
  rfl

/-- The recorded processes of the terminals stay. -/
lemma processOf (h : FdsChanged v v') : v'.processOf = v.processOf := by
  obtain ⟨fa, rfl⟩ := h
  rfl

/-- The control blocks keep everything but descriptors. -/
lemma pcb (h : FdsChanged v v') (a : Int) :
    ∃ fa, v'.proc.pcb a = { v.proc.pcb a with fdArray := fa } := by
  obtain ⟨fa, rfl⟩ := h
  by_cases ha : a = v.proc.filedArray
  · refine ⟨fa, ?_⟩
    subst ha
    simp only [Proc.pcb, Proc.setPcb, Function.update_self]
  · refine ⟨(v.proc.pcb a).fdArray, ?_⟩
    simp only [Proc.pcb, Proc.setPcb, Function.update_of_ne ha]

/-- The control blocks other than the one in use keep everything. -/
lemma pcb_of_ne (h : FdsChanged v v') {a : Int} (ha : a ≠ v.proc.filedArray) :
    v'.proc.pcb a = v.proc.pcb a := by
  obtain ⟨fa, rfl⟩ := h
  simp only [Proc.pcb, Proc.setPcb, Function.update_of_ne ha]

end FdsChanged

end Kernel391
