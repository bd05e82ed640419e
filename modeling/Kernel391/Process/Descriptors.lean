import Kernel391.Process.Arguments
import Kernel391.Files.Lookup
import Mathlib.Data.Finset.Basic

/-!
# Descriptors

`open` hands out the lowest free slot of the eight in a descriptor array. `close`, `read` and
`write` each spell out a range of their own, which ends before the last slot, and so does the loop
of `halt`, which goes through `close`. A process that fills its array gets a descriptor it can
neither use nor give back.
-/

namespace Kernel391
open Base

/-- A call of a process that opens or closes a file. -/
inductive FdCall where
  | sysOpen (fr : Frame) (filename : Option (List UInt8))
  | sysClose (i : Int)

/-- The kernel, with the descriptors the process holds and all it was ever given. -/
structure Descriptors where
  kernel : Kernel
  held : Finset Nat
  opened : Finset Nat

/-- A call that completes, with the descriptor it gives or takes. -/
def FdCall.step (d : Descriptors) : FdCall → Option Descriptors
  | .sysOpen fr filename => (d.kernel.sysOpen fr filename).map fun r =>
    if r.2 = -1 then { d with kernel := r.1 }
    else ⟨r.1, insert r.2.toNat d.held, insert r.2.toNat d.opened⟩
  | .sysClose i => (d.kernel.sysClose i).map fun r =>
    if r.2 = -1 then { d with kernel := r.1 }
    else { d with kernel := r.1, held := d.held.erase i.toNat }

/-- Every descriptor process `pid` holds can be closed, which frees it, and goes past the checks of
`read` and `write` to the file's operation; and where `halt` completes, every descriptor the process
was ever given is free in its control block. -/
structure Usable (pid : Int) (d : Descriptors) : Prop where
  closes : ∀ fd ∈ d.held, ∃ s r, d.kernel.sysClose fd = some (s, r) ∧
    r ≠ -1 ∧ (s.proc.fd fd).flags = 0
  reads : ∀ fd ∈ d.held, ∀ buf n, userBuffer buf n → d.kernel.readResult (BitVec.ofNat 32 fd) buf n
    = d.kernel.tableRead fd buf n (d.kernel.proc.fd fd).fileotPointer
  writes : ∀ fd ∈ d.held, ∀ buf n, userBuffer buf n → d.kernel.sysWrite (BitVec.ofNat 32 fd) buf n
    = d.kernel.tableWrite buf n (d.kernel.proc.fd fd).fileotPointer
  releases : ∀ fr status s c, d.kernel.halt fr status = some (s, c) →
    ∀ fd ∈ d.opened, ((s.proc.pcb (pcbAddr pid)).fdArray fd).flags = 0

/-- The call opens a name of the directory when every descriptor but the last is in use. -/
def TakesLast (s : Kernel) (c : FdCall) : Prop :=
  (∀ fd < 7, (s.proc.fd fd).flags ≠ 0) ∧ (s.proc.fd 7).flags = 0 ∧ ∃ fr name ret st,
    c = .sysOpen fr (some name) ∧
    readDentryByName s.mem s.fs (upToNul name) = some (ret, st) ∧ ret ≠ -1

/-- The two strings of every directory slot that is copied end within a record. The slot at
`dentry_num`, which no entry uses, is copied too. -/
def SlotsFit (m : Mem) (fs : Fs) : Prop :=
  ∀ i < 63, i ≤ fs.dentryNum m → (∃ z < 64, fs.fileName m i z = 0) ∧ ∃ z < 24, fs.reserved m i z = 0

/-! ## The copies `close` makes -/

section Copies

variable {m : Mem} {fs : Fs} {i o : Nat} {l : List UInt8} {g : Nat → UInt8}

/-- A copy stores at every offset of its length. -/
lemma storesAt_reaches (o : Nat) {k : Nat} (hk : k < l.length) :
    ∃ ob ∈ storesAt o l, ob.1 = o + k := by
  induction l generalizing o k with
  | nil => cases hk
  | cons b l ih =>
      rw [storesAt]
      cases k with
      | zero => exact ⟨(o, b), List.mem_cons_self, rfl⟩
      | succ k =>
          obtain ⟨ob, h, e⟩ := ih (o + 1) (Nat.lt_of_succ_lt_succ hk)
          exact ⟨ob, List.mem_cons_of_mem _ h, by omega⟩

/-- Where all bytes `strcpy` stores from offset `o` on fit a record, the string ends in it. -/
lemma strcpy_ends (copy : strcpy g = some l) (fits : ∀ ob ∈ storesAt o l, ob.1 < 64) :
    ∃ z, o + z < 64 ∧ g z = 0 := by
  obtain ⟨n, hn, rfl⟩ := Option.map_eq_some_iff.mp copy
  obtain ⟨nul, -⟩ := strlen_spec hn
  obtain ⟨ob, h, e⟩ := storesAt_reaches o (l := (List.range n).map g ++ [0]) (k := n) (by simp)
  exact ⟨n, e ▸ fits ob h, nul⟩

/-- The copy of a slot fits a record exactly when its two strings end in time. -/
lemma readDentryByIndex_fits_iff (valid : i ≤ fs.dentryNum m) :
    (∃ r st, readDentryByIndex m fs i = some (r, st) ∧ ∀ ob ∈ st, ob.1 < 64) ↔
      (∃ z < 64, fs.fileName m i z = 0) ∧ ∃ z < 24, fs.reserved m i z = 0 := by
  constructor
  · rintro ⟨r, st, run, fits⟩
    rw [readDentryByIndex, if_neg (by omega)] at run
    split at run
    next name reserved hname hreserved =>
      cases run
      have first := strcpy_ends (o := 0) hname fun ob h =>
        fits ob (List.mem_append_left _ (List.mem_append_right _ h))
      have second := strcpy_ends (o := 40) hreserved fun ob h => fits ob (List.mem_append_right _ h)
      obtain ⟨z, hz, nul⟩ := first
      obtain ⟨z', hz', nul'⟩ := second
      exact ⟨⟨z, by omega, nul⟩, z', by omega, nul'⟩
    next => cases run
  · rintro ⟨name, reserved⟩
    obtain ⟨st, run, fits⟩ := readDentryByIndex_fits valid name reserved
    exact ⟨0, st, run, fits⟩

/-- The loops of `close` complete exactly when the copies fit. -/
lemma closeScan_iff (s : Kernel) : s.closeScan = true ↔ SlotsFit s.mem s.fs := by
  rw [Kernel.closeScan, List.all_eq_true, SlotsFit]
  refine forall_congr' fun i => ?_
  rw [List.mem_range]
  refine imp_congr_right fun _ => ?_
  rcases Nat.lt_or_ge (s.fs.dentryNum s.mem) i with beyond | valid
  · rw [readDentryByIndex, if_pos beyond]
    exact iff_of_true rfl fun valid => by omega
  · rw [forall_prop_of_true valid, ← readDentryByIndex_fits_iff valid]
    cases readDentryByIndex s.mem s.fs i with
    | none => simp
    | some x =>
        obtain ⟨ret, st⟩ := x
        simp

end Copies

/-! ## The flags of the descriptors -/

section Flags

variable {s s' : Kernel} {fr : Frame} {pid r : Int} {k i fd : Nat}

/-- `terminal_close` changes no process. -/
lemma proc_terminalClose (s : Kernel) : s.terminalClose.proc = s.proc :=
  congrArg ProcView.proc procView_terminalClose

/-- `close` in terms of the process globals: it does nothing, or clears the flags of one
descriptor. -/
lemma sysClose_proc {i : Int} (run : s.sysClose i = some (s', r)) :
    (s' = s ∧ r = -1 ∧ (7 ≤ i ∨ i < 2 ∨ s.proc.filedArray = 0 ∨ (s.proc.fd i.toNat).flags = 0)) ∨
    ∃ fd : Nat, i = fd ∧ 2 ≤ fd ∧ fd < 7 ∧ r ≠ -1 ∧
      s'.proc = s.proc.setFd fd { s.proc.fd fd with flags := 0 } := by
  rcases sysClose_cases run with h | ⟨fd, rfl, low, high, -, closed, rfl | rfl⟩
  · exact .inl h
  · exact .inr ⟨fd, rfl, low, high, closed, rfl⟩
  · exact .inr ⟨fd, rfl, low, high, closed, proc_terminalClose _⟩

/-- `close` opens nothing. -/
lemma sysClose_free {i : Int} (run : s.sysClose i = some (s', r))
    (free : (s.proc.fd fd).flags = 0) :
    (s'.proc.fd fd).flags = 0 := by
  rcases sysClose_proc run with ⟨rfl, -⟩ | ⟨fd', -, -, -, -, e⟩
  · exact free
  · rw [e, Proc.fd_setFd]
    split_ifs
    · rfl
    · exact free

/-- A `close` that succeeds went through the directory. -/
lemma sysClose_scans {i : Int} (run : s.sysClose i = some (s', r)) (closed : r ≠ -1) :
    s.closeScan = true := by
  rw [Kernel.sysClose] at run
  split_ifs at run with _ _ _ scan
  · exact absurd (Prod.mk.inj (Option.some.inj run)).2.symm closed
  · exact absurd (Prod.mk.inj (Option.some.inj run)).2.symm closed
  · exact absurd (Prod.mk.inj (Option.some.inj run)).2.symm closed
  · exact Bool.not_eq_false _ ▸ scan

/-- In its range, `close` leaves the descriptor free. -/
lemma sysClose_frees (mapped : s.proc.filedArray ≠ 0) (low : 2 ≤ fd) (high : fd < 7)
    (run : s.sysClose fd = some (s', r)) : (s'.proc.fd fd).flags = 0 := by
  rcases sysClose_proc run with ⟨rfl, -, h | h | h | free⟩ | ⟨fd', same, -, -, -, e⟩
  · omega
  · omega
  · exact absurd h mapped
  · exact free
  · obtain rfl := Int.ofNat.inj same
    rw [e, Proc.fd_setFd, if_pos rfl]

/-- The `close` of every table succeeds. -/
lemma tableClose_succeeds (h : i < 4) : ∃ s' r, s.tableClose i = some (s', r) ∧ r ≠ -1 :=
  match i, h with
  | 0, _ => ⟨_, _, rfl, by decide⟩
  | 1, _ => ⟨_, _, rfl, by decide⟩
  | 2, _ => ⟨_, _, rfl, by decide⟩
  | 3, _ => ⟨_, _, rfl, by decide⟩

/-- `close` of a descriptor in use: once the directory has been gone through, its flags are cleared
before the operation of the table runs. -/
lemma sysClose_used (mapped : s.proc.filedArray ≠ 0) (low : 2 ≤ fd) (high : fd < 7)
    (used : (s.proc.fd fd).flags ≠ 0) : s.sysClose fd = if s.closeScan = false then none
      else { s with proc := s.proc.setFd fd { s.proc.fd fd with flags := 0 } }.tableClose
        (s.proc.fd fd).fileotPointer := by
  have range : ¬ ((fd : Int) ≥ 7 ∨ (fd : Int) < 0) := by omega
  have unused : ¬ ((fd : Int) = 0 ∨ (fd : Int) = 1 ∨ (s.proc.fd (fd : Int).toNat).flags = 0) := by
    rintro (h | h | h)
    · omega
    · omega
    · exact used h
  rw [Kernel.sysClose, if_neg range, if_neg mapped, if_neg unused]
  rfl

/-- A descriptor in use that has an operation is closed, if the copies of the directory fit. -/
lemma sysClose_succeeds (mapped : s.proc.filedArray ≠ 0) (low : 2 ≤ fd) (high : fd < 7)
    (used : (s.proc.fd fd).flags ≠ 0) (table : (s.proc.fd fd).fileotPointer < 4)
    (fit : s.closeScan = true) : ∃ s' r, s.sysClose fd = some (s', r) ∧ r ≠ -1 := by
  have scan : ¬ s.closeScan = false := by
    rw [fit]
    decide
  rw [sysClose_used mapped low high used, if_neg scan]
  exact tableClose_succeeds table

/-- The loop of `halt` keeps free what is free. -/
lemma closeFrom_free (run : Kernel.closeFrom k i s = some s') (free : (s.proc.fd fd).flags = 0) :
    (s'.proc.fd fd).flags = 0 := by
  induction k generalizing i s with
  | zero =>
      cases run
      exact free
  | succ k ih =>
      obtain ⟨t, r, first, rest⟩ := closeFrom_succ run
      exact ih rest (sysClose_free first free)

/-- The loop of `halt` frees what lies in the ranges of both. -/
lemma closeFrom_frees (mapped : s.proc.filedArray ≠ 0) (run : Kernel.closeFrom k i s = some s')
    (low : 2 ≤ fd) (high : fd < 7) (from_le : i ≤ fd) (lt_end : fd < i + k) :
    (s'.proc.fd fd).flags = 0 := by
  induction k generalizing i s with
  | zero => omega
  | succ k ih =>
      obtain ⟨t, r, first, rest⟩ := closeFrom_succ run
      rcases Nat.eq_or_lt_of_le from_le with rfl | lt
      · exact closeFrom_free rest (sysClose_frees mapped low high first)
      · have array : t.proc.filedArray = s.proc.filedArray := (fdsChanged_close first).filedArray
        exact ih (array ▸ mapped) rest lt (by omega)

/-- Clearing the descriptors keeps free what is free. -/
lemma clearFd_free (run : s.clearFd i = some s') (free : (s.proc.fd fd).flags = 0) :
    (s'.proc.fd fd).flags = 0 := by
  rw [Kernel.clearFd] at run
  obtain ⟨r, close⟩ := map_fst_eq_some run
  apply sysClose_free close
  show ((s.proc.setFd i _).fd fd).flags = 0
  rw [Proc.fd_setFd]
  split_ifs
  · rfl
  · exact free

/-- A process that ends leaves the descriptors 2 to 6 free. -/
lemma returnToParent_frees {parentpid : Int} {status : UInt8} {c : Control}
    (mapped : s.proc.filedArray ≠ 0) (run : s.returnToParent parentpid status = some (s', c))
    (low : 2 ≤ fd) (high : fd < 7) : ((s'.proc.pcb s.proc.filedArray).fdArray fd).flags = 0 := by
  obtain ⟨-, s₁, s₂, s₃, h₁, h₂, h₃, e⟩ := returnToParent_steps run
  cases e
  have fds := ((fdsChanged_closeFrom h₁).trans (fdsChanged_clearFd h₂)).trans
    (fdsChanged_clearFd h₃)
  have array : s₃.proc.filedArray = s.proc.filedArray := fds.filedArray
  have closed : (s₁.proc.fd fd).flags = 0 := by
    apply closeFrom_frees _ h₁ low high low (show fd < 2 + 6 by omega)
    exact mapped
  have free := clearFd_free h₃ (clearFd_free h₂ closed)
  rw [Proc.fd, array] at free
  exact free

/-! ### A process that starts -/

/-- The control block of a process that starts has 0 and 1 open and the rest free. -/
lemma fdArray_startProcess (fr : Frame) {loaded : Kernel} (hp : loaded.proc.newPid = pid)
    (arg : List UInt8) : ((loaded.startProcess fr arg).proc.pcb (pcbAddr pid)).fdArray
      = Kernel.initFdArray (loaded.proc.pcb (pcbAddr pid)).fdArray := by
  have block : ((loaded.initializePCB.setArg arg).proc.pcb (pcbAddr pid)).fdArray
      = Kernel.initFdArray (loaded.proc.pcb (pcbAddr pid)).fdArray := by
    simp only [Kernel.setArg, Kernel.initializePCB, Proc.pcb, Proc.setPcb, Function.update_self, hp]
  have stack := pcb_startProcess fr loaded arg (pcbAddr pid)
  rw [PCB.SameButStack] at stack
  rw [stack]
  exact block

/-- A process starts with the descriptors of `initialize_PCB`. -/
lemma fdArray_execute {command : Option (List UInt8)} {eip : Nat}
    (start : s.execute fr command = some (s', .user pid eip)) :
    ∃ old, (s'.proc.pcb (pcbAddr pid)).fdArray = Kernel.initFdArray old := by
  obtain ⟨line, inode, loaded, -, -, -, -, -, load, rfl, -⟩ := execute_user start
  obtain ⟨_, m, -, rfl⟩ := loadFile_some load
  exact ⟨_, fdArray_startProcess fr rfl _⟩

/-- Every identifier below the one `execute` takes is in use. -/
lemma freePid_lowest (h : s.freePid = some pid) :
    ∀ q : Nat, (q : Int) < pid → s.proc.pidCheck q ≠ 0 := by
  intro q lt
  obtain ⟨i, hi, rfl⟩ := Option.map_eq_some_iff.mp h
  have before := (List.find?_range_eq_some.mp hi).2.2 q (Int.ofNat_lt.mp lt)
  simpa using before

/-! ### The lowest free descriptor -/

/-- The descriptor `open` takes is the lowest that is free. -/
lemma freeFd_spec (h : s.freeFd = some fd) :
    fd < 8 ∧ (s.proc.fd fd).flags = 0 ∧ ∀ i < fd, (s.proc.fd i).flags ≠ 0 := by
  obtain ⟨free, range, before⟩ := List.find?_range_eq_some.mp h
  refine ⟨List.mem_range.mp range, beq_iff_eq.mp free, fun i hi => ?_⟩
  simpa using before i hi

/-- No descriptor is free when all are in use. -/
lemma freeFd_none (h : s.freeFd = none) : ∀ fd < 8, (s.proc.fd fd).flags ≠ 0 := by
  intro fd lt free
  have none := List.find?_eq_none.mp h fd (List.mem_range.mpr lt)
  exact none (beq_iff_eq.mpr free)

/-- `open` in terms of the process globals: it does nothing, for one of four reasons, or the lowest
free descriptor is in use, with an operation. -/
lemma sysOpen_proc {filename : Option (List UInt8)} (run : s.sysOpen fr filename = some (s', r)) :
    (s' = s ∧ r = -1 ∧ (filename = none ∨ s.proc.filedArray = 0 ∨ s.freeFd = none ∨ ∃ name st,
      filename = some name ∧ readDentryByName s.mem s.fs (upToNul name) = some (-1, st))) ∨
    ∃ counter e name ret st, r = (counter : Nat) ∧ s.freeFd = some counter ∧
      s'.proc = s.proc.setFd counter e ∧ e.flags ≠ 0 ∧ e.fileotPointer < 4 ∧ filename = some name ∧
      readDentryByName s.mem s.fs (upToNul name) = some (ret, st) ∧ ret ≠ -1 := by
  rcases sysOpen_cases run with
    h | ⟨name, ret, st, d, counter, t, ret', rfl, -, lookup, found, -, hc, ht, rfl, rfl⟩
  · exact .inl h
  have table : dentryFileType d < 4 := by
    rcases tableOpen_cases ht with ⟨two, -⟩ | ⟨-, lt, -⟩
    · omega
    · exact lt
  refine .inr
    ⟨counter, Kernel.openEntry d 1, name, ret, st, rfl, hc, ?_, ?_, table, rfl, lookup, found⟩
  · show t.proc.setFd counter (Kernel.openEntry d 1) = _
    rw [tableOpen_proc ht]
    exact Proc.setFd_setFd ..
  · exact Nat.one_ne_zero

end Flags

/-! ## The histories of a process -/

/-- What a process that opens and closes files keeps: its descriptor array is its own, 0 and 1 stay
open, the descriptors it holds are in use and have an operation, and the last one stays once
taken. -/
structure Holding (pid : Int) (d : Descriptors) : Prop where
  nonneg : 0 ≤ pid
  below : pid < 6
  filedArray : d.kernel.proc.filedArray = pcbAddr pid
  curPid : d.kernel.proc.curPid = pid
  lower : ∀ q : Nat, (q : Int) < pid → d.kernel.proc.pidCheck q ≠ 0
  std : ∀ fd < 2, (d.kernel.proc.fd fd).flags ≠ 0
  opened : ∀ fd ∈ d.opened, 2 ≤ fd ∧ fd < 8
  held : ∀ fd ∈ d.held, fd ∈ d.opened ∧ (d.kernel.proc.fd fd).flags ≠ 0 ∧
    (d.kernel.proc.fd fd).fileotPointer < 4
  last : 7 ∈ d.opened → 7 ∈ d.held

section Histories

variable {d d' : Descriptors} {c : FdCall} {s s₀ : Kernel} {fr : Frame} {pid : Int} {eip : Nat}
variable {command : Option (List UInt8)}

/-- A control block is not at address 0. -/
lemma pcbAddr_ne_zero (h0 : 0 ≤ pid) (h6 : pid < 6) : pcbAddr pid ≠ 0 := by
  rw [pcbAddr, endOfKernel, kernelStackSize]
  omega

/-- The descriptors of a process are in mapped memory. -/
lemma Holding.fdArrayMapped (inv : Holding pid d) : d.kernel.fdArrayMapped := by
  have h0 := inv.nonneg
  have h6 := inv.below
  rw [Kernel.fdArrayMapped, inv.filedArray, KernelPtr, pcbAddr, endOfKernel, kernelStackSize]
  omega

/-- A process starts with nothing held. -/
lemma holding_start (start : s.execute fr command = some (s₀, .user pid eip)) :
    Holding pid ⟨s₀, ∅, ∅⟩ := by
  have st := started_execute start
  obtain ⟨old, block⟩ := fdArray_execute start
  have array : s₀.proc.filedArray = pcbAddr pid := st.filedArray
  have fds : s₀.proc.fd = Kernel.initFdArray old := by
    funext fd
    rw [Proc.fd, array]
    exact congrFun block fd
  obtain ⟨_, _, _, -, -, -, -, free, -⟩ := execute_user start
  refine ⟨st.nonneg, st.below, array, st.curPid, fun q lt => ?_, fun fd lt => ?_, ?_, ?_, ?_⟩
  · have check : s₀.proc.pidCheck = Function.update s.proc.pidCheck pid 1 := st.pidCheck
    rw [check, Function.update_of_ne (by omega)]
    exact freePid_lowest free q lt
  · show (s₀.proc.fd fd).flags ≠ 0
    rw [fds, Kernel.initFdArray, if_pos lt]
    exact Nat.one_ne_zero
  · simp
  · simp
  · simp

/-- A call that changes one descriptor above 1 leaves the array and the process what they are. -/
lemma Holding.of_setFd (inv : Holding pid d) {k : Nat} {e : FdArray} (above : 2 ≤ k)
    (proc : d'.kernel.proc = d.kernel.proc.setFd k e)
    (opened : ∀ fd ∈ d'.opened, 2 ≤ fd ∧ fd < 8)
    (held : ∀ fd ∈ d'.held, fd ∈ d'.opened ∧ (if fd = k then e else d.kernel.proc.fd fd).flags ≠ 0 ∧
      (if fd = k then e else d.kernel.proc.fd fd).fileotPointer < 4)
    (last : 7 ∈ d'.opened → 7 ∈ d'.held) : Holding pid d' := by
  have fds (fd : Nat) : d'.kernel.proc.fd fd = if fd = k then e else d.kernel.proc.fd fd := by
    rw [proc]
    exact Proc.fd_setFd ..
  refine ⟨inv.nonneg, inv.below, ?_, ?_, fun q lt => ?_, fun fd lt => ?_, opened, fun fd mem => ?_,
    last⟩
  · rw [proc]
    exact inv.filedArray
  · rw [proc]
    exact inv.curPid
  · rw [proc]
    exact inv.lower q lt
  · rw [fds, if_neg (by omega)]
    exact inv.std fd lt
  · rw [fds]
    exact held fd mem

/-- One call keeps what is known of the descriptors. -/
lemma Holding.step (inv : Holding pid d) (run : c.step d = some d') : Holding pid d' := by
  cases c with
  | sysOpen fr filename =>
      obtain ⟨⟨s', r⟩, call, rfl⟩ := Option.map_eq_some_iff.mp run
      rcases sysOpen_proc call with
        ⟨rfl, rfl, -⟩ | ⟨counter, e, _, _, _, rfl, free, proc, flags, table, -, -, -⟩
      · exact inv
      obtain ⟨lt, unused, -⟩ := freeFd_spec free
      have ge : 2 ≤ counter := by
        by_contra low
        exact inv.std counter (by omega) unused
      have given : ¬ (counter : Int) = -1 := by omega
      rw [if_neg given]
      refine inv.of_setFd ge proc (fun fd mem => ?_) (fun fd mem => ?_) (fun mem => ?_)
      · rcases Finset.mem_insert.mp mem with rfl | mem
        · exact ⟨ge, lt⟩
        · exact inv.opened fd mem
      · show fd ∈ insert counter d.opened ∧ _
        split_ifs with new
        · exact ⟨new ▸ Finset.mem_insert_self .., flags, table⟩
        · obtain ⟨mem, rest⟩ := inv.held fd ((Finset.mem_insert.mp mem).resolve_left new)
          exact ⟨Finset.mem_insert_of_mem mem, rest⟩
      · rcases Finset.mem_insert.mp mem with new | mem
        · exact new ▸ Finset.mem_insert_self ..
        · exact Finset.mem_insert_of_mem (inv.last mem)
  | sysClose i =>
      obtain ⟨⟨s', r⟩, call, rfl⟩ := Option.map_eq_some_iff.mp run
      rcases sysClose_proc call with ⟨rfl, rfl, -⟩ | ⟨closed, rfl, low, high, done, proc⟩
      · exact inv
      rw [if_neg done]
      refine inv.of_setFd low proc inv.opened (fun fd mem => ?_) (fun mem => ?_)
      · obtain ⟨ne, mem⟩ := Finset.mem_erase.mp mem
        rw [if_neg (show ¬ fd = closed from ne)]
        exact inv.held fd mem
      · -- `close` refuses the last descriptor
        have ne : 7 ≠ closed := by omega
        exact Finset.mem_erase.mpr ⟨ne, inv.last mem⟩

/-- The shell that starts again in place of the first process of a terminal gets the slot it had. -/
lemma Holding.freePid_vacated (inv : Holding pid d) {text : List UInt8} {p : Int}
    (free : (d.kernel.vacated text).freePid = some p) : p = pid := by
  have view : (d.kernel.vacated text).proc.pidCheck
      = Function.update d.kernel.proc.pidCheck pid 0 := by
    have proc := congrArg ProcView.proc (procView_vacated d.kernel text)
    rw [← inv.curPid]
    exact congrArg Proc.pidCheck proc
  obtain ⟨nonneg, -, unused⟩ := freePid_spec free
  obtain ⟨own, e⟩ := Int.eq_ofNat_of_zero_le inv.nonneg
  obtain ⟨q, rfl⟩ := Int.eq_ofNat_of_zero_le nonneg
  rcases lt_trichotomy (q : Int) pid with lt | same | gt
  · rw [view, Function.update_of_ne (Int.ne_of_lt lt)] at unused
    exact absurd unused (inv.lower q lt)
  · exact same
  · have taken := freePid_lowest free own (e ▸ gt)
    rw [view, ← e, Function.update_self] at taken
    exact absurd rfl taken

/-- `halt` frees every descriptor but the last. -/
lemma Holding.releases (inv : Holding pid d) (last : 7 ∉ d.held) {status : UInt8} {c : Control}
    (run : d.kernel.halt fr status = some (s, c)) :
    ∀ fd ∈ d.opened, ((s.proc.pcb (pcbAddr pid)).fdArray fd).flags = 0 := by
  intro fd mem
  obtain ⟨low, high⟩ := inv.opened fd mem
  have ne : fd ≠ 7 := by
    rintro rfl
    exact last (inv.last mem)
  obtain ⟨-, ⟨-, ends⟩ | ⟨-, text, s', p, eip, start, e⟩⟩ := halt_cases run
  · have mapped : d.kernel.proc.filedArray ≠ 0 := by
      rw [inv.filedArray]
      exact pcbAddr_ne_zero inv.nonneg inv.below
    have free := returnToParent_frees (by exact mapped) ends low (show fd < 7 by omega)
    rw [← inv.filedArray]
    exact free
  · obtain ⟨rfl, -⟩ := Prod.mk.inj e
    obtain ⟨_, _, _, -, -, -, -, free, -⟩ := execute_user start
    obtain rfl := inv.freePid_vacated free
    obtain ⟨old, block⟩ := fdArray_execute start
    rw [block, Kernel.initFdArray, if_neg (by omega), if_pos high]

/-- The descriptors are usable as long as the last one is not held and the copies `close` makes of
the directory fit. -/
lemma Holding.usable (inv : Holding pid d) :
    Usable pid d ↔ 7 ∉ d.held ∧ (d.held ≠ ∅ → SlotsFit d.kernel.mem d.kernel.fs) := by
  have mapped : d.kernel.proc.filedArray ≠ 0 := by
    rw [inv.filedArray]
    exact pcbAddr_ne_zero inv.nonneg inv.below
  constructor
  · intro usable
    have last : 7 ∉ d.held := by
      intro mem
      obtain ⟨s, r, close, closed, -⟩ := usable.closes 7 mem
      rcases sysClose_proc close with ⟨-, refused, -⟩ | ⟨fd, seven, -, high, -⟩
      · exact closed refused
      · omega
    refine ⟨last, fun some_held => ?_⟩
    obtain ⟨fd, mem⟩ := Finset.nonempty_iff_ne_empty.mpr some_held
    obtain ⟨s, r, close, closed, -⟩ := usable.closes fd mem
    rw [← closeScan_iff]
    exact sysClose_scans close closed
  · rintro ⟨last, fit⟩
    have range (fd : Nat) (mem : fd ∈ d.held) : 2 ≤ fd ∧ fd < 7 := by
      obtain ⟨low, high⟩ := inv.opened fd (inv.held fd mem).1
      have ne : fd ≠ 7 := by
        rintro rfl
        exact last mem
      exact ⟨low, by omega⟩
    refine ⟨fun fd mem => ?_, fun fd mem buf n page => ?_, fun fd mem buf n page => ?_,
      fun fr status s c run => inv.releases last run⟩
    · obtain ⟨low, high⟩ := range fd mem
      obtain ⟨-, used, table⟩ := inv.held fd mem
      have scan := (closeScan_iff d.kernel).mpr (fit (Finset.ne_empty_of_mem mem))
      obtain ⟨s, r, close, closed⟩ := sysClose_succeeds mapped low high used table scan
      exact ⟨s, r, close, closed, sysClose_frees mapped low high close⟩
    · obtain ⟨low, high⟩ := range fd mem
      have word : (BitVec.ofNat 32 fd).toNat = fd := Nat.mod_eq_of_lt (by omega)
      have self : d.kernel.readFd fd = fd := if_neg (by omega)
      rw [Kernel.readResult, if_neg (not_not.mpr page), word, if_neg (by omega),
        if_neg (not_not.mpr (inv.fdArrayMapped)), if_neg (inv.held fd mem).2.1, self]
    · obtain ⟨low, high⟩ := range fd mem
      have word : (BitVec.ofNat 32 fd).toNat = fd := Nat.mod_eq_of_lt (by omega)
      rw [Kernel.sysWrite, if_neg (not_not.mpr page), word, if_neg (by omega),
        if_neg (not_not.mpr (inv.fdArrayMapped)), if_neg (inv.held fd mem).2.1]

/-- The last descriptor comes to be held by the `open` that takes it. -/
lemma Holding.takesLast_iff (inv : Holding pid d) (before : 7 ∉ d.held) (run : c.step d = some d') :
    7 ∈ d'.held ↔ TakesLast d.kernel c := by
  cases c with
  | sysOpen fr filename =>
      obtain ⟨⟨s', r⟩, call, rfl⟩ := Option.map_eq_some_iff.mp run
      rcases sysOpen_proc call with ⟨rfl, rfl, reason⟩ |
        ⟨counter, e, name, ret, st, rfl, free, -, -, -, rfl, lookup, found⟩
      · refine iff_of_false before ?_
        rintro ⟨used, unused, fr', name, ret, st, same, lookup, found⟩
        obtain ⟨rfl, rfl⟩ := FdCall.sysOpen.inj same
        rcases reason with h | h | h | ⟨_, st', ⟨⟩, lookup'⟩
        · cases h
        · rw [inv.filedArray] at h
          exact pcbAddr_ne_zero inv.nonneg inv.below h
        · exact freeFd_none h 7 (by decide) unused
        · cases lookup.symm.trans lookup'
          exact found rfl
      obtain ⟨-, unused, lower⟩ := freeFd_spec free
      have given : ¬ (counter : Int) = -1 := by omega
      rw [if_neg given]
      show 7 ∈ insert counter d.held ↔ _
      rw [Finset.mem_insert, or_iff_left before]
      constructor
      · rintro rfl
        exact ⟨lower, unused, fr, name, ret, st, rfl, lookup, found⟩
      · rintro ⟨used, unused', -⟩
        rcases lt_trichotomy counter 7 with lt | rfl | gt
        · exact absurd unused (used counter lt)
        · rfl
        · exact absurd unused' (lower 7 gt)
  | sysClose i =>
      obtain ⟨⟨s', r⟩, call, rfl⟩ := Option.map_eq_some_iff.mp run
      have not : ¬ TakesLast d.kernel (.sysClose i) := by
        rintro ⟨-, -, _, _, _, _, ⟨⟩, -⟩
      refine iff_of_false (fun mem => ?_) not
      dsimp only at mem
      split_ifs at mem
      · exact before mem
      · exact before (Finset.mem_of_mem_erase mem)

/-- **Descriptors are usable** in every state of a history exactly when no call of it takes the last
descriptor, and the copies `close` makes of the directory fit wherever a descriptor is held. -/
theorem usable_iff (start : s.execute fr command = some (s₀, .user pid eip)) (cs : List FdCall) :
    Throughout FdCall.step (Usable pid) ⟨s₀, ∅, ∅⟩ cs ↔
      Meets FdCall.step (fun d c => ¬ TakesLast d.kernel c) ⟨s₀, ∅, ∅⟩ cs ∧
      Throughout FdCall.step (fun d => d.held ≠ ∅ → SlotsFit d.kernel.mem d.kernel.fs)
        ⟨s₀, ∅, ∅⟩ cs := by
  have inv := holding_start start
  have usable : Usable pid ⟨s₀, ∅, ∅⟩ :=
    inv.usable.mpr ⟨Finset.notMem_empty 7, fun some_held => absurd rfl some_held⟩
  have fit : (∅ : Finset Nat) ≠ ∅ → SlotsFit s₀.mem s₀.fs := fun some_held => absurd rfl some_held
  rw [Throughout, Throughout, and_iff_right usable, and_iff_right fit, Meets, ← along_and]
  apply along_iff fun d => Holding pid d ∧ 7 ∉ d.held
  · rintro d c d' ⟨inv, last⟩ run
    have inv' := inv.step run
    rw [inv'.usable, inv.takesLast_iff last run]
    exact ⟨fun h => ⟨inv', h.1⟩, Iff.rfl⟩
  · exact ⟨inv, Finset.notMem_empty 7⟩

/-- A process opens the directory and the rtc, and closes the directory. -/
def sampleHistory : List FdCall :=
  [.sysOpen sampleFrame (some [46]), .sysOpen sampleFrame (some [114, 116, 99]), .sysClose 2]

/-- Both descriptors can be used, until the one that is closed is free again. -/
theorem usable_iff_sample : ∃ s : Kernel,
    (Kernel.boot sampleBoot).execute sampleFrame (some Kernel.shellCommand)
      = some (s, .user 0 0x08048018) ∧
    (∃ d, runs FdCall.step ⟨s, ∅, ∅⟩ sampleHistory = some d ∧ d.held = {3} ∧ d.opened = {2, 3}) ∧
    Throughout FdCall.step (Usable 0) ⟨s, ∅, ∅⟩ sampleHistory := by
  -- the last descriptor stays free, and the directory fits the copies of `close`
  have facts : ((Kernel.boot sampleBoot).execute sampleFrame (some Kernel.shellCommand)).bind
      (fun r => (FdCall.step ⟨r.1, ∅, ∅⟩ (.sysOpen sampleFrame (some [46]))).bind fun d₁ =>
        (FdCall.step d₁ (.sysOpen sampleFrame (some [114, 116, 99]))).bind fun d₂ =>
        (FdCall.step d₂ (.sysClose 2)).map fun d₃ => (r.2, decide (d₃.held = {3} ∧
          d₃.opened = {2, 3}), decide ((r.1.proc.fd 2).flags = 0 ∧ (d₁.kernel.proc.fd 3).flags = 0),
          d₁.kernel.closeScan && d₂.kernel.closeScan && d₃.kernel.closeScan))
      = some (.user 0 0x08048018, true, true, true) := by decide +kernel
  obtain ⟨⟨s, c⟩, start, h⟩ := Option.bind_eq_some_iff.mp facts
  obtain ⟨d₁, h₁, h⟩ := Option.bind_eq_some_iff.mp h
  obtain ⟨d₂, h₂, h⟩ := Option.bind_eq_some_iff.mp h
  obtain ⟨d₃, h₃, e⟩ := Option.map_eq_some_iff.mp h
  simp only [Prod.mk.injEq, decide_eq_true_eq, Bool.and_eq_true] at e
  obtain ⟨rfl, counted, ⟨free, free₁⟩, ⟨fit₁, fit₂⟩, fit₃⟩ := e
  refine ⟨s, start, ⟨d₃, ?_, counted⟩, (usable_iff start sampleHistory).mpr ⟨?_, ?_, ?_⟩⟩
  · simp only [sampleHistory, runs_cons, runs_nil, h₁, h₂, h₃, Option.bind_some]
  · refine .cons (fun takes => takes.1 2 (by decide) free) h₁
      (.cons (fun takes => takes.1 3 (by decide) free₁) h₂ (.cons ?_ h₃ trivial))
    rintro ⟨-, -, _, _, _, _, ⟨⟩, -⟩
  · exact fun held => absurd rfl held
  · exact Along.cons (fun _ => (closeScan_iff _).mp fit₁) h₁
      (Along.cons (fun _ => (closeScan_iff _).mp fit₂) h₂
        (Along.cons (fun _ => (closeScan_iff _).mp fit₃) h₃ trivial))

/-- A process that opens the directory six times gets a descriptor that `close` refuses. -/
theorem not_always_usable : ¬ ∀ (fr : Frame) (s s₀ : Kernel) (command : Option (List UInt8))
    (pid : Int) (eip : Nat) (cs : List FdCall), s.execute fr command = some (s₀, .user pid eip) →
    Throughout FdCall.step (Usable pid) ⟨s₀, ∅, ∅⟩ cs := by
  intro claim
  let six := List.replicate 6 (FdCall.sysOpen sampleFrame (some [46]))
  have facts :
    ((Kernel.boot sampleBoot).execute sampleFrame (some Kernel.shellCommand)).map (fun r =>
      (r.2, (runs FdCall.step ⟨r.1, ∅, ∅⟩ six).map fun d =>
        (decide (7 ∈ d.held), (d.kernel.sysClose 7).map Prod.snd)))
      = some (.user 0 0x08048018, some (true, some (-1))) := by decide +kernel
  obtain ⟨⟨s, c⟩, start, e⟩ := Option.map_eq_some_iff.mp facts
  obtain ⟨rfl, history⟩ := Prod.mk.inj e
  obtain ⟨d, run, e⟩ := Option.map_eq_some_iff.mp history
  obtain ⟨mem, close⟩ := Prod.mk.inj e
  have usable := (claim _ _ s _ 0 _ six start).last run
  obtain ⟨s', r, close', closed, -⟩ := usable.closes 7 (of_decide_eq_true mem)
  have seven : ((7 : Nat) : Int) = 7 := rfl
  rw [seven] at close'
  rw [close', Option.map_some] at close
  exact closed (Option.some.inj close)

end Histories

end Kernel391
