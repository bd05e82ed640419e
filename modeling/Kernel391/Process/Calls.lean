import Kernel391.Process.View
import Kernel391.Model.Boot

/-!
# What the calls do to processes

For each call of the kernel, the change it makes to the process view: `fdsChanged_*` for the
descriptor calls, `Started` for `execute`, `Exited` and `Restarted` for `halt`, and `change` for
`terminal_switch`. `Call` collects the calls into one system, whose steps are the calls that
succeed.
-/

namespace Kernel391
open Base

section Descriptors

variable {s s' : Kernel} {fr : Frame} {r : Int}

/-- What an operation of the table does when a descriptor is opened: a regular file is looked up
once more, into the record `curdentry` points to. -/
lemma tableOpen_cases {fname : List UInt8} {i : Nat} (run : s.tableOpen fname i = some (s', r)) :
    (i = 2 ∧ ∃ st, readDentryByName s.mem s.fs fname = some (r, st) ∧
      s' = { s with mem := applyStores s.mem s.fs.curdentry st }) ∨
    i ≠ 2 ∧ i < 4 ∧ r ≠ -1 ∧ ∃ a freq, s' = { s with fs.curfile := a, rtc.rtcFreq := freq } := by
  unfold Kernel.tableOpen at run
  split at run
  · cases run
    exact .inr ⟨by decide, by decide, by decide, _, _, rfl⟩
  · cases run
    exact .inr ⟨by decide, by decide, by decide, _, _, rfl⟩
  · obtain ⟨⟨ret, st⟩, hx, e⟩ := Option.map_eq_some_iff.mp run
    cases e
    exact .inl ⟨rfl, st, hx, rfl⟩
  · cases run
    exact .inr ⟨by decide, by decide, by decide, _, _, rfl⟩
  · cases run

/-- It leaves the process globals alone. -/
lemma tableOpen_proc {fname : List UInt8} {i : Nat} (run : s.tableOpen fname i = some (s', r)) :
    s'.proc = s.proc := by
  rcases tableOpen_cases run with ⟨-, st, -, rfl⟩ | ⟨-, -, -, a, freq, rfl⟩
  · rfl
  · rfl

/-- Everything `open` can do: nothing, for one of four reasons, or the lowest free descriptor goes
through the table's operation, which does not fail on a name that was found, and is open. -/
lemma sysOpen_cases {filename : Option (List UInt8)} (run : s.sysOpen fr filename = some (s', r)) :
    (s' = s ∧ r = -1 ∧ (filename = none ∨ s.proc.filedArray = 0 ∨ s.freeFd = none ∨ ∃ name st,
      filename = some name ∧ readDentryByName s.mem s.fs (upToNul name) = some (-1, st))) ∨
    ∃ name ret st d counter t ret', filename = some name ∧ s.proc.filedArray ≠ 0 ∧
      readDentryByName s.mem s.fs (upToNul name) = some (ret, st) ∧ ret ≠ -1 ∧
      localDentry fr.dentry st = some d ∧ s.freeFd = some counter ∧
      { s with proc := s.proc.setFd counter (Kernel.openEntry d 0) }.tableOpen (upToNul name)
        (dentryFileType d) = some (t, ret') ∧
      s' = { t with proc := t.proc.setFd counter (Kernel.openEntry d 1) } ∧ r = counter := by
  unfold Kernel.sysOpen at run
  split at run
  · cases run
    exact .inl ⟨rfl, rfl, .inl rfl⟩
  next name =>
  split_ifs at run with hf
  · cases run
    exact .inl ⟨rfl, rfl, .inr (.inl hf)⟩
  split at run
  · cases run
  next ret st lookup =>
  split_ifs at run with failed
  · cases run
    exact .inl ⟨rfl, rfl, .inr (.inr (.inr ⟨name, st, rfl, failed ▸ lookup⟩))⟩
  split at run
  · cases run
  next d hd =>
  split at run
  · cases run
    exact .inl ⟨rfl, rfl, .inr (.inr (.inl ‹_›))⟩
  next counter hc =>
  dsimp only at run
  split at run
  · cases run
  next t ret' ht =>
  -- a regular file is looked up a second time, in the same memory
  have opened : ret' ≠ -1 := by
    rcases tableOpen_cases ht with ⟨-, st', again, -⟩ | ⟨-, -, opened, -⟩
    · obtain ⟨rfl, -⟩ := Prod.mk.inj (Option.some.inj (lookup.symm.trans again))
      exact failed
    · exact opened
  rw [if_neg opened] at run
  cases run
  exact .inr ⟨name, ret, st, d, counter, t, ret', rfl, hf, lookup, failed, hd, hc, ht, rfl, rfl⟩

/-- Everything `close` can do: nothing, for one of four reasons, or clear the flags of the
descriptor and, on a terminal, the line buffers. -/
lemma sysClose_cases {i : Int} (run : s.sysClose i = some (s', r)) :
    (s' = s ∧ r = -1 ∧ (7 ≤ i ∨ i < 2 ∨ s.proc.filedArray = 0 ∨ (s.proc.fd i.toNat).flags = 0)) ∨
    ∃ fd : Nat, i = fd ∧ 2 ≤ fd ∧ fd < 7 ∧ (s.proc.fd fd).flags ≠ 0 ∧ r ≠ -1 ∧
      (s' = { s with proc := s.proc.setFd fd { s.proc.fd fd with flags := 0 } } ∨
        s' = { s with proc :=
          s.proc.setFd fd { s.proc.fd fd with flags := 0 } }.terminalClose) := by
  unfold Kernel.sysClose at run
  split_ifs at run with range unset unused
  · cases run
    exact .inl ⟨rfl, rfl, by omega⟩
  · cases run
    exact .inl ⟨rfl, rfl, .inr (.inr (.inl unset))⟩
  · cases run
    rcases unused with h | h | h
    · exact .inl ⟨rfl, rfl, .inr (.inl (by omega))⟩
    · exact .inl ⟨rfl, rfl, .inr (.inl (by omega))⟩
    · exact .inl ⟨rfl, rfl, .inr (.inr (.inr h))⟩
  obtain ⟨fd, rfl⟩ := Int.eq_ofNat_of_zero_le (a := i) (by omega)
  have used : (s.proc.fd fd).flags ≠ 0 := fun h => unused (.inr (.inr h))
  refine .inr ⟨fd, rfl, by omega, by omega, used, ?_⟩
  dsimp only at run
  unfold Kernel.tableClose at run
  split at run
  · cases run
    exact ⟨by decide, .inl rfl⟩
  · cases run
    exact ⟨by decide, .inl rfl⟩
  · cases run
    exact ⟨by decide, .inl rfl⟩
  · cases run
    exact ⟨by decide, .inr rfl⟩
  · cases run

/-- What `directory_read` gives when it completes: nothing for a slot of another type, a failure for
a null buffer, or the name, as far as the length goes. -/
lemma directoryRead_cases {fd : Nat} {buf n : BitVec 32} {r : ReadResult}
    (run : s.directoryRead fd buf n = some r) :
    let p := (s.proc.fd fd).position
    let t : Kernel := { s with fs.curfile := s.fs.dentry p }
    (2 < s.fs.fileType s.mem p ∧ r = ⟨0, [], t⟩) ∨ (buf = 0 ∧ r = ⟨-1, [], t⟩) ∨
    (s.fs.fileType s.mem p ≤ 2 ∧ ∃ len length, strlen (s.fs.fileName s.mem p) = some len ∧
      length = min (if n.toInt > fileNameLength then fileNameLength else n.toNat) len ∧
      r = ⟨int32 length, s.mem.fetch (s.fs.dentry p) length,
        { t with proc := s.proc.setFd fd { s.proc.fd fd with position := add32 p 1 } }⟩) := by
  intro p t
  have type : t.fs.fileType t.mem p = s.fs.fileType s.mem p := rfl
  have name : t.fs.fileName t.mem p = s.fs.fileName s.mem p := rfl
  rw [Kernel.directoryRead] at run
  dsimp only at run
  rw [type, name] at run
  split at run
  · cases run
  split at run
  next unknown => exact .inl ⟨by omega, (Option.some.inj run).symm⟩
  next known =>
  split at run
  next null => exact .inr (.inl ⟨null, (Option.some.inj run).symm⟩)
  split at run
  · cases run
  next len hlen =>
  split at run
  · cases run
  · refine .inr (.inr ⟨by omega, len, _, hlen, ?_, (Option.some.inj run).symm⟩)
    split_ifs <;> omega

/-- Everything a `read` that completes does, the stores at the buffer apart: it is refused, or the
buffer passes the check, and a terminal is read or the position of the descriptor, `curfile` and the
rtc's flag change. -/
lemma readResult_cases {fd buf n : BitVec 32} {res : ReadResult}
    (run : s.readResult fd buf n = some res) :
    res = ⟨-1, [], s⟩ ∨ userBuffer buf n ∧
      (s.terminalRead buf.toNat n.toInt = some (res.ret, res.bytes, res.after) ∨
      ∃ p a i, (p = s.proc ∨ ∃ k pos, p = s.proc.setFd k { s.proc.fd k with position := pos }) ∧
        res.after = { s with proc := p, fs.curfile := a, rtc.rtcInterrupt := i }) := by
  rw [Kernel.readResult] at run
  split at run
  · cases run
    exact .inl rfl
  next ok =>
  have ok := not_not.mp ok
  split at run
  · cases run
    exact .inl rfl
  split at run
  · cases run
  split at run
  · cases run
    exact .inl rfl
  refine .inr ⟨ok, ?_⟩
  unfold Kernel.tableRead at run
  split at run
  · rw [Kernel.rtcread] at run
    split_ifs at run
    · cases run
      exact .inr ⟨_, _, _, .inl rfl, rfl⟩
    · cases run
      exact .inr ⟨_, _, _, .inl rfl, rfl⟩
  · split at run
    · rcases directoryRead_cases run with ⟨-, rfl⟩ | ⟨-, rfl⟩ | ⟨-, len, length, -, -, rfl⟩
      · exact .inr ⟨_, _, _, .inl rfl, rfl⟩
      · exact .inr ⟨_, _, _, .inl rfl, rfl⟩
      · exact .inr ⟨_, _, _, .inr ⟨_, _, rfl⟩, rfl⟩
    · cases run
  · split at run
    · cases run
      exact .inr ⟨_, _, _, .inr ⟨_, _, rfl⟩, rfl⟩
    · cases run
  · obtain ⟨⟨ret, bytes, after⟩, hx, e⟩ := Option.map_eq_some_iff.mp run
    cases e
    exact .inl hx
  · cases run

/-- `getargs` changes nothing but what it stores at the buffer. -/
lemma getargsResult_cases {buf n : BitVec 32} {res : ReadResult}
    (run : s.getargsResult buf n = some res) :
    res.after = s ∧ (res.bytes = [] ∨ userBuffer buf n) := by
  rw [Kernel.getargsResult] at run
  split at run
  · cases run
    exact ⟨rfl, .inl rfl⟩
  next ok =>
  have ok := not_not.mp ok
  dsimp only at run
  split_ifs at run
  · cases run
    exact ⟨rfl, .inl rfl⟩
  · cases run
    exact ⟨rfl, .inr ok⟩

/-- `read` is its result and the stores at the buffer. -/
lemma sysRead_spec {fd buf n : BitVec 32} (run : s.sysRead fd buf n = some (s', r)) :
    ∃ res m, s.readResult fd buf n = some res ∧
      storeThrough s.paging res.after.mem buf.toNat res.bytes = some m ∧
      s' = { res.after with mem := m } := by
  rw [Kernel.sysRead] at run
  obtain ⟨res, hres, run⟩ := Option.bind_eq_some_iff.mp run
  obtain ⟨m, hm, run⟩ := Option.bind_eq_some_iff.mp run
  cases run
  exact ⟨res, m, hres, hm, rfl⟩

/-- `getargs` stores what its check lets through. -/
lemma getargs_spec {buf n : BitVec 32} (run : s.getargs buf n = some (s', r)) :
    ∃ res m, s.getargsResult buf n = some res ∧
      storeThrough s.paging res.after.mem buf.toNat res.bytes = some m ∧
      s' = { res.after with mem := m } := by
  rw [Kernel.getargs] at run
  obtain ⟨res, hres, run⟩ := Option.bind_eq_some_iff.mp run
  obtain ⟨m, hm, run⟩ := Option.bind_eq_some_iff.mp run
  cases run
  exact ⟨res, m, hres, hm, rfl⟩

/-- `open` changes descriptors only. -/
lemma fdsChanged_open {filename : Option (List UInt8)}
    (run : s.sysOpen fr filename = some (s', r)) : FdsChanged s.procView s'.procView := by
  rcases sysOpen_cases run with
    ⟨rfl, -⟩ | ⟨name, ret, st, d, counter, t, ret', -, -, -, -, -, -, ht, rfl, -⟩
  · exact .refl _
  have h1 := FdsChanged.setFd s counter (Kernel.openEntry d 0)
  have h2 : t.procView
      = { s with proc := s.proc.setFd counter (Kernel.openEntry d 0) }.procView := by
    rcases tableOpen_cases ht with ⟨-, st', -, rfl⟩ | ⟨-, -, -, a, freq, rfl⟩ <;> rfl
  exact (h1.trans (.of_eq h2)).trans (.setFd t counter _)

/-- `close` changes descriptors only. -/
lemma fdsChanged_close {i : Int} (run : s.sysClose i = some (s', r)) :
    FdsChanged s.procView s'.procView := by
  rcases sysClose_cases run with ⟨rfl, -⟩ | ⟨fd, -, -, -, -, -, rfl | rfl⟩
  · exact .refl _
  · exact .setFd s fd _
  · exact (FdsChanged.setFd s fd _).trans (.of_eq procView_terminalClose)

/-- `read` changes descriptors only. -/
lemma fdsChanged_read {fd buf n : BitVec 32} (run : s.sysRead fd buf n = some (s', r)) :
    FdsChanged s.procView s'.procView := by
  obtain ⟨res, m, hres, -, rfl⟩ := sysRead_spec run
  have same : { res.after with mem := m }.procView = res.after.procView := rfl
  rw [same]
  rcases readResult_cases hres with rfl | ⟨-, ht | ⟨p, a, i, rfl | ⟨k, pos, rfl⟩, after⟩⟩
  · exact .refl _
  · exact .of_eq (procView_terminalRead ht)
  · rw [after]
    exact .refl _
  · rw [after]
    exact .setFd s k _

/-- `write` changes descriptors only. -/
lemma fdsChanged_write {fd buf n : BitVec 32} (run : s.sysWrite fd buf n = some (s', r)) :
    FdsChanged s.procView s'.procView := by
  rw [Kernel.sysWrite] at run
  split at run
  · cases run; exact .refl _
  split at run
  · cases run; exact .refl _
  split at run
  · cases run
  split at run
  · cases run; exact .refl _
  unfold Kernel.tableWrite at run
  split at run
  · cases run; exact .refl _
  · cases run; exact .refl _
  · cases run; exact .refl _
  · obtain ⟨x, hx, e⟩ := Option.map_eq_some_iff.mp run
    cases e
    exact .of_eq (procView_terminalWrite hx)
  · cases run

/-- `getargs` changes no process. -/
lemma fdsChanged_getargs {buf n : BitVec 32} (run : s.getargs buf n = some (s', r)) :
    FdsChanged s.procView s'.procView := by
  obtain ⟨res, m, hres, -, rfl⟩ := getargs_spec run
  have same : { res.after with mem := m }.procView = res.after.procView := rfl
  rw [same, (getargsResult_cases hres).1]
  exact .refl _

/-- The loop of `halt` closes one descriptor and goes on with the rest. -/
lemma closeFrom_succ {k i : Nat} (run : Kernel.closeFrom (k + 1) i s = some s') :
    ∃ t r, s.sysClose i = some (t, r) ∧ Kernel.closeFrom k (i + 1) t = some s' := by
  rw [Kernel.closeFrom] at run
  cases hc : s.sysClose i with
  | none => rw [hc] at run; cases run
  | some x =>
    rw [hc] at run
    exact ⟨x.1, x.2, rfl, run⟩

/-- What is reflexive and transitive and holds of every `close` holds of the loop. -/
lemma closeFrom_rel (R : Kernel → Kernel → Prop) (refl : ∀ a, R a a)
    (trans : ∀ a b c, R a b → R b c → R a c)
    (close : ∀ a b (i r : Int), a.sysClose i = some (b, r) → R a b) {k i : Nat}
    (run : Kernel.closeFrom k i s = some s') : R s s' := by
  induction k generalizing i s with
  | zero => cases run; exact refl _
  | succ k ih =>
    obtain ⟨t, r, first, rest⟩ := closeFrom_succ run
    exact trans s t s' (close s t i r first) (ih rest)

/-- The loop of `halt` over the descriptors changes descriptors only. -/
lemma fdsChanged_closeFrom {k i : Nat} (run : Kernel.closeFrom k i s = some s') :
    FdsChanged s.procView s'.procView :=
  closeFrom_rel (fun a b => FdsChanged a.procView b.procView) (fun _ => .refl _)
    (fun _ _ _ h h' => h.trans h') (fun _ _ _ _ close => fdsChanged_close close) run

/-- Clearing the descriptors changes descriptors only. -/
lemma fdsChanged_clearFd {i : Nat} (run : s.clearFd i = some s') :
    FdsChanged s.procView s'.procView := by
  rw [Kernel.clearFd] at run
  obtain ⟨⟨t, r⟩, hx, e⟩ := Option.map_eq_some_iff.mp run
  cases e
  exact (FdsChanged.setFd s i _).trans (fdsChanged_close hx)

end Descriptors

/-! ## Starting a process -/

/-- How `v'` comes from `v` when a program starts as process `pid` on the current terminal. -/
structure Started (v : ProcView) (pid : Int) (v' : ProcView) : Prop where
  nonneg : 0 ≤ pid
  below : pid < 6
  free : v.proc.pidCheck pid = 0
  pidCheck : v'.proc.pidCheck = Function.update v.proc.pidCheck pid 1
  curPid : v'.proc.curPid = pid
  curProcessPtr : v'.proc.curProcessPtr = pcbAddr pid
  filedArray : v'.proc.filedArray = pcbAddr pid
  parentPid : (v'.proc.pcb (pcbAddr pid)).parentPid
    = if v.processOf v.currentTerminalId = -1 then -1 else v.proc.curPid
  tssEsp0 : (v'.proc.pcb (pcbAddr pid)).tssEsp0 = pcbAddr pid + kernelStackSize - 4
  others : ∀ a, a ≠ pcbAddr pid → (v.proc.pcb a).SameButStack (v'.proc.pcb a)
  paging : v'.paging = v.paging.mapUserPage (2 + pid).toNat
  esp0 : v'.tss.esp0 = (v'.proc.pcb (pcbAddr pid)).tssEsp0
  currentTerminalId : v'.currentTerminalId = v.currentTerminalId
  processOf : v'.processOf = Function.update v.processOf v.currentTerminalId pid

section Start

variable {s s' : Kernel} {fr : Frame}

/-- A load stores some bytes from the load address on, and changes nothing else. -/
lemma loadFile_some {loaded : Kernel} {inode : Nat} (hl : s.loadFile inode = some loaded) :
    ∃ bs m, storeThrough s.paging s.mem userPaddr bs = some m ∧ loaded = { s with mem := m } := by
  obtain ⟨r, -, hl⟩ := Option.bind_eq_some_iff.mp hl
  obtain ⟨m, hm, hl⟩ := Option.bind_eq_some_iff.mp hl
  exact ⟨r.2, m, hm, (Option.some.inj hl).symm⟩

/-- Everything `execute` can do: it printed a message and returned -1, or it accepted the command
line, found an executable and a free slot, loaded the file into the slot's page and started the
process. -/
lemma execute_cases {command : Option (List UInt8)} {r : Kernel × Control}
    (run : s.execute fr command = some r) :
    (∃ text, r = (s.puts text, .ret (-1))) ∨
    ∃ line inode pid loaded eip, command = some line ∧
      let p := parseCommand (upToNul line)
      let started := loaded.startProcess fr (upToNul p.argCommand)
      ¬ p.overrun ∧ p.complete = true ∧ s.checkFile fr (upToNul p.fileCommand) = some (some inode) ∧
      s.freePid = some pid ∧ (s.allocate pid).setUpPaging.loadFile inode = some loaded ∧
      started.loadWord (userPaddr + 24) = some eip ∧ r = (started, .user pid eip) := by
  unfold Kernel.execute at run
  split at run
  · split_ifs at run
    exact .inl ⟨_, (Option.some.inj run).symm⟩
  next line =>
  dsimp only at run
  split_ifs at run with overrun incomplete
  · exact .inl ⟨[], (Option.some.inj run).symm⟩
  have complete : (parseCommand (upToNul line)).complete = true := by simpa using incomplete
  split at run
  · cases run
  · exact .inl ⟨[], (Option.some.inj run).symm⟩
  next inode hc =>
  split at run
  · exact .inl ⟨_, (Option.some.inj run).symm⟩
  next pid hp =>
  obtain ⟨loaded, hl, run⟩ := Option.bind_eq_some_iff.mp run
  obtain ⟨eip, entry, run⟩ := Option.bind_eq_some_iff.mp run
  exact .inr ⟨line, inode, pid, loaded, eip, rfl, overrun, complete, hc, hp, hl, entry,
    (Option.some.inj run).symm⟩

/-- Everything a successful `execute` does. -/
lemma execute_user {command : Option (List UInt8)} {pid : Int} {eip : Nat}
    (run : s.execute fr command = some (s', .user pid eip)) :
    ∃ line inode loaded, command = some line ∧
      let p := parseCommand (upToNul line)
      ¬ p.overrun ∧ p.complete = true ∧ s.checkFile fr (upToNul p.fileCommand) = some (some inode) ∧
      s.freePid = some pid ∧ (s.allocate pid).setUpPaging.loadFile inode = some loaded ∧
      s' = loaded.startProcess fr (upToNul p.argCommand) ∧
      s'.loadWord (userPaddr + 24) = some eip := by
  rcases execute_cases run with
    ⟨text, e⟩ | ⟨line, inode, p, loaded, _, hline, fits, complete, hc, hp, hl, entry, e⟩
  · exact Control.noConfusion (Prod.mk.inj e).2
  · obtain ⟨rfl, ec⟩ := Prod.mk.inj e
    obtain ⟨rfl, rfl⟩ := Control.user.inj ec
    exact ⟨line, inode, loaded, hline, fits, complete, hc, hp, hl, rfl, entry⟩

/-- An `execute` that returns only ever printed a message. -/
lemma execute_ret {command : Option (List UInt8)} {v : Int}
    (run : s.execute fr command = some (s', .ret v)) : ∃ text, s' = s.puts text := by
  rcases execute_cases run with ⟨text, e⟩ | ⟨_, _, _, _, _, -, -, -, -, -, -, -, e⟩
  · exact ⟨text, (Prod.mk.inj e).1⟩
  · exact Control.noConfusion (Prod.mk.inj e).2

/-- `execute` never resumes another process. -/
lemma execute_ne_resume {command : Option (List UInt8)} {pid : Int} {v : Nat} :
    s.execute fr command ≠ some (s', .resume pid v) := by
  intro run
  rcases execute_cases run with ⟨text, e⟩ | ⟨_, _, _, _, _, -, -, -, -, -, -, -, e⟩
  · exact Control.noConfusion (Prod.mk.inj e).2
  · exact Control.noConfusion (Prod.mk.inj e).2

/-- The slot `execute` takes is one of the six and free. -/
lemma freePid_spec {pid : Int} (h : s.freePid = some pid) :
    0 ≤ pid ∧ pid < 6 ∧ s.proc.pidCheck pid = 0 := by
  obtain ⟨i, hi, rfl⟩ := Option.map_eq_some_iff.mp h
  have free := List.find?_some hi
  have mem := List.mem_range.mp (List.mem_of_find?_eq_some hi)
  rw [maxProcessNumber] at mem
  refine ⟨Int.natCast_nonneg i, ?_, ?_⟩
  · show (i : Int) < 6
    omega
  · exact beq_iff_eq.mp free

/-- `saveParent` only changes the saved stack registers of one control block. -/
lemma saveParent_spec (s : Kernel) (fr : Frame) : ∃ pcbs,
    s.saveParent fr = { s with proc := { s.proc with pcbs } }
      ∧ ∀ a, (s.proc.pcb a).SameButStack (pcbs a) := by
  rw [Kernel.saveParent]
  dsimp only
  split_ifs with hp
  · refine ⟨_, rfl, fun a => ?_⟩
    by_cases ha : a = pcbAddr (s.proc.pcb s.proc.curProcessPtr).parentPid
    · subst ha
      rw [Function.update_self]
      rfl
    · rw [Function.update_of_ne ha]
      exact .refl _
  · exact ⟨_, rfl, fun a => .refl _⟩

/-- From the control blocks on, starting a process only saves and sets stack registers. -/
lemma pcb_startProcess (fr : Frame) (loaded : Kernel) (arg : List UInt8) (a : Int) :
    ((loaded.initializePCB.setArg arg).proc.pcb a).SameButStack
      ((loaded.startProcess fr arg).proc.pcb a) := by
  obtain ⟨pcbs, hs, same⟩ := saveParent_spec (loaded.initializePCB.setArg arg) fr
  rw [Kernel.startProcess, hs]
  exact same a

/-- The control blocks when the new process has its block and its argument: its own, and the others
as they were. -/
lemma pcb_initialized {loaded : Kernel} {pid : Int} {inode : Nat}
    (hl : (s.allocate pid).setUpPaging.loadFile inode = some loaded) (arg : List UInt8) :
    let t := loaded.initializePCB.setArg arg
    t.proc.curProcessPtr = pcbAddr pid ∧
      (t.proc.pcb (pcbAddr pid)).parentPid
        = (if s.term.current.currentProcessId = -1 then -1 else s.proc.curPid) ∧
      (t.proc.pcb (pcbAddr pid)).tssEsp0 = pcbAddr pid + kernelStackSize - 4 ∧
      ∀ a, a ≠ pcbAddr pid → t.proc.pcb a = s.proc.pcb a := by
  obtain ⟨_, m, -, rfl⟩ := loadFile_some hl
  dsimp only
  refine ⟨rfl, ?_, ?_, fun a ha => ?_⟩
  · simp only [Kernel.setArg, Kernel.initializePCB, Kernel.setUpPaging, Kernel.allocate, Proc.pcb,
      Proc.setPcb, Function.update_self]
    rfl
  · simp only [Kernel.setArg, Kernel.initializePCB, Kernel.setUpPaging, Kernel.allocate, Proc.pcb,
      Proc.setPcb, Function.update_self]
  · simp only [Kernel.setArg, Kernel.initializePCB, Kernel.setUpPaging, Kernel.allocate, Proc.pcb,
      Proc.setPcb, Function.update_of_ne ha]

/-- The process the allocated slot starts. -/
lemma started_startProcess {arg : List UInt8} {loaded : Kernel} {pid : Int} {inode : Nat}
    (hp : s.freePid = some pid) (hl : (s.allocate pid).setUpPaging.loadFile inode = some loaded) :
    Started s.procView pid (loaded.startProcess fr arg).procView := by
  obtain ⟨h0, h6, free⟩ := freePid_spec hp
  obtain ⟨-, parent, esp0, other⟩ := pcb_initialized hl arg
  obtain ⟨_, m, -, rfl⟩ := loadFile_some hl
  -- the state before the parent's stack registers and the task state segment are written
  set t : Kernel :=
    (({ (s.allocate pid).setUpPaging with mem := m } : Kernel).initializePCB).setArg arg
    with ht
  obtain ⟨pcbs, hs, same⟩ := saveParent_spec t fr
  have e : ({ (s.allocate pid).setUpPaging with mem := m } : Kernel).startProcess fr arg
      = { t with
          proc := { t.proc with pcbs }
          tss := { esp0 := (pcbs t.proc.curProcessPtr).tssEsp0, ss0 := kernelDs } } := by
    rw [Kernel.startProcess, ← ht, hs]
    rfl
  have stack := same (pcbAddr pid)
  rw [PCB.SameButStack] at stack
  rw [e]
  refine ⟨h0, h6, free, rfl, rfl, rfl, rfl, ?_, ?_, fun a ha => ?_, rfl, rfl, rfl, ?_⟩
  · show (pcbs (pcbAddr pid)).parentPid = _
    rw [stack]
    exact parent
  · show (pcbs (pcbAddr pid)).tssEsp0 = _
    rw [stack]
    exact esp0
  · have sa := same a
    rw [other a ha] at sa
    exact sa
  · funext u
    show (t.term.terminalArray u).currentProcessId
      = Function.update s.procView.processOf s.term.currentTerminalId pid u
    by_cases hu : u = s.term.currentTerminalId
    · subst hu
      simp only [ht, Kernel.setArg, Kernel.initializePCB, Term.setTerminal, Kernel.setUpPaging,
        Kernel.allocate, Function.update_self]
    · rw [Function.update_of_ne hu]
      simp only [ht, Kernel.setArg, Kernel.initializePCB, Term.setTerminal, Kernel.setUpPaging,
        Kernel.allocate, Function.update_of_ne hu]
      rfl

/-- What a successful `execute` does to processes. -/
lemma started_execute {command : Option (List UInt8)} {pid : Int} {eip : Nat}
    (run : s.execute fr command = some (s', .user pid eip)) :
    Started s.procView pid s'.procView := by
  obtain ⟨line, inode, loaded, -, -, -, -, hp, hl, rfl, -⟩ := execute_user run
  exact started_startProcess hp hl

/-- An `execute` that returns changes no process. -/
lemma procView_execute_ret {command : Option (List UInt8)} {v : Int}
    (run : s.execute fr command = some (s', .ret v)) : s'.procView = s.procView := by
  obtain ⟨text, rfl⟩ := execute_ret run
  exact procView_puts s text

end Start

/-! ## Ending a process -/

/-- The view after the current process gave up its slot, as `halt` leaves it to the shell it
starts. -/
def ProcView.vacate (v : ProcView) : ProcView :=
  { v with
    proc :=
      { v.proc with
        pidCheck := Function.update v.proc.pidCheck v.proc.curPid 0
        curPid := -1 } }

/-- The parent of the current process. -/
def ProcView.parent (v : ProcView) : Int := (v.proc.pcb v.proc.curProcessPtr).parentPid

/-- How `v'` comes from `v` when the current process ends and its parent goes on. -/
structure Exited (v v' : ProcView) : Prop where
  parent : v.parent ≠ -1
  kernelPtr : KernelPtr (pcbAddr v.parent)
  pidCheck : v'.proc.pidCheck = Function.update v.proc.pidCheck v.proc.curPid 0
  curPid : v'.proc.curPid = v.parent
  curProcessPtr : v'.proc.curProcessPtr = pcbAddr v.parent
  filedArray : v'.proc.filedArray = pcbAddr v.parent
  pcb : ∀ a, ∃ fa, v'.proc.pcb a = { v.proc.pcb a with fdArray := fa }
  pcb_of_ne : ∀ a, a ≠ v.proc.filedArray → v'.proc.pcb a = v.proc.pcb a
  paging : v'.paging = v.paging.mapUserPage (2 + v.parent).toNat
  esp0 : v'.tss.esp0 = (v.proc.pcb (pcbAddr v.parent)).tssEsp0
  currentTerminalId : v'.currentTerminalId = v.currentTerminalId
  processOf : v'.processOf = v.processOf

section End

variable {s s' : Kernel} {fr : Frame} {status : UInt8}

/-- What `returnToParent` goes through: it needs a parent, whose page and stack it sets, closes the
descriptors in a loop and two more, and moves to the parent. -/
lemma returnToParent_steps {parentpid : Int} {r : Kernel × Control}
    (run : s.returnToParent parentpid status = some r) :
    KernelPtr (pcbAddr parentpid) ∧ ∃ s₁ s₂ s₃,
      Kernel.closeFrom 6 2 { s with
        tss := { esp0 := (s.proc.pcb (pcbAddr parentpid)).tssEsp0, ss0 := kernelDs }
        paging := s.paging.mapUserPage (2 + parentpid).toNat } = some s₁ ∧
      s₁.clearFd 0 = some s₂ ∧ s₂.clearFd 1 = some s₃ ∧
      r = ({ s₃ with proc := { s₃.proc with
              filedArray := pcbAddr parentpid
              curPid := parentpid
              curProcessPtr := pcbAddr parentpid } },
        .resume parentpid (if status = 0x0F then 256 else status.toNat)) := by
  rw [Kernel.returnToParent] at run
  dsimp only at run
  split at run
  · cases run
  next hk =>
  obtain ⟨s₁, h₁, run⟩ := Option.bind_eq_some_iff.mp run
  obtain ⟨s₂, h₂, run⟩ := Option.bind_eq_some_iff.mp run
  obtain ⟨s₃, h₃, run⟩ := Option.bind_eq_some_iff.mp run
  exact ⟨not_not.mp hk, s₁, s₂, s₃, h₁, h₂, h₃, (Option.some.inj run).symm⟩

/-- Everything `returnToParent` does: it needs a parent, closes descriptors and moves to the
parent. -/
lemma returnToParent_spec {parentpid : Int} {r : Kernel × Control}
    (run : s.returnToParent parentpid status = some r) :
    KernelPtr (pcbAddr parentpid) ∧ ∃ (t : Kernel) (v : Nat),
      FdsChanged { s.procView with
        paging := s.paging.mapUserPage (2 + parentpid).toNat
        tss := { esp0 := (s.proc.pcb (pcbAddr parentpid)).tssEsp0, ss0 := kernelDs } } t.procView ∧
      r = ({ t with proc := { t.proc with
              filedArray := pcbAddr parentpid
              curPid := parentpid
              curProcessPtr := pcbAddr parentpid } }, .resume parentpid v) := by
  obtain ⟨hk, s₁, s₂, s₃, h₁, h₂, h₃, e⟩ := returnToParent_steps run
  refine ⟨hk, s₃, _, ?_, e⟩
  exact ((fdsChanged_closeFrom h₁).trans (fdsChanged_clearFd h₂)).trans (fdsChanged_clearFd h₃)

/-- The state in which `halt` executes the shell of a terminal again, with the message it
printed. -/
def Kernel.vacated (s : Kernel) (text : List UInt8) : Kernel :=
  let s := { s with proc.pidCheck := Function.update s.proc.pidCheck s.proc.curPid 0 }.puts text
  { s with proc.curPid := -1 }

/-- What the end of a process leaves of the process table. -/
lemma procView_vacated (s : Kernel) (text : List UInt8) :
    (s.vacated text).procView = s.procView.vacate := by
  have h := procView_puts { s with
    proc.pidCheck := Function.update s.proc.pidCheck s.proc.curPid 0 } text
  exact congrArg (fun v : ProcView => { v with proc := { v.proc with curPid := -1 } }) h

/-- Everything `halt` can do: a process with a parent returns to it, one without starts a shell. -/
lemma halt_cases {r : Kernel × Control} (run : s.halt fr status = some r) :
    KernelPtr s.proc.curProcessPtr ∧
    ((s.procView.parent ≠ -1 ∧
        { s with proc.pidCheck := Function.update s.proc.pidCheck s.proc.curPid 0 }.returnToParent
          s.procView.parent status = some r) ∨
      (s.procView.parent = -1 ∧ ∃ text s' pid eip,
        (s.vacated text).execute fr (some Kernel.shellCommand) = some (s', .user pid eip) ∧
        r = (s', .user pid eip))) := by
  rw [Kernel.halt] at run
  dsimp only at run
  split at run
  · cases run
  next hk =>
  split at run
  next hp => -- the root of a terminal: its shell is started again
    refine ⟨not_not.mp hk, .inr ⟨hp, ?_⟩⟩
    split at run
    · cases run
    next t v he =>
      -- the block of the parent -1 would begin where the kernel's page ends
      rw [hp] at run
      obtain ⟨bad, -⟩ := returnToParent_spec run
      simp only [KernelPtr, pcbAddr, endOfKernel, kernelStackSize] at bad
      omega
    next t c hne he =>
      rcases execute_cases he with ⟨text, e⟩ | ⟨_, _, pid, loaded, eip, -, -, -, -, -, -, -, e⟩
      · exact absurd (Prod.mk.inj e).2 (hne _)
      · exact ⟨_, _, pid, eip, he.trans (congrArg some e), (Option.some.inj run).symm.trans e⟩
  next hp => exact ⟨not_not.mp hk, .inl ⟨hp, run⟩⟩

/-- What the halt of a process with a parent does to processes. -/
lemma exited_halt {p : Int} {v : Nat} (run : s.halt fr status = some (s', .resume p v)) :
    Exited s.procView s'.procView := by
  obtain ⟨-, ⟨hp, run⟩ | ⟨-, _, _, _, _, -, e⟩⟩ := halt_cases run
  · obtain ⟨hk, t, _, h, e⟩ := returnToParent_spec run
    obtain ⟨rfl, -⟩ := Prod.mk.inj e
    refine ⟨hp, hk, ?_, rfl, rfl, rfl, fun a => ?_, fun a ha => ?_, ?_, ?_, ?_, ?_⟩
    · exact h.pidCheck
    · exact h.pcb a
    · exact h.pcb_of_ne ha
    · exact h.paging
    · exact congrArg Tss.esp0 h.tss
    · exact h.currentTerminalId
    · exact h.processOf
  · exact Control.noConfusion (Prod.mk.inj e).2

/-- What the halt of a terminal's first process does to processes. -/
lemma restarted_halt {pid : Int} {eip : Nat} (run : s.halt fr status = some (s', .user pid eip)) :
    s.procView.parent = -1 ∧ Started s.procView.vacate pid s'.procView := by
  obtain ⟨-, ⟨-, run⟩ | ⟨hp, text, _, _, _, he, e⟩⟩ := halt_cases run
  · obtain ⟨-, _, _, -, e⟩ := returnToParent_spec run
    exact Control.noConfusion (Prod.mk.inj e).2
  · obtain ⟨rfl, ec⟩ := Prod.mk.inj e
    obtain ⟨rfl, -⟩ := Control.user.inj ec
    exact ⟨hp, procView_vacated s text ▸ started_execute he⟩

/-- `halt` never returns to the process that called it. -/
lemma halt_ne_ret {v : Int} : s.halt fr status ≠ some (s', .ret v) := by
  intro run
  obtain ⟨-, ⟨-, run⟩ | ⟨-, _, _, _, _, -, e⟩⟩ := halt_cases run
  · obtain ⟨-, _, _, -, e⟩ := returnToParent_spec run
    exact Control.noConfusion (Prod.mk.inj e).2
  · exact Control.noConfusion (Prod.mk.inj e).2

end End

/-! ## Moving to another terminal -/

/-- The view after `save_terminal` and `restore_terminal` moved to terminal `t`: the process that
ran is kept for the terminal left, and `cur_pid` and `cur_process_ptr` become those of terminal
`t`. -/
def ProcView.change (v : ProcView) (t : Nat) : ProcView :=
  { v with
    proc := { v.proc with curPid := v.processOf t, curProcessPtr := pcbAddr (v.processOf t) }
    currentTerminalId := t
    processOf := Function.update v.processOf v.currentTerminalId v.proc.curPid }

section Switch

variable {s s' : Kernel} {fr : Frame} {t : Nat}

/-- What a switch to another terminal does to the process table. -/
lemma procView_changeTerminal (ht : t ≠ s.term.currentTerminalId) :
    (s.changeTerminal t).procView = s.procView.change t := by
  have hother : ∀ e, (s.term.setTerminal s.term.currentTerminalId e).terminalArray t
      = s.term.terminalArray t := fun e => Function.update_of_ne ht ..
  have hof : ∀ u, ((s.changeTerminal t).term.terminalArray u).currentProcessId
      = Function.update s.procView.processOf s.term.currentTerminalId s.proc.curPid u := by
    intro u
    show ((s.term.setTerminal s.term.currentTerminalId _).terminalArray u).currentProcessId = _
    by_cases hu : u = s.term.currentTerminalId
    · subst hu
      simp only [Term.setTerminal, Function.update_self]
    · simp only [Term.setTerminal, Function.update_of_ne hu]
      rfl
  have hproc : (s.changeTerminal t).proc
      = { s.proc with
          curPid := (s.term.terminalArray t).currentProcessId
          curProcessPtr := pcbAddr (s.term.terminalArray t).currentProcessId } := by
    simp only [Kernel.changeTerminal, Kernel.restoreTerminal, Kernel.saveTerminal,
      Kernel.updateCursor, Kernel.giveBufPos, Kernel.cleanKeyboardBuffer, hother]
  rw [Kernel.procView, hproc, funext hof]
  rfl

/-- Everything `terminal_switch` can do. -/
lemma terminalSwitch_cases {r : Kernel × Control} (run : s.terminalSwitch fr t = some r) :
    (t = s.term.currentTerminalId ∧ r = (s, .ret 0)) ∨
    (t ≠ s.term.currentTerminalId ∧ s.procView.processOf t ≠ -1 ∧
      r = (s.changeTerminal t, .ret 0)) ∨
    (t ≠ s.term.currentTerminalId ∧ s.procView.processOf t = -1 ∧
      ((∃ text, r = ((s.changeTerminal t).puts text, .ret 0)) ∨
        ∃ s' pid eip, (s.changeTerminal t).execute fr (some Kernel.shellCommand)
          = some (s', .user pid eip) ∧ r = (s', .user pid eip))) := by
  rw [Kernel.terminalSwitch] at run
  split_ifs at run with hc hp
  · exact .inl ⟨hc, (Option.some.inj run).symm⟩
  · refine .inr (.inr ⟨hc, hp, ?_⟩)
    split at run
    · cases run
    next t v he =>
      obtain ⟨text, rfl⟩ := execute_ret he
      exact .inl ⟨text, (Option.some.inj run).symm⟩
    next t c hne he =>
      rcases execute_cases he with ⟨text, e⟩ | ⟨_, _, pid, loaded, eip, -, -, -, -, -, -, -, e⟩
      · exact absurd (Prod.mk.inj e).2 (hne _)
      · exact .inr ⟨_, pid, eip, he.trans (congrArg some e), (Option.some.inj run).symm.trans e⟩
  · exact .inr (.inl ⟨hc, hp, (Option.some.inj run).symm⟩)

end Switch

end Kernel391
