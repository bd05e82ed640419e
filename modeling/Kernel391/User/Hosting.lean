import Kernel391.User.Service

/-!
# Hosting a process

What the calls of a process leave alone (`Beside`), and that a state that hosts a world goes on to
host it.
-/

namespace Kernel391.User
open Base

/-- From `s` to `s'` at most the descriptors in use, the RTC, the header of the image and the memory
of processes changed. -/
structure Beside (m : Mem) (modStart : Nat) (s s' : Kernel) : Prop where
  mem : SameOn (fun a => a < 0x00400000 ∨ InBody m modStart a) s.mem s'.mem
  fs : ∃ a, s'.fs = s.fs.atEntry a
  paging : s'.paging = s.paging
  term : s'.term = s.term
  kbd : s'.kbd = s.kbd
  screen : s'.screen = s.screen
  sched : s'.sched = s.sched
  filedArray : s'.proc.filedArray = s.proc.filedArray
  curProcessPtr : s'.proc.curProcessPtr = s.proc.curProcessPtr
  arg : ∀ a, (s'.proc.pcb a).arg = (s.proc.pcb a).arg

section Frames

variable {m : Mem} {modStart k t : Nat} {pane : Pane} {w : World} {s s' : Kernel}
variable {area : BitVec 32} {bs : List UInt8}

/-- A descriptor is no part of an argument. -/
lemma arg_setFd (p : Proc) (fd : Nat) (e : FdArray) (a : Int) :
    ((p.setFd fd e).pcb a).arg = (p.pcb a).arg := by
  rw [Proc.setFd, Proc.setPcb, Proc.pcb, Proc.pcb]
  dsimp only
  by_cases here : a = p.filedArray
  · rw [here, Function.update_self]
  · rw [Function.update_of_ne here]

/-- A store to the page of the process. -/
lemma beside_storeUser (wf : WellFormedImage m modStart) (runs : RunsIn k s) :
    Beside m modStart s (s.storeUser k area bs) := by
  refine ⟨?_, ⟨s.fs.curfile, ?_⟩, paging_storeUser s, ?_, ?_, ?_, ?_, ?_, ?_, ?_⟩
  · apply runs.low_storeUser.mono
    rintro a (below | inside)
    · rw [Low]
      omega
    · exact (wf.lt inside.1).2
  · exact fs_storeUser s
  all_goals rw [Kernel.storeUser]
  exact fun _ => rfl

/-- A change of one descriptor. -/
lemma beside_setFd (s : Kernel) (fd : Nat) (e : FdArray) (a rtcFreq : Nat) : Beside m modStart s
    { s with proc := s.proc.setFd fd e, fs := s.fs.atEntry a, rtc.rtcFreq := rtcFreq } :=
  ⟨.refl, ⟨a, rfl⟩, rfl, rfl, rfl, rfl, rfl, rfl, rfl, arg_setFd s.proc fd e⟩

/-- A step beside the display moves no cursor. -/
lemma Beside.display (h : Beside m modStart s s') : s'.display = s.display :=
  display_congr (by rw [h.screen]) (by rw [h.screen]) (by rw [Kernel.display, h.term]; rfl)

/-- What a terminal shows is below the kernel. -/
lemma Beside.pane_eq (h : Beside m modStart s s') (ht : t < 3) : s'.pane t = s.pane t := by
  have cells (base : Nat) (low : base + 4096 ≤ 0x00400000) :
      (fun j : Fin 4096 => s'.mem (base + j)) = fun j : Fin 4096 => s.mem (base + j) := by
    funext j
    have := j.isLt
    exact h.mem _ (.inl (by omega))
  have buffer : videoBuffer t + 4096 ≤ 0x00400000 := by
    rw [videoBuffer, fourKb]
    omega
  rw [Kernel.pane, Kernel.pane, h.term, h.screen, h.kbd, cells videoMem (by decide),
    cells (videoBuffer t) buffer]

/-- A step beside the terminal leaves the waiting line. -/
lemma Beside.waiting (h : Beside m modStart s s') {line : List UInt8} (waits : Waiting s line) :
    Waiting s' line := by
  obtain ⟨fits, enter, chars, single, newline⟩ := waits
  rw [Kernel.checkEnter, ← h.kbd] at enter
  rw [← h.term] at chars newline
  exact ⟨fits, enter, chars, single, newline⟩

/-- A step beside the image leaves the files served. -/
lemma Beside.files (h : Beside m modStart s s') (files : FilesServed m modStart k s) :
    FilesServed m modStart k s' := by
  obtain ⟨a, fs⟩ := h.fs
  obtain ⟨e, serves⟩ := files.serves
  refine ⟨files.image, files.same.trans (h.mem.mono fun _ => .inr), ⟨a, ?_⟩, ?_⟩
  · rw [fs, serves]
    rfl
  · refine ⟨?_, h.paging.symm ▸ files.runs.page, files.runs.low, files.runs.high⟩
    rw [Kernel.fdArrayMapped, h.filedArray]
    exact files.runs.fdArray

/-- A call that works beside the process keeps what the process sees, but for its descriptors and
the header. -/
lemma Hosts.beside (h : Hosts m modStart k pane w s) (b : Beside m modStart s s') {header : Mem}
    {fds : Nat → Option Stream} (head : ∀ j < 8, header j = s'.mem (modStart + j))
    (standard : ∀ fd < 2, (s'.proc.fd fd).flags ≠ 0 ∧ (s'.proc.fd fd).fileotPointer = 3)
    (stream : ∀ fd, 2 ≤ fd → fd < 8 → OpenOn m modStart s'.rtc.rtcFreq (s'.proc.fd fd) (fds fd)) :
    Hosts m modStart k pane { w with header := header, fds := fds } s' := by
  have terminal : s'.getNTerminal = s.getNTerminal := congrArg Sched.nTerminal b.sched
  constructor
  · exact h.image
  · exact b.files h.files
  · exact b.paging.symm ▸ h.start
  · exact b.display.symm ▸ h.display
  · exact terminal.symm ▸ h.terminal
  · exact b.curProcessPtr.symm ▸ h.block
  · exact h.volume
  · exact head
  · rw [b.arg, b.curProcessPtr]
    exact h.args
  · exact fun line waits => b.waiting (h.input line waits)
  · exact standard
  · exact stream
  · rw [terminal, b.pane_eq h.terminal]
    exact h.output

/-- The hosted process has descriptors. -/
lemma Hosts.array (h : Hosts m modStart k pane w s) : s.proc.filedArray ≠ 0 := by
  intro e
  have mapped := h.files.runs.fdArray
  rw [Kernel.fdArrayMapped, e] at mapped
  exact absurd mapped (by decide)

/-- The header is behind the start of the kernel and below the processes. -/
lemma Hosts.header_lt (h : Hosts m modStart k pane w s) {j : Nat} (hj : j < 8) :
    0x00400004 ≤ modStart + j ∧ modStart + j < 0x00800000 := by
  have behind := h.image.behind
  have inside := h.image.lt (h.image.inHead (k := j) (by omega))
  omega

/-- A store to the page of the process changes nothing the process sees of its world. -/
lemma Hosts.storeUser (h : Hosts m modStart k pane w s) (area : BitVec 32) (bs : List UInt8) :
    Hosts m modStart k pane w (s.storeUser k area bs) := by
  have head (j : Nat) (hj : j < 8) :
      w.header j = (s.storeUser k area bs).mem (modStart + j) := by
    have low : Low (modStart + j) := (h.header_lt hj).2
    rw [h.header j hj, h.files.runs.low_storeUser _ low]
  refine h.beside (beside_storeUser h.image.toWellFormedImage h.files.runs) head ?_ ?_
  · rw [proc_storeUser]
    exact h.standard
  · have rtc : (s.storeUser k area bs).rtc = s.rtc := by rw [Kernel.storeUser]
    rw [proc_storeUser, rtc]
    exact h.stream

/-- The RTC may be set to any frequency above 128. -/
lemma OpenOn.freq {f f' : Nat} {e : FdArray} {x : Option Stream} (h : OpenOn m modStart f e x)
    (fast : f' = f ∨ 128 < f') : OpenOn m modStart f' e x := by
  rcases fast with rfl | fast
  · exact h
  rcases x with _ | _ | _ | _ | _
  · exact h
  · exact ⟨h.1, h.2.1, fast⟩
  · exact h
  · exact h
  · exact h

/-- A descriptor is free exactly when the world has nothing open there. -/
lemma OpenOn.flags {f : Nat} {e : FdArray} {x : Option Stream} (h : OpenOn m modStart f e x) :
    e.flags = 0 ↔ x = none := by
  rcases x with _ | _ | _ | _ | _
  · exact iff_of_true h rfl
  all_goals exact iff_of_false h.1 (Option.some_ne_none _)

/-- An open descriptor has the operations of a file. -/
lemma OpenOn.table {f : Nat} {e : FdArray} {x : Stream} (h : OpenOn m modStart f e (some x)) :
    e.fileotPointer ≤ 2 := by
  rcases x with _ | _ | _ | _
  · have table := h.2.1
    omega
  · have table := h.2.1
    omega
  · exact Nat.le_of_eq h.2.1
  · have table := h.2
    omega

/-- A call that changes one descriptor. -/
lemma Hosts.change (h : Hosts m modStart k pane w s) (b : Beside m modStart s s') {header : Mem}
    {fd : Nat} {e : FdArray} {x : Option Stream} (low : 2 ≤ fd)
    (fds : ∀ i, s'.proc.fd i = if i = fd then e else s.proc.fd i)
    (freq : s'.rtc.rtcFreq = s.rtc.rtcFreq ∨ 128 < s'.rtc.rtcFreq)
    (head : ∀ j < 8, header j = s'.mem (modStart + j))
    (entry : OpenOn m modStart s'.rtc.rtcFreq e x) :
    Hosts m modStart k pane { w with header := header, fds := Function.update w.fds fd x } s' := by
  refine h.beside b head (fun i hi => ?_) fun i low' high => ?_
  · rw [fds, if_neg (by omega)]
    exact h.standard i hi
  · rw [fds]
    by_cases here : i = fd
    · rw [if_pos here, here, Function.update_self]
      exact entry
    · rw [if_neg here, Function.update_of_ne here]
      exact (h.stream i low' high).freq freq

end Frames

end Kernel391.User
