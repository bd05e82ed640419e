import Kernel391.User.Hosting

/-!
# Serving a process

Each call that has an answer in the world of a process gets that answer from every kernel that hosts
the world, and the kernel goes on to host what the world has become. So a program does on the kernel
what it does in its world (`program_refines`).
-/

namespace Kernel391.User
open Base

section Buffers

variable {k n : Nat} {fd : Int} {area : BitVec 32} {s : Kernel} {bs : List UInt8} {fr : Frame}

/-- A descriptor as the kernel's argument. -/
lemma toNat_descriptor (low : 0 ≤ fd) (high : fd < 7) : (BitVec.ofInt 32 fd).toNat = fd.toNat := by
  rw [BitVec.toNat_ofInt]
  omega

/-- A number that is no descriptor as the kernel's argument. -/
lemma toNat_descriptor_ge (range : World.Int32 fd) (out : fd < 0 ∨ 7 ≤ fd) :
    7 ≤ (BitVec.ofInt 32 fd).toNat := by
  obtain ⟨low, high⟩ := range
  rw [BitVec.toNat_ofInt]
  omega

/-- A count as the kernel's unsigned argument. -/
lemma toNat_count (small : n ≤ 1024) : (BitVec.ofNat 32 n).toNat = n := by
  rw [BitVec.toNat_ofNat]
  omega

/-- A count as the kernel's signed argument. -/
lemma toInt_count (small : n ≤ 1024) : (BitVec.ofNat 32 n).toInt = n := by
  have sign := BitVec.toInt_eq_toNat_cond (BitVec.ofNat 32 n)
  rw [toNat_count small, if_pos (by omega)] at sign
  exact sign

/-- A shorter buffer at the same place. -/
lemma inUserPage_short (page : InUserPage area 1024) (small : n ≤ 1024) :
    InUserPage area (.ofNat 32 n) := by
  obtain ⟨low, high⟩ := page
  have most : (1024 : BitVec 32).toNat = 1024 := rfl
  refine ⟨low, ?_⟩
  rw [toNat_count small]
  omega

/-- The user buffer is not at address 0. -/
lemma area_ne_zero (page : InUserPage area 1024) : area ≠ 0 := by
  rintro rfl
  exact absurd page.1 (by decide)

/-- A store at the buffer is one to the page of the process. -/
lemma storeThrough_area (runs : RunsIn k s) (page : InUserPage area 1024)
    (short : bs.length ≤ 1024) :
    (storeThrough s.paging s.mem area.toNat bs).map (fun m => ({ s with mem := m } : Kernel))
      = some (s.storeUser k area bs) := by
  have most : (1024 : BitVec 32).toNat = 1024 := rfl
  have stop : area.toNat + bs.length ≤ userEnd := by
    have high := page.2
    omega
  rw [storeThrough_user runs.page runs.low runs.high page.1 stop s.mem]
  rfl

/-- A read through the buffer, once the read operation has given its result. -/
lemma serve_read (runs : RunsIn k s) (page : InUserPage area 1024) {res : ReadResult}
    (run : s.readResult (.ofInt 32 fd) area (.ofNat 32 n) = some res)
    (fdArray : res.after.proc.filedArray = s.proc.filedArray)
    (paging : res.after.paging = s.paging) (short : res.bytes.length ≤ 1024) :
    serve fr area s (.read fd n) = some (res.after.storeUser k area res.bytes,
      ⟨res.ret, res.bytes⟩) := by
  have runs' : RunsIn k res.after := by
    refine ⟨?_, paging.symm ▸ runs.page, runs.low, runs.high⟩
    rw [Kernel.fdArrayMapped, fdArray]
    exact runs.fdArray
  obtain ⟨m, hm, e⟩ := Option.map_eq_some_iff.mp (storeThrough_area runs' page short)
  rw [paging] at hm
  have read : s.sysRead (.ofInt 32 fd) area (.ofNat 32 n)
      = some (res.after.storeUser k area res.bytes, res.ret) := by
    rw [Kernel.sysRead, run, Option.bind_eq_bind, Option.bind_some, hm, Option.bind_eq_bind,
      Option.bind_some, e]
    rfl
  rw [serve, run, Option.bind_eq_bind, Option.bind_some, read]
  rfl

/-- A write through the buffer. -/
lemma serve_write (runs : RunsIn k s) (page : InUserPage area 1024) (short : bs.length ≤ 1024) :
    serve fr area s (.write fd bs) = ((s.storeUser k area bs).sysWrite (.ofInt 32 fd) area
      (.ofNat 32 bs.length)).map (answer []) := by
  obtain ⟨m, hm, e⟩ := Option.map_eq_some_iff.mp (storeThrough_area runs page short)
  rw [serve, hm, Option.bind_eq_bind, Option.bind_some, e]

/-- `read` up to the operation of the descriptor's table. -/
lemma readResult_table (fd : Int) (runs : RunsIn k s) (page : InUserPage area 1024)
    (small : n ≤ 1024) (low : 0 ≤ fd) (high : fd < 7) (other : fd ≠ 1)
    (flags : (s.proc.fd fd.toNat).flags ≠ 0) :
    s.readResult (.ofInt 32 fd) area (.ofNat 32 n) = s.tableRead (s.readFd fd.toNat) area
      (.ofNat 32 n)
      (s.proc.fd fd.toNat).fileotPointer := by
  have in_page := inUserPage_short page small
  rw [Kernel.readResult, toNat_descriptor low high, if_neg (not_not.mpr in_page.userBuffer),
    if_neg (by omega), if_neg (not_not.mpr runs.fdArray), if_neg flags]

end Buffers

/-! ## Reads -/

section Reads

variable {m : Mem} {modStart k n fd p inode : Nat} {pane : Pane} {w w' : World} {s s' : Kernel}
variable {area : BitVec 32} {rest line : List UInt8} {fr : Frame} {a : Answer}

/-- The counts in the header. -/
lemma Hosts.header_word (h : Hosts m modStart k pane w s) {j : Nat} (hj : j + 4 ≤ 8) :
    w.header.word j = s.mem.word (modStart + j) := by
  apply word_transfer
  intro i hi
  have place : modStart + j + i = modStart + (j + i) := Nat.add_assoc ..
  have below := (h.header_lt (j := j + i) (by omega)).2
  rw [place, Mem.byte_of_lt (by omega), Mem.byte_of_lt (by omega)]
  exact h.header _ (by omega)

/-- The kernel's record of the volume. -/
lemma Hosts.serves (h : Hosts m modStart k pane w s) : s.fs.bootblockHead = modStart ∧
    s.fs.inodesNum m = (filesystemInit m modStart).inodesNum m ∧
    s.fs.fileLength m = (filesystemInit m modStart).fileLength m ∧
    s.fs.contents m = (filesystemInit m modStart).contents m := by
  obtain ⟨e, serves⟩ := h.files.serves
  rw [serves]
  exact ⟨rfl, rfl, rfl, rfl⟩

/-- The header as the kernel reads it. -/
lemma Hosts.counts (h : Hosts m modStart k pane w s) :
    w.header.word 0 = s.fs.dentryNum s.mem ∧ w.header.word 4 = s.fs.inodesNum s.mem := by
  rw [Fs.dentryNum, Fs.inodesNum, h.serves.1]
  exact ⟨h.header_word (by decide), h.header_word (by decide)⟩

/-- `terminal_read` changes the line buffers only. -/
lemma finishRead_frame (s : Kernel) : s.finishRead.mem = s.mem ∧ s.finishRead.screen = s.screen ∧
    s.finishRead.rtc = s.rtc := by
  have rtc : s.cleanBuffer.rtc = s.rtc := by
    have indices : s.cleanIndices.rtc = s.rtc := by
      unfold Kernel.cleanIndices
      apply foldl_keeps Kernel.rtc
      exact fun _ _ => rfl
    exact indices
  obtain ⟨screen, mem⟩ := screen_cleanBuffer s
  exact ⟨mem, screen, rtc⟩

/-- So it leaves the screens alone. -/
lemma screenOf_finishRead (fits : Fits s.screen.screenX s.screen.screenY) (t : Nat) :
    screenOf (s.finishRead.pane t) = screenOf (s.pane t) := by
  obtain ⟨mem, screen, -⟩ := finishRead_frame s
  have current : s.finishRead.term.currentTerminalId = s.term.currentTerminalId :=
    (finishRead_spec fits).2.1
  have saved : s.finishRead.display.saved t = s.display.saved t := by rw [display_finishRead]
  obtain ⟨x, y, -⟩ := SavedCursor.mk.inj saved
  by_cases here : t = s.term.currentTerminalId
  · rw [pane_current here, pane_current (here.trans current.symm), mem, screen]
    rfl
  · rw [pane_parked here, pane_parked (current.symm ▸ here), mem, x, y]
    rfl

/-- The line that waits is taken. -/
lemma Hosts.finishRead (h : Hosts m modStart k pane w s) :
    Hosts m modStart k pane { w with input := none } s.finishRead := by
  obtain ⟨mem, screen, rtc⟩ := finishRead_frame s
  have works := worksHere_cleanBuffer h.display.visible
  have fs : s.finishRead.fs = s.fs := works.fs
  have proc : s.finishRead.proc = s.proc := works.proc
  have paging : s.finishRead.paging = s.paging := works.paging
  have terminal : s.finishRead.getNTerminal = s.getNTerminal := congrArg Sched.nTerminal works.sched
  constructor
  · exact h.image
  · refine ⟨h.files.image, mem.symm ▸ h.files.same, fs.symm ▸ h.files.serves, ?_⟩
    refine ⟨?_, paging.symm ▸ h.files.runs.page, h.files.runs.low, h.files.runs.high⟩
    rw [Kernel.fdArrayMapped, proc]
    exact h.files.runs.fdArray
  · exact paging.symm ▸ h.start
  · exact (display_finishRead s).symm ▸ h.display
  · exact terminal.symm ▸ h.terminal
  · exact proc.symm ▸ h.block
  · exact h.volume
  · exact mem.symm ▸ h.header
  · exact proc.symm ▸ h.args
  · exact fun line waits => absurd waits (Option.not_mem_none line)
  · exact proc.symm ▸ h.standard
  · rw [proc, rtc]
    exact h.stream
  · rw [terminal, screenOf_finishRead h.display.visible]
    exact h.output

/-- `read` of the terminal. -/
lemma Hosts.readLine (h : Hosts m modStart k pane w s) (page : InUserPage area 1024)
    (small : n < 1024) (waits : w.input = some line) : ∃ s', serve fr area s (.read 0 n)
    = some (s', ⟨line.length, line⟩) ∧
      Hosts m modStart k pane { w with input := none } s' := by
  obtain ⟨flags, table⟩ := h.standard 0 (by decide)
  have waiting := h.input line waits
  have ptr : area.toNat ≠ 0 := by
    have low := page.1
    rw [userMem] at low
    omega
  have run := readResult_table 0 h.files.runs page (Nat.le_of_lt small) (Int.le_refl 0)
    (by decide) (by decide) flags
  rw [show (0 : Int).toNat = 0 from rfl, table, Kernel.tableRead, toInt_count (Nat.le_of_lt small),
    terminalRead_waiting waiting ptr (by omega) (by omega), Option.map_some] at run
  have fits := waiting.fits
  have works := worksHere_cleanBuffer h.display.visible
  have fdArray : s.finishRead.proc.filedArray = s.proc.filedArray := by
    rw [show s.finishRead.proc = s.proc from works.proc]
  exact ⟨_, serve_read h.files.runs page run fdArray works.paging
    (by show line.length ≤ 1024; omega),
    h.finishRead.storeUser area line⟩

/-- The names of the directory from entry `p` on. -/
lemma names_drop {v : Volume} (hp : p < v.count) :
    v.names.drop p = (v.entry p).name :: v.names.drop (p + 1) := by
  have inside : p < v.names.length := by
    rw [Volume.names, List.length_map, List.length_range]
    exact hp
  rw [List.drop_eq_getElem_cons inside]
  simp [Volume.names]

/-- The slot behind the last entry is silent. -/
lemma Hosts.silent (h : Hosts m modStart k pane w s) :
    s.fs.Silent s.mem ((filesystemInit m modStart).dentryNum m) := by
  have served := h.files.directoryServed
  have room := h.image.room
  have zero (j : Nat) (hj : j < 64) :
      s.mem.byte (s.fs.dentry ((filesystemInit m modStart).dentryNum m) + j) = 0 := by
    rw [served.byte (by omega), Mem.byte_of_lt]
    · exact h.image.blank _ room (Nat.le_refl _) j hj
    · have below := h.image.below
      have start : (filesystemInit m modStart).dentry ((filesystemInit m modStart).dentryNum m)
          = modStart + 64 + 64 * (filesystemInit m modStart).dentryNum m := rfl
      rw [imageSize] at below
      omega
  refine ⟨served.mapped (by omega) (by omega), ?_, served.mapped (by omega) (by omega), ?_⟩
  · rw [Fs.fileType, Mem.word, Nat.add_assoc, Nat.add_assoc, Nat.add_assoc, zero 32 (by decide),
      zero (32 + 1) (by decide), zero (32 + 2) (by decide), zero (32 + 3) (by decide)]
    decide
  · exact zero 0 (by decide)

/-- `directory_read` through the buffer. -/
lemma directoryRead_area (page : InUserPage area 1024)
    (small : n ≤ 1024) (long : 32 ≤ n) (position : (s.proc.fd fd).position = p) {o : Outcome}
    (slot : s.fs.readSlot s.mem p = some (o, p + 1)) :
    s.directoryRead fd area (.ofNat 32 n) = some ⟨o.1, o.2,
      ({ s with fs.curfile := s.fs.dentry p } : Kernel).advance fd 1⟩ := by
  rw [directoryRead_slot position (area_ne_zero page) (by rw [toNat_count small]; exact long)
    (by rw [toNat_count small]; omega), slot, Option.map_some, if_neg (Nat.succ_ne_self p)]

/-- A read that moves a descriptor on within its stream. -/
lemma Hosts.advance (h : Hosts m modStart k pane w s) (page : InUserPage area 1024)
    (small : n ≤ 1024) (low : 2 ≤ fd) (high : fd < 7) (flags : (s.proc.fd fd).flags ≠ 0)
    {res : ReadResult} {b d : Nat} {x : Stream}
    (run : s.tableRead fd area (.ofNat 32 n) (s.proc.fd fd).fileotPointer = some res)
    (after : res.after = ({ s with fs := s.fs.atEntry b } : Kernel).advance fd d)
    (short : res.bytes.length ≤ 1024)
    (entry : OpenOn m modStart s.rtc.rtcFreq
      { s.proc.fd fd with position := add32 (s.proc.fd fd).position d } (some x)) :
    ∃ s', serve fr area s (.read fd n) = some (s', ⟨res.ret, res.bytes⟩) ∧
      Hosts m modStart k pane (w.setFd fd (some x)) s' := by
  have table := readResult_table fd h.files.runs page small (by omega) (by omega)
    (by omega) flags
  have self : s.readFd fd = fd := if_neg (by omega)
  rw [Int.toNat_natCast, self, run] at table
  have fdArray : res.after.proc.filedArray = s.proc.filedArray := by
    rw [after]
    rfl
  have paging : res.after.paging = s.paging := by
    rw [after]
    rfl
  refine ⟨_, serve_read h.files.runs page table fdArray paging short, Hosts.storeUser ?_ area _⟩
  rw [after]
  exact h.change (beside_setFd s fd _ b s.rtc.rtcFreq) low (fun i => Proc.fd_setFd ..) (.inl rfl)
    h.header entry

/-- `read` of the directory. -/
lemma Hosts.readDirectory (h : Hosts m modStart k pane w s) (page : InUserPage area 1024)
    (small : n ≤ 1024) (low : 2 ≤ fd) (high : fd < 7) {names : List (List UInt8)} {x : Stream}
    (entry : OpenOn m modStart s.rtc.rtcFreq (s.proc.fd fd) (some (.directory names)))
    (run : w.readStream n (.directory names) = some (x, a)) :
    ∃ s', serve fr area s (.read fd n) = some (s', a) ∧
      Hosts m modStart k pane (w.setFd fd (some x)) s' := by
  obtain ⟨flags, table, within, rfl⟩ := entry
  have room := h.image.room
  have count : (volumeOf m modStart).count = (filesystemInit m modStart).dentryNum m := rfl
  have next : add32 (s.proc.fd fd).position 1 = (s.proc.fd fd).position + 1 :=
    add32_of_lt (by omega)
  have run_table (o : Outcome) (slot : s.fs.readSlot s.mem (s.proc.fd fd).position
      = some (o, (s.proc.fd fd).position + 1)) (long : 32 ≤ n) :
      s.tableRead fd area (.ofNat 32 n) (s.proc.fd fd).fileotPointer = some ⟨o.1, o.2,
        ({ s with fs := s.fs.atEntry (s.fs.dentry (s.proc.fd fd).position) } : Kernel).advance fd
          1⟩ := by
    rw [table, Kernel.tableRead, if_pos (by rw [fdarrayMax]; omega),
      directoryRead_area page small long rfl slot]
    rfl
  unfold World.readStream at run
  dsimp only at run
  split_ifs at run with short
  rcases Nat.eq_or_lt_of_le within with last | inside
  · have none_left : (volumeOf m modStart).names.drop (s.proc.fd fd).position = [] := by
      rw [last, List.drop_eq_nil_iff, Volume.names, List.length_map, List.length_range]
    rw [none_left] at run
    obtain ⟨rfl, rfl⟩ := Prod.mk.inj (Option.some.inj run)
    have slot := readSlot_silent h.silent
    rw [← count, ← last] at slot
    exact h.advance page small low high flags (run_table _ slot (by omega)) rfl (Nat.zero_le _)
      ⟨flags, .inl table⟩
  · rw [names_drop inside] at run
    obtain ⟨rfl, rfl⟩ := Prod.mk.inj (Option.some.inj run)
    have slot := h.files.directoryServed.readSlot (i := (s.proc.fd fd).position) (by omega)
    rw [listed, if_pos (by omega)] at slot
    have name := length_entryName_le (filesystemInit m modStart) m (s.proc.fd fd).position
    refine h.advance page small low high flags (run_table _ slot (by omega)) rfl ?_ ?_
    · exact Nat.le_trans name (by decide)
    · rw [next]
      exact ⟨flags, table, inside, rfl⟩

/-- `read` of a file. -/
lemma Hosts.readFile (h : Hosts m modStart k pane w s) (page : InUserPage area 1024)
    (small : n ≤ 1024) (low : 2 ≤ fd) (high : fd < 7) {x : Stream}
    (entry : OpenOn m modStart s.rtc.rtcFreq (s.proc.fd fd) (some (.file inode rest)))
    (run : w.readStream n (.file inode rest) = some (x, a)) :
    ∃ s', serve fr area s (.read fd n) = some (s', a) ∧
      Hosts m modStart k pane (w.setFd fd (some x)) s' := by
  obtain ⟨flags, table, rfl, valid, within, rfl⟩ := entry
  obtain ⟨-, inodesNum, fileLength, contents⟩ := h.serves
  have most := h.files.serves.fileLength_le h.files.image (inodesNum.symm ▸ valid)
  have length : (s.fs.contents m (s.proc.fd fd).inode).length
    = s.fs.fileLength m (s.proc.fd fd).inode :=
    Fs.length_contents
  have run_table : s.tableRead fd area (.ofNat 32 n) (s.proc.fd fd).fileotPointer
      = some (s.fileRead fd (.ofNat 32 n)) := by
    rw [table, Kernel.tableRead, if_pos (by rw [fdarrayMax]; omega)]
  have rest_eq : s.rest m fd = ((volumeOf m modStart).contents (s.proc.fd fd).inode).drop
      (s.proc.fd fd).position := by
    rw [Kernel.rest, contents]
    rfl
  have passes_iff : s.Passes m fd ↔ w.Counts (s.proc.fd fd).inode ∨ s.rest m fd = [] := by
    rw [Kernel.Passes, World.Counts, h.counts.2, Kernel.rest, List.drop_eq_nil_iff, length]
    rw [← fileLength] at within
    constructor
    · rintro (counted | at_end)
      · exact .inl counted
      · exact .inr (Nat.le_of_eq at_end.symm)
    · rintro (counted | at_end)
      · exact .inl counted
      · exact .inr (Nat.le_antisymm within at_end)
  rw [← fileLength] at within
  have count := toNat_count small
  rw [World.readStream, ← rest_eq] at run
  split_ifs at run with passes
  · obtain ⟨rfl, rfl⟩ := Prod.mk.inj (Option.some.inj run)
    have read : s.fileRead fd (.ofNat 32 n) = _ := h.files.fileRead (inodesNum.symm ▸ valid) within
      (passes_iff.mpr passes) (by omega)
    rw [count] at read
    rw [read] at run_table
    have taken : ((s.rest m fd).take n).length ≤ (s.rest m fd).length := List.length_take_le' ..
    have bound : (s.rest m fd).length + (s.proc.fd fd).position
        = s.fs.fileLength m (s.proc.fd fd).inode := by
      rw [Kernel.rest, List.length_drop, length]
      omega
    refine h.advance page small low high flags (b := s.fs.curfile) run_table rfl ?_ ?_
    · exact Nat.le_trans (List.length_take_le ..) small
    · rw [add32_of_lt (by omega)]
      refine ⟨flags, table, rfl, valid, ?_, ?_⟩
      · rw [← fileLength]
        show (s.proc.fd fd).position + _ ≤ _
        omega
      · have all : (s.rest m fd).drop n = (s.rest m fd).drop ((s.rest m fd).take n).length := by
          rw [List.length_take, List.drop_eq_drop_iff]
          omega
        rw [all, rest_eq, List.drop_drop]
  · obtain ⟨rfl, rfl⟩ := Prod.mk.inj (Option.some.inj run)
    rw [h.files.fileRead_refused (inodesNum.symm ▸ valid) (mt passes_iff.mp passes)] at run_table
    exact h.advance page small low high flags (b := s.fs.curfile) run_table rfl (Nat.zero_le _)
      ⟨flags, .inr table⟩

/-- Setting a descriptor to what it is. -/
lemma World.setFd_self {w : World} {e : Option Stream} (h : w.fds fd = e) : w.setFd fd e = w := by
  rw [World.setFd, ← h, Function.update_eq_self]

/-- `read` of a stream. -/
lemma Hosts.readStream (h : Hosts m modStart k pane w s) (page : InUserPage area 1024)
    (small : n ≤ 1024) (low : 2 ≤ fd) (high : fd < 7) {x y : Stream} (opened : w.fds fd = some x)
    (run : w.readStream n x = some (y, a)) : ∃ s', serve fr area s (.read fd n) = some (s', a) ∧
      Hosts m modStart k pane (w.setFd fd (some y)) s' := by
  have entry := h.stream fd low (by omega)
  rw [opened] at entry
  cases x with
  | device =>
    obtain ⟨flags, table, fast⟩ := entry
    obtain ⟨rfl, rfl⟩ := Prod.mk.inj (Option.some.inj run)
    have at_once : s.rtcread = some ⟨0, [], s⟩ := by
      rw [Kernel.rtcread, if_neg (by omega), if_pos (Nat.div_eq_of_lt fast)]
    have result := readResult_table fd h.files.runs page small (by omega) (by omega)
      (by omega) flags
    rw [Int.toNat_natCast, table, Kernel.tableRead, at_once] at result
    rw [World.setFd_self opened]
    exact ⟨_, serve_read h.files.runs page result rfl rfl (Nat.zero_le _), h.storeUser area _⟩
  | directory names => exact h.readDirectory page small low high entry run
  | file inode rest => exact h.readFile page small low high entry run
  | broken => cases run

/-- `read`. -/
lemma Hosts.read (h : Hosts m modStart k pane w s) (page : InUserPage area 1024) (small : n ≤ 1024)
    {fd : Int} (range : World.Int32 fd) (run : w.read fd n = some (w', a)) :
    ∃ s', serve fr area s (.read fd n) = some (s', a) ∧ Hosts m modStart k pane w' s' := by
  have in_page := inUserPage_short page small
  have refuse (result : s.readResult (.ofInt 32 fd) area (.ofNat 32 n) = some ⟨-1, [], s⟩)
      (e : some (w, (⟨-1, []⟩ : Answer)) = some (w', a)) :
      ∃ s', serve fr area s (.read fd n) = some (s', a) ∧ Hosts m modStart k pane w' s' := by
    obtain ⟨rfl, rfl⟩ := Prod.mk.inj (Option.some.inj e)
    exact ⟨_, serve_read h.files.runs page result rfl rfl (Nat.zero_le _), h.storeUser area _⟩
  rw [World.read] at run
  split_ifs at run with out zero long
  · refine refuse ?_ run
    rw [Kernel.readResult, if_neg (not_not.mpr in_page.userBuffer), if_pos]
    rcases out with neg | big | rfl
    · exact .inl (toNat_descriptor_ge range (.inl neg))
    · exact .inl (toNat_descriptor_ge range (.inr big))
    · exact .inr rfl
  · subst zero
    refine refuse ?_ run
    obtain ⟨flags, table⟩ := h.standard 0 (by decide)
    have ptr : area.toNat ≠ 0 := fun e => area_ne_zero page (BitVec.toNat_inj.mp e)
    rw [readResult_table 0 h.files.runs page small (Int.le_refl 0) (by decide) (by decide) flags,
      show (0 : Int).toNat = 0 from rfl, table, Kernel.tableRead, toInt_count small,
      Kernel.terminalRead, if_neg ptr, if_neg (by omega), if_pos (by omega)]
    rfl
  · subst zero
    obtain ⟨line, waits, e⟩ := Option.map_eq_some_iff.mp run
    obtain ⟨rfl, rfl⟩ := Prod.mk.inj e
    exact h.readLine page (by omega) waits
  · obtain ⟨fd, rfl⟩ := Int.eq_ofNat_of_zero_le (show 0 ≤ fd by omega)
    rw [Int.toNat_natCast] at run
    cases opened : w.fds fd with
    | none =>
      rw [opened] at run
      refine refuse ?_ run
      have entry := h.stream fd (by omega) (by omega)
      rw [opened] at entry
      rw [Kernel.readResult, toNat_descriptor (by omega) (by omega),
        if_neg (not_not.mpr in_page.userBuffer), if_neg (by omega),
        if_neg (not_not.mpr h.files.runs.fdArray), Int.toNat_natCast]
      exact if_pos entry
    | some x =>
      rw [opened] at run
      obtain ⟨⟨y, b⟩, read, e⟩ := Option.map_eq_some_iff.mp run
      obtain ⟨rfl, rfl⟩ := Prod.mk.inj e
      exact h.readStream page small (by omega) (by omega) opened read

end Reads

/-! ## Writes -/

section Writes

variable {m : Mem} {modStart k fd buf : Nat} {pane : Pane} {w w' : World} {s s' : Kernel}
variable {area : BitVec 32} {bs : List UInt8} {fr : Frame} {a : Answer}

/-- Bytes that a pointer and the ones behind it reach. -/
lemma holds_of_walk (walk : ∀ j < bs.length, ∃ pa, s.paging.translate (buf + j) = some pa ∧
    s.mem pa = bs.getD j 0 ∧ OffScreens pa) (top : buf + bs.length < 2 ^ 32) : s.Holds buf bs := by
  induction bs generalizing buf with
  | nil => trivial
  | cons b bs ih =>
    rw [List.length_cons] at walk top
    have next : add32 buf 1 = buf + 1 := add32_of_lt (by omega)
    refine ⟨walk 0 (by omega), ?_⟩
    rw [next]
    refine ih (fun j hj => ?_) (by omega)
    have there := walk (j + 1) (by omega)
    rw [← Nat.add_assoc, Nat.add_right_comm] at there
    exact there

/-- The bytes a program writes are in its buffer. -/
lemma holds_storeUser (runs : RunsIn k s) (page : InUserPage area 1024) (short : bs.length ≤ 1024) :
    (s.storeUser k area bs).Holds area.toNat bs := by
  obtain ⟨low, high⟩ := page
  have most : (1024 : BitVec 32).toNat = 1024 := rfl
  have top : userEnd < 2 ^ 32 := by decide
  have above := runs.low
  refine holds_of_walk (fun j hj => ?_) (by omega)
  have place : userFrame k (area.toNat + j) = userFrame k area.toNat + j := by
    rw [userFrame, userFrame]
    omega
  refine ⟨_, translate_user (runs.storeUser.page) runs.low runs.high (by omega) (by omega), ?_, ?_⟩
  · rw [mem_storeUser, place, Mem.store_at hj]
  · apply offScreens_user
    rw [userFrame]
    omega

/-- The memory behind the screens. -/
lemma offScreens_image {a : Nat} (h : 0x00400000 ≤ a) : OffScreens a := by
  simp only [OffScreens, OffPage, OnPage, videoMem, videoBuffer, fourKb]
  exact ⟨by omega, fun t ht => by omega⟩

/-- What is printed on a pane shows on its screen only. -/
lemma screenOf_print {p q : Pane} (same : screenOf p = screenOf q) (bs : List UInt8) :
    screenOf (bs.foldl Pane.print p) = screenOf (bs.foldl Pane.print q) := by
  induction bs generalizing p q with
  | nil => exact same
  | cons b bs ih =>
    have page : p.page = q.page := by
      obtain ⟨cells, cursor⟩ := Prod.mk.inj same
      obtain ⟨x, y⟩ := Prod.mk.inj cursor
      rw [Pane.page, Pane.page, cells, x, y]
    apply ih
    rw [screenOf, screenOf, Pane.print, Pane.print, page]

/-- `terminal_write` of the process prints. -/
lemma Hosts.print (h : Hosts m modStart k pane w s) {n r : Int}
    (run : s.terminalWrite buf n = some (r, s')) (printed : Printed s.getNTerminal s s')
    (shows : s'.pane s.getNTerminal = bs.foldl Pane.print (s.pane s.getNTerminal)) :
    Hosts m modStart k pane { w with output := w.output ++ bs } s' := by
  have proc : s'.proc = s.proc := congrArg ProcView.proc (procView_terminalWrite run)
  obtain ⟨rtc, fs, sched⟩ : s'.rtc = s.rtc ∧ s'.fs = s.fs ∧ s'.sched = s.sched :=
    terminalWrite_inv (P := fun t => t.rtc = s.rtc ∧ t.fs = s.fs ∧ t.sched = s.sched)
      ⟨rfl, rfl, rfl⟩
      (fun _ _ _ same => same) (fun _ _ _ same => same) run
  have terminal : s'.getNTerminal = s.getNTerminal := congrArg Sched.nTerminal sched
  have mem := printed.offScreens h.terminal
  have current : s'.term.current = s.term.current := by
    rw [Term.current, Term.current, printed.current]
    apply printed.only.saved
    by_cases here : s.term.currentTerminalId = s.getNTerminal
    · exact .inr here.symm
    · exact .inl here
  constructor
  · exact h.image
  · refine ⟨h.files.image, ?_, fs.symm ▸ h.files.serves, ?_⟩
    · exact h.files.same.trans (mem.mono fun _ inside => offScreens_image (h.image.lt inside.1).1)
    · refine ⟨?_, printed.paging.symm ▸ h.files.runs.page, h.files.runs.low, h.files.runs.high⟩
      rw [Kernel.fdArrayMapped, proc]
      exact h.files.runs.fdArray
  · exact printed.paging.symm ▸ h.start
  · exact printed.ok
  · exact terminal.symm ▸ h.terminal
  · exact proc.symm ▸ h.block
  · exact h.volume
  · intro j hj
    have low := (h.header_lt hj).1
    rw [mem _ (offScreens_image (by omega))]
    exact h.header j hj
  · exact proc.symm ▸ h.args
  · intro line waits
    obtain ⟨fits, enter, chars, single, newline⟩ := h.input line waits
    rw [Kernel.checkEnter, ← printed.kbd] at enter
    rw [← current] at chars newline
    exact ⟨fits, enter, chars, single, newline⟩
  · exact proc.symm ▸ h.standard
  · rw [proc, rtc]
    exact h.stream
  · rw [terminal, shows, List.foldl_append]
    exact screenOf_print h.output bs

/-- `write`. -/
lemma Hosts.write (h : Hosts m modStart k pane w s) (page : InUserPage area 1024)
    (short : bs.length ≤ 1024) {fd : Int} (range : World.Int32 fd)
    (run : w.write fd bs = some (w', a)) :
    ∃ s', serve fr area s (.write fd bs) = some (s', a) ∧ Hosts m modStart k pane w' s' := by
  have in_page := inUserPage_short page short
  have h' := h.storeUser area bs
  have refuse (result : (s.storeUser k area bs).sysWrite (.ofInt 32 fd) area (.ofNat 32 bs.length)
      = some (s.storeUser k area bs, -1)) (e : some (w, (⟨-1, []⟩ : Answer)) = some (w', a)) :
      ∃ s', serve fr area s (.write fd bs) = some (s', a) ∧ Hosts m modStart k pane w' s' := by
    obtain ⟨rfl, rfl⟩ := Prod.mk.inj (Option.some.inj e)
    refine ⟨_, ?_, h'⟩
    rw [serve_write h.files.runs page short, result]
    rfl
  have fdArray := h'.files.runs.fdArray
  rw [World.write] at run
  split_ifs at run with out one
  · refine refuse ?_ run
    rw [Kernel.sysWrite, if_neg (not_not.mpr in_page.userBuffer), if_pos]
    rcases out with neg | big | rfl
    · exact .inl (toNat_descriptor_ge range (.inl neg))
    · exact .inl (toNat_descriptor_ge range (.inr big))
    · exact .inr rfl
  · subst one
    obtain ⟨rfl, rfl⟩ := Prod.mk.inj (Option.some.inj run)
    obtain ⟨flags, table⟩ := h'.standard 1 (by decide)
    have ptr : area.toNat ≠ 0 := fun e => area_ne_zero page (BitVec.toNat_inj.mp e)
    obtain ⟨s', write, printed, shows⟩ := terminalWrite_print h'.display h'.terminal
      (holds_storeUser h.files.runs page short) ptr
    refine ⟨s', ?_, h'.print write printed shows⟩
    rw [serve_write h.files.runs page short, Kernel.sysWrite,
      if_neg (not_not.mpr in_page.userBuffer),
      toNat_descriptor (by decide) (by decide), if_neg (by decide), if_neg (not_not.mpr fdArray),
      show (1 : Int).toNat = 1 from rfl, if_neg flags, table, Kernel.tableWrite,
        toInt_count short, write]
    rfl
  · obtain ⟨fd, rfl⟩ := Int.eq_ofNat_of_zero_le (show 0 ≤ fd by omega)
    rw [Int.toNat_natCast] at run
    have entry := h'.stream fd (by omega) (by omega)
    have result : (s.storeUser k area bs).sysWrite (.ofInt 32 (fd : Int)) area (.ofNat 32 bs.length)
        = if ((s.storeUser k area bs).proc.fd fd).flags = 0 then some (s.storeUser k area bs, -1)
          else (s.storeUser k area bs).tableWrite area (.ofNat 32 bs.length)
            ((s.storeUser k area bs).proc.fd fd).fileotPointer := by
      rw [Kernel.sysWrite, toNat_descriptor (by omega) (by omega),
        if_neg (not_not.mpr in_page.userBuffer), if_neg (by omega), if_neg (not_not.mpr fdArray),
        Int.toNat_natCast]
    cases opened : w.fds fd with
    | none =>
      rw [opened] at run entry
      exact refuse (result.trans (if_pos entry)) run
    | some x =>
      rw [opened] at run entry
      -- files and the directory are never written
      have kept (flags : ((s.storeUser k area bs).proc.fd fd).flags ≠ 0)
          (table : ((s.storeUser k area bs).proc.fd fd).fileotPointer = 1 ∨
            ((s.storeUser k area bs).proc.fd fd).fileotPointer = 2) :
          (s.storeUser k area bs).sysWrite (.ofInt 32 (fd : Int)) area (.ofNat 32 bs.length)
            = some (s.storeUser k area bs, -1) := by
        rw [result, if_neg flags]
        rcases table with table | table
        · rw [table, Kernel.tableWrite]
        · rw [table, Kernel.tableWrite]
      cases x with
      | device => cases run
      | directory names => exact refuse (kept entry.1 (.inl entry.2.1)) run
      | file inode rest => exact refuse (kept entry.1 (.inr entry.2.1)) run
      | broken => exact refuse (kept entry.1 entry.2) run

end Writes

end Kernel391.User
