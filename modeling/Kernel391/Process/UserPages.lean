import Kernel391.Process.Calls
import Mathlib.Data.List.Basic

/-!
# User pages

A pointer from `USER_MEM` on reaches physical memory through the page of the process that runs,
which lies above the kernel, or not at all. So nothing stored through such a pointer, and no program
that is loaded, changes the memory below `END_OF_KERNEL`: the boot image and the video pages.
-/

namespace Kernel391
open Base

/-- From `USER_MEM` on nothing is mapped but, at most, the page of a process. -/
structure UserPages (pg : Paging) : Prop where
  user : pg.DT userPdIndex % 2 = 0 ∨ ∃ k, 2 ≤ k ∧ k < 8 ∧ pg.DT userPdIndex = userPde k
  above : ∀ i, userPdIndex < i → pg.DT i % 2 = 0

/-- The physical addresses of the kernel and of everything below it. -/
def Low (a : Nat) : Prop := a < 0x00800000

section Lemmas

variable {pg : Paging} {s s' : Kernel} {fr : Frame}

/-- The entry of the user page in the directory. -/
lemma userPdIndex_eq : userPdIndex = 32 := rfl

/-- The fields of the entry of a user page. -/
lemma userPde_spec {k : Nat} (h2 : 2 ≤ k) (h8 : k < 8) :
    userPde k % 2 = 1 ∧ userPde k / 2 ^ 7 % 2 = 1 ∧ userPde k / 2 ^ 22 = k := by
  obtain rfl | rfl | rfl | rfl | rfl | rfl : k = 2 ∨ k = 3 ∨ k = 4 ∨ k = 5 ∨ k = 6 ∨ k = 7 := by
    omega
  all_goals decide

/-- Mapping the page of a process. -/
lemma UserPages.mapUserPage (h : UserPages pg) {k : Nat} (h2 : 2 ≤ k) (h8 : k < 8) :
    UserPages (pg.mapUserPage k) := by
  refine ⟨.inr ⟨k, h2, h8, Paging.mapUserPage_DT pg k⟩, fun i hi => ?_⟩
  have ne : i ≠ userPdIndex := Nat.ne_of_gt hi
  rw [Paging.mapUserPage]
  show Function.update pg.DT userPdIndex (userPde k) i % 2 = 0
  rw [Function.update_of_ne ne]
  exact h.above i hi

/-- A user pointer that reaches memory at all reaches the page of a process. -/
lemma UserPages.translate (h : UserPages pg) {va pa : Nat} (hva : userMem ≤ va)
    (ht : pg.translate va = some pa) : va < userEnd ∧ 0x00800000 ≤ pa := by
  rw [userMem] at hva
  rw [Paging.translate] at ht
  dsimp only at ht
  rcases Nat.lt_or_ge (va / 2 ^ 22) 33 with lt | ge
  · have index : va / 2 ^ 22 = userPdIndex := by
      rw [userPdIndex_eq]
      omega
    rw [index] at ht
    rcases h.user with absent | ⟨k, h2, h8, hk⟩
    · rw [if_pos absent] at ht
      cases ht
    · obtain ⟨present, big, frame⟩ := userPde_spec h2 h8
      rw [hk, if_neg (by omega), if_pos big, frame] at ht
      cases ht
      refine ⟨?_, by omega⟩
      rw [userEnd]
      omega
  · have above := h.above (va / 2 ^ 22) (by rw [userPdIndex_eq]; omega)
    rw [if_pos above] at ht
    cases ht

/-- Stores through a user pointer leave low memory alone. -/
lemma UserPages.storeThrough (h : UserPages pg) {bs : List UInt8} {m m' : Mem} {va : Nat}
    (hva : userMem ≤ va) (run : storeThrough pg m va bs = some m') : SameOn Low m m' := by
  induction bs generalizing m va with
  | nil => cases run; exact .refl
  | cons b bs ih =>
      rw [Kernel391.storeThrough] at run
      cases ht : pg.translate va with
      | none => rw [ht] at run; cases run
      | some pa =>
          rw [ht] at run
          obtain ⟨below, high⟩ := h.translate hva ht
          rw [userEnd] at below
          have next : add32 va 1 = va + 1 := Nat.mod_eq_of_lt (by omega)
          rw [next] at run
          have first : SameOn Low m (Function.update m pa b) :=
            .update b (fun low => absurd low (Nat.not_lt.mpr high))
          exact first.trans (ih (by omega) run)

/-- A buffer that passes the check starts at a user pointer. -/
lemma userBuffer_start {buf n : BitVec 32} (h : userBuffer buf n) :
    userMem ≤ buf.toNat ∧ buf.toNat < 2 ^ 31 := by
  have start := h.1
  have sign := BitVec.toInt_eq_toNat_cond buf
  have lt := buf.isLt
  simp only [userMem] at start ⊢
  split_ifs at sign <;> omega

/-! ### The page of a process -/

/-- The physical address of a user pointer in frame `k`. -/
def userFrame (k va : Nat) : Nat := 2 ^ 22 * k + (va - userMem)

/-- A user pointer reaches the frame that is mapped. -/
lemma translate_user {k va : Nat} (mapped : pg.DT userPdIndex = userPde k) (h2 : 2 ≤ k) (h8 : k < 8)
    (low : userMem ≤ va) (high : va < userEnd) : pg.translate va = some (userFrame k va) := by
  obtain ⟨present, big, frame⟩ := userPde_spec h2 h8
  rw [userMem] at low
  rw [userEnd] at high
  have index : va / 2 ^ 22 = userPdIndex := by
    rw [userPdIndex_eq]
    omega
  have place : k * 2 ^ 22 + va % 2 ^ 22 = userFrame k va := by
    rw [userFrame, userMem]
    omega
  rw [Paging.translate, index, mapped]
  dsimp only
  rw [if_neg (by omega), if_pos big, frame, place]

/-- Stores through pointers that reach consecutive bytes are one store. -/
lemma storeThrough_walk {bs : List UInt8} {va pa : Nat}
    (walk : ∀ k < bs.length, pg.translate (va + k) = some (pa + k)) (top : va + bs.length < 2 ^ 32)
    (m : Mem) : Kernel391.storeThrough pg m va bs = some (m.store pa bs) := by
  induction bs generalizing va pa m with
  | nil => rw [Kernel391.storeThrough, Mem.store_nil]
  | cons b bs ih =>
      rw [List.length_cons] at walk top
      have next : add32 va 1 = va + 1 := Nat.mod_eq_of_lt (by omega)
      have here : pg.translate va = some pa := walk 0 (by omega)
      have rest : ∀ k < bs.length, pg.translate (va + 1 + k) = some (pa + 1 + k) := by
        intro k hk
        have step := walk (k + 1) (by omega)
        rw [Nat.add_assoc, Nat.add_comm 1 k, step, Nat.add_assoc, Nat.add_comm 1 k]
      rw [Kernel391.storeThrough, here]
      dsimp only
      rw [next, ih rest (by omega), Mem.store_cons]

/-- Stores through user pointers are one store to the frame that is mapped. -/
lemma storeThrough_user {k va : Nat} (mapped : pg.DT userPdIndex = userPde k) (h2 : 2 ≤ k)
    (h8 : k < 8)
    (low : userMem ≤ va) {bs : List UInt8} (high : va + bs.length ≤ userEnd) (m : Mem) :
    Kernel391.storeThrough pg m va bs = some (m.store (userFrame k va) bs) := by
  have top : userEnd < 2 ^ 32 := by decide
  refine storeThrough_walk (fun j hj => ?_) (by omega) m
  have place : userFrame k (va + j) = userFrame k va + j := by
    rw [userFrame, userFrame]
    omega
  rw [translate_user mapped h2 h8 (by omega) (by omega), place]

/-- What a load through a user pointer finds in the frame. -/
lemma load_user {k va : Nat} (mapped : s.paging.DT userPdIndex = userPde k) (h2 : 2 ≤ k)
    (h8 : k < 8)
    (low : userMem ≤ va) (high : va < userEnd) : s.load va = some (s.mem (userFrame k va)) := by
  rw [Kernel.load, translate_user mapped h2 h8 low high]
  rfl

/-- A buffer of `n` bytes in the user page. -/
def InUserPage (buf n : BitVec 32) : Prop := userMem ≤ buf.toNat ∧ buf.toNat + n.toNat ≤ userEnd

/-- It passes the check. -/
lemma InUserPage.userBuffer {buf n : BitVec 32} (h : InUserPage buf n) : userBuffer buf n := by
  obtain ⟨low, high⟩ := h
  have end_eq : (buf + n).toNat = buf.toNat + n.toNat := by
    rw [userEnd] at high
    rw [BitVec.toNat_add]
    omega
  have start := BitVec.toInt_eq_toNat_cond buf
  have stop := BitVec.toInt_eq_toNat_cond (buf + n)
  rw [Kernel391.userBuffer]
  simp only [userMem, userEnd] at low high ⊢
  rw [end_eq] at stop
  split_ifs at start stop <;> omega

/-- What a store to the user page left is what loads find. -/
lemma load_stored {k j : Nat} {buf n : BitVec 32} {bs : List UInt8}
    (mapped : s.paging.DT userPdIndex = userPde k) (h2 : 2 ≤ k) (h8 : k < 8)
    (page : InUserPage buf n)
    (length : bs.length ≤ n.toNat) (hj : j < bs.length) :
    ({ s with mem := s.mem.store (userFrame k buf.toNat) bs } : Kernel).load (buf.toNat + j)
      = some (bs.getD j 0) := by
  obtain ⟨low, high⟩ := page
  have inside : buf.toNat + j < userEnd := by omega
  have place : userFrame k (buf.toNat + j) = userFrame k buf.toNat + j := by
    rw [userFrame, userFrame]
    omega
  have byte : s.mem.store (userFrame k buf.toNat) bs (userFrame k buf.toNat + j) = bs.getD j 0 :=
    Mem.store_at hj
  have found :=
    load_user (s := { s with mem := s.mem.store (userFrame k buf.toNat) bs }) mapped h2 h8
    (Nat.le_add_right_of_le low) inside
  rw [place] at found
  dsimp only at found
  rw [byte] at found
  exact found

/-! ### Reads -/

/-- The process that runs has frame `k`, and its descriptor array is in the kernel's page. -/
structure RunsIn (k : Nat) (s : Kernel) : Prop where
  fdArray : s.fdArrayMapped
  page : s.paging.DT userPdIndex = userPde k
  low : 2 ≤ k
  high : k < 8

/-- The state in which the process of frame `k` has `bytes` in its buffer. -/
def Kernel.storeUser (s : Kernel) (k : Nat) (buf : BitVec 32) (bytes : List UInt8) : Kernel :=
  { s with mem := s.mem.store (userFrame k buf.toNat) bytes }

/-- Descriptor `fd` with its position moved on by `n`. -/
def Kernel.advance (s : Kernel) (fd n : Nat) : Kernel :=
  let e := s.proc.fd fd
  { s with proc := s.proc.setFd fd { e with position := add32 e.position n } }

/-- The state after a read of descriptor `fd` stored `bytes` and moved the position on by `n`. -/
def Kernel.deliver (s : Kernel) (k fd : Nat)
    (buf : BitVec 32) (bytes : List UInt8) (n : Nat) : Kernel :=
  (s.advance fd n).storeUser k buf bytes

/-- The bytes a read that returned `r` left in its buffer. -/
def Kernel.returned (s : Kernel) (buf : BitVec 32) (r : Int) : List UInt8 :=
  (List.range r.toNat).filterMap fun k => s.load (buf.toNat + k)

section Reads

variable {k : Nat} {fd buf n : BitVec 32} {bytes : List UInt8}

/-- A descriptor after one was set. -/
lemma Proc.fd_setFd (p : Proc) (i : Nat) (e : FdArray) (j : Nat) :
    (p.setFd i e).fd j = if j = i then e else p.fd j := by
  rw [Proc.fd, Proc.setFd, Proc.setPcb]
  dsimp only
  rw [Function.update_self]
  exact Function.update_apply ..

/-- Setting a descriptor twice is setting it to the last value. -/
lemma Proc.setFd_setFd (p : Proc) (i : Nat) (e e' : FdArray) :
    (p.setFd i e).setFd i e' = p.setFd i e' := by
  simp only [Proc.setFd, Proc.setPcb, Function.update_self, Function.update_idem]

/-- A descriptor after a position was advanced. -/
lemma fd_advance (s : Kernel) (i n j : Nat) : (s.advance i n).proc.fd j = if j = i then
    { s.proc.fd i with position := add32 (s.proc.fd i).position n } else s.proc.fd j :=
  Proc.fd_setFd ..

/-- Advancing a position leaves the process in its page. -/
lemma RunsIn.advance (h : RunsIn k s) (i n : Nat) : RunsIn k (s.advance i n) :=
  ⟨h.fdArray, h.page, h.low, h.high⟩

/-- The memory after a store to the user page. -/
lemma mem_storeUser (s : Kernel) :
    (s.storeUser k buf bytes).mem = s.mem.store (userFrame k buf.toNat) bytes := by
  rw [Kernel.storeUser]

/-- A store to the user page changes no process. -/
lemma proc_storeUser (s : Kernel) : (s.storeUser k buf bytes).proc = s.proc := by
    rw [Kernel.storeUser]

/-- A store to the user page changes nothing of the file system's record. -/
lemma fs_storeUser (s : Kernel) : (s.storeUser k buf bytes).fs = s.fs := by rw [Kernel.storeUser]

/-- A store to the user page changes no page table. -/
lemma paging_storeUser (s : Kernel) : (s.storeUser k buf bytes).paging = s.paging := by
  rw [Kernel.storeUser]

/-- A store to the user page leaves the process in its page. -/
lemma RunsIn.storeUser (h : RunsIn k s) : RunsIn k (s.storeUser k buf bytes) := by
  constructor
  · rw [Kernel.fdArrayMapped, proc_storeUser]
    exact h.fdArray
  · rw [paging_storeUser]
    exact h.page
  · exact h.low
  · exact h.high

/-- What the process has in its buffer is above the kernel. -/
lemma RunsIn.low_storeUser (h : RunsIn k s) : SameOn Low s.mem (s.storeUser k buf bytes).mem := by
  intro a low
  have above := h.low
  rw [Low] at low
  have outside : a < userFrame k buf.toNat := by
    rw [userFrame]
    omega
  rw [mem_storeUser, Mem.store_frame (.inl outside)]

/-- A delivery changes nothing of the file system's record. -/
lemma fs_deliver (s : Kernel) (i n : Nat) : (s.deliver k i buf bytes n).fs = s.fs := fs_storeUser ..

/-- A delivery changes the descriptor as the advance does. -/
lemma fd_deliver (s : Kernel) (i n j : Nat) :
    (s.deliver k i buf bytes n).proc.fd j = (s.advance i n).proc.fd j := by
  rw [Kernel.deliver, proc_storeUser]

/-- A delivery leaves the process in its page. -/
lemma RunsIn.deliver (h : RunsIn k s) (i n : Nat) : RunsIn k (s.deliver k i buf bytes n) :=
  (h.advance i n).storeUser

/-- A delivery changes no memory below the user pages. -/
lemma RunsIn.low_deliver (h : RunsIn k s) (i n : Nat) :
    SameOn Low s.mem (s.deliver k i buf bytes n).mem := (h.advance i n).low_storeUser

/-- `read` refuses descriptor 7. -/
lemma sysRead_seven (page : InUserPage buf n) (seven : fd.toNat = 7) :
    s.sysRead fd buf n = some (s, -1) := by
  rw [Kernel.sysRead, Kernel.readResult,
    if_neg (not_not.mpr page.userBuffer), if_pos (.inl (by omega))]
  rfl

/-- A read of a descriptor that is in use does what its table entry does. -/
lemma RunsIn.sysRead (h : RunsIn k s) (page : InUserPage buf n)
    (low : 2 ≤ fd.toNat) (high : fd.toNat < 7)
    (flags : (s.proc.fd fd.toNat).flags ≠ 0) {r : Option ReadResult}
    (run : s.tableRead fd.toNat buf n (s.proc.fd fd.toNat).fileotPointer = r)
    (stored : ∀ res ∈ r, res.after.paging = s.paging ∧ res.bytes.length ≤ n.toNat) :
    s.sysRead fd buf n = r.map fun res => (res.after.storeUser k buf res.bytes, res.ret) := by
  have self : s.readFd fd.toNat = fd.toNat := if_neg (by omega)
  rw [Kernel.sysRead, Kernel.readResult, if_neg (not_not.mpr page.userBuffer), if_neg (by omega),
    if_neg (not_not.mpr h.fdArray), if_neg flags, self, run]
  cases r with
  | none => rfl
  | some res =>
      obtain ⟨paging, length⟩ := stored res rfl
      have mapped : res.after.paging.DT userPdIndex = userPde k := by
        rw [paging]
        exact h.page
      have stop : buf.toNat + res.bytes.length ≤ userEnd := by
        have within := page.2
        omega
      have written := storeThrough_user mapped h.low h.high page.1 stop res.after.mem
      rw [Option.bind_eq_bind, Option.bind_some, ← paging, written]
      rfl

/-- The bytes stored are in the buffer. -/
lemma RunsIn.returned (h : RunsIn k s) (page : InUserPage buf n) (length : bytes.length ≤ n.toNat) :
    (s.storeUser k buf bytes).returned buf ((bytes.length : Nat) : Int) = bytes := by
  have loads (j : Nat) (hj : j ∈ List.range bytes.length) :
      (s.storeUser k buf bytes).load (buf.toNat + j) = some (bytes.getD j 0) :=
    load_stored h.page h.low h.high page length (List.mem_range.mp hj)
  rw [Kernel.returned, Int.toNat_natCast, List.filterMap_eq_map_iff_forall_eq_some.mpr loads]
  apply List.ext_getElem (by simp)
  intro j hj hj'
  simp [List.getElem?_eq_getElem hj']

end Reads

/-- At boot only the first 8 MB are mapped. -/
lemma boot_unmapped (b : BootInfo) {i : Nat} (h0 : i ≠ 0) (h1 : i ≠ 1) :
    (Kernel.boot b).paging.DT i % 2 = 0 := by
  show (pagingInit b.dtAddr b.ptAddr b.ptVidmemAddr).DT i % 2 = 0
  rw [pagingInit]
  dsimp only
  rw [if_neg h0, if_neg h1]
  decide

/-- The user pages are mapped as they should be at boot. -/
lemma UserPages.boot (b : BootInfo) : UserPages (Kernel.boot b).paging := by
  refine ⟨.inl (boot_unmapped b (by decide) (by decide)), fun i hi => ?_⟩
  rw [userPdIndex_eq] at hi
  exact boot_unmapped b (by omega) (by omega)

/-- Everything a program start does outside the process view: it fills the page of the process. -/
lemma execute_user_frame (h : UserPages s.paging) {command : Option (List UInt8)} {pid : Int}
    {eip : Nat} (run : s.execute fr command = some (s', .user pid eip)) :
    SameOn Low s.mem s'.mem ∧ s'.fs = s.fs ∧ s'.kbd = s.kbd ∧ s'.screen = s.screen ∧
      s'.sched = s.sched ∧ s'.rtc = s.rtc ∧ UserPages s'.paging ∧
      s'.term = s.term.setTerminal s.term.currentTerminalId
        { s.term.current with currentProcessId := pid } := by
  obtain ⟨line, inode, loaded, -, -, -, -, hp, hl, rfl, -⟩ := execute_user run
  obtain ⟨h0, h6, -⟩ := freePid_spec hp
  have pages : UserPages (s.allocate pid).setUpPaging.paging := by
    apply h.mapUserPage
    · show 2 ≤ (2 + pid).toNat
      omega
    · show (2 + pid).toNat < 8
      omega
  obtain ⟨_, m, hm, rfl⟩ := loadFile_some hl
  have low : SameOn Low s.mem m := pages.storeThrough (by decide) hm
  obtain ⟨pcbs, hs, -⟩ := saveParent_spec
    (({ (s.allocate pid).setUpPaging with mem := m } : Kernel).initializePCB.setArg
      (upToNul (parseCommand (upToNul line)).argCommand)) fr
  rw [Kernel.startProcess, hs]
  exact ⟨low, rfl, rfl, rfl, rfl, rfl, pages, rfl⟩

end Lemmas

end Kernel391
