import Kernel391.Process.Checking

/-!
# Starting a program

`execute` reads the first four bytes of a file to a local buffer it does not clear, takes a read of
fewer bytes for a success, and reads the entry address from the page it loaded the file to. So
whether a program starts, and where, is up to its file alone exactly when the file has 28 bytes or
when one of its first four already gives it away. An entry that is no file may have any inode
number: where there is no such index node, `read_data` takes other memory for one, and the launch is
refused for certain only if the bytes it finds there refuse it.
-/

namespace Kernel391
open Base

/-- A physical address in the page of the process `execute` would start. -/
def Kernel.InTarget (s : Kernel) (pa : Nat) : Prop :=
  ∃ pid, s.freePid = some pid ∧ pa / 2 ^ 22 = (2 + pid).toNat

/-- A second kernel with the same image, processes, terminals and page tables. The page of the
process that would be started is arbitrary, and the locals of the two calls differ anyway. -/
structure Agree (s s' : Kernel) : Prop where
  mem : SameOn (fun pa => ¬ s.InTarget pa) s.mem s'.mem
  fs : s'.fs = s.fs
  proc : s'.proc = s.proc
  term : s'.term = s.term
  paging : s'.paging = s.paging

/-- Slot `i` has a file, and the file begins with the magic number. -/
def BeginsExe (m : Mem) (modStart i : Nat) : Prop :=
  let inode := (filesystemInit m modStart).inodeIndex m i
  inode < (filesystemInit m modStart).inodesNum m ∧
    ((filesystemInit m modStart).contents m inode).take 4 = exeMagic

/-- A file that tells by itself whether it is started: it has 28 bytes, or one of its first four is
not the magic number's. -/
def Telling (c : List UInt8) : Prop :=
  28 ≤ c.length ∨ ∃ k < 4, k < c.length ∧ c.getD k 0 ≠ exeMagic.getD k 0

namespace Kernel

/-- The kernel reads byte `b` through a pointer, and not from the page of the process that would be
started. -/
def Pinned (s : Kernel) (va : Nat) (b : UInt8) : Prop :=
  ∃ pa, s.paging.translate (va % 2 ^ 32) = some pa ∧ ¬ s.InTarget pa ∧ s.mem pa = b

/-- An inode number from the number of index nodes on is refused, whatever the page of the process
holds. What `read_data` takes for its index node is mapped; and if there is a process to start, the
number is too large and the length found there certainly not 0, or it is the first one too large and
one of the first four bytes found by the node is certainly not the magic number's. -/
def Refusable (s : Kernel) (inode : Nat) : Prop :=
  s.FirstMapped inode ∧ (s.freePid ≠ none →
    (s.fs.inodesNum s.linear < inode ∧
      ∃ k < 4, ∃ b ≠ 0, s.Pinned (s.fs.indexnodeHead + 4096 * inode + k) b) ∨
    (inode = s.fs.inodesNum s.linear ∧ ∃ k < 4, k < s.fs.fileLength s.linear inode ∧
      ∃ b ≠ exeMagic.getD k 0, s.Pinned (s.fs.datablock (s.fs.dataBlocks s.linear inode 0) + k) b))

end Kernel

/-- The slot that is found is an entry or the first one behind. If it does not fit a record, its
file at least begins with the magic number. If it fits: its file, should there be a process to
start, tells by itself whether it is started; and if it has no file, its inode number is refused. -/
def Determined (m : Mem) (modStart : Nat) (s : Kernel) (command : Option (List UInt8)) : Prop :=
  ∀ line i, command = some line → Finds m modStart line i →
    let inode := (filesystemInit m modStart).inodeIndex m i
    i ≤ (filesystemInit m modStart).dentryNum m ∧
    (¬ RecordFits m modStart i → BeginsExe m modStart i) ∧
    (RecordFits m modStart i →
      if inode < (filesystemInit m modStart).inodesNum m then
        s.freePid ≠ none → Telling ((filesystemInit m modStart).contents m inode)
      else s.Refusable inode)

section Launch

variable {m : Mem} {modStart inode i : Nat} {s s' : Kernel} {fr fr' : Frame} {line c : List UInt8}
variable {command : Option (List UInt8)}

/-! ### Kernels that agree -/

/-- The image is not in the page of a process. -/
lemma notInTarget (s : Kernel) {a : Nat} (high : a < 0x00800000) : ¬ s.InTarget a := by
  rintro ⟨pid, free, page⟩
  obtain ⟨h0, -, -⟩ := freePid_spec free
  omega

/-- A kernel that agrees serves the image, too. -/
lemma ProgramServed.agree (h : ProgramServed m modStart s) (agree : Agree s s') :
    ProgramServed m modStart s' where
  image := h.image
  same := h.same.trans (agree.mem.mono fun _ ha => notInTarget s (h.image.lt ha).2)
  serves := agree.fs ▸ h.serves
  kernel := agree.paging ▸ h.kernel
  unmapped := agree.paging ▸ h.unmapped

/-- A kernel agrees with itself. -/
lemma Agree.refl (s : Kernel) : Agree s s := ⟨.refl, rfl, rfl, rfl, rfl⟩

/-- Kernels that agree take the same slot. -/
lemma Agree.freePid (h : Agree s s') : s'.freePid = s.freePid := by
  rw [Kernel.freePid, Kernel.freePid, h.proc]

/-! ### Inode numbers without an index node -/

/-- A pinned byte is what a kernel that agrees reads. -/
lemma Agree.pinned (agree : Agree s s') {va : Nat} {b : UInt8} (pinned : s.Pinned va b) :
    s'.linear.byte va = b := by
  obtain ⟨pa, walk, outside, byte⟩ := pinned
  rw [Mem.byte, Kernel.linear, Kernel.load, agree.paging, walk]
  exact (agree.mem pa outside).trans byte

/-- A kernel pointer reads the same. -/
lemma Agree.linear (agree : Agree s s') (kernel : KernelMapped s.paging) {a : Nat}
    (low : 0x00400000 ≤ a) (high : a < 0x00800000) : s'.linear.byte a = s.linear.byte a := by
  have kernel' : KernelMapped s'.paging := agree.paging ▸ kernel
  rw [Mem.byte_of_lt (by omega), Mem.byte_of_lt (by omega), kernel.linear low high,
    kernel'.linear low high]
  exact agree.mem a (notInTarget s high)

/-- The first number without an index node leads to the first data block, or to what follows the
image: in any case to the kernel's page. -/
lemma ProgramServed.nextNode (h : ProgramServed m modStart s) (agree : Agree s s')
    (next : inode = s.fs.inodesNum s.linear) :
    s'.fs.fileLength s'.linear inode = s.fs.fileLength s.linear inode ∧
      s'.fs.dataBlocks s'.linear inode 0 = s.fs.dataBlocks s.linear inode 0 := by
  have head := h.serves.indexnodeHead
  have number : inode = m.word (modStart + 4) := next.trans h.inodesNum
  have above := h.image.above
  have below := h.image.below
  rw [imageSize] at below
  have byte (k : Nat) (hk : k < 8) : s'.linear.byte (s.fs.indexnodeHead + 4096 * inode + k)
      = s.linear.byte (s.fs.indexnodeHead + 4096 * inode + k) :=
    agree.linear h.kernel (by omega) (by omega)
  rw [agree.fs]
  constructor
  · exact Mem.word_congr fun k hk => byte k (by omega)
  · apply Mem.word_congr
    intro k hk
    have place : s.fs.indexnodeHead + 4096 * inode + 4 + 4 * 0 + k
        = s.fs.indexnodeHead + 4096 * inode + (4 + k) := by omega
    rw [place]
    exact byte (4 + k) (by omega)

/-- Whether the first bytes of an inode that does not exist can be read is up to the page tables and
the kernel's page. -/
lemma ProgramServed.firstMapped (h : ProgramServed m modStart s) (agree : Agree s s')
    (none : (filesystemInit m modStart).inodesNum m ≤ inode) (first : s.FirstMapped inode) :
    s'.FirstMapped inode := by
  have h' := h.agree agree
  rcases Nat.eq_or_lt_of_le none with last | larger
  · have next : inode = s.fs.inodesNum s.linear := last.symm.trans h.inodesNum.symm
    obtain ⟨length, number⟩ := h.nextNode agree next
    rw [agree.fs] at length number
    rw [Kernel.FirstMapped, dataReads_first h.boot, h.inodesNum] at first
    rw [Kernel.FirstMapped, dataReads_first h'.boot, h'.inodesNum, agree.fs, agree.paging, length,
      number]
    exact first
  · have node := firstMapped_node h.boot first
    rw [← agree.fs, ← agree.paging] at node
    exact firstMapped_over h'.boot (h'.inodesNum.symm ▸ larger) node h'.headerMapped

/-- The condition keeps the check of an inode that does not exist from passing. -/
lemma ProgramServed.refused (h : ProgramServed m modStart s) (agree : Agree s s')
    (none : (filesystemInit m modStart).inodesNum m ≤ inode) (refusable : s.Refusable inode) :
    s'.afterCheck fr line (s'.checkInode fr inode) = some (.ret (-1)) := by
  have h' := h.agree agree
  obtain ⟨first, pinned⟩ := refusable
  refine afterCheck_refuses_iff.mpr ⟨h.firstMapped agree none first, fun free => ?_⟩
  rw [agree.freePid] at free
  rcases pinned free with ⟨larger, k, hk, b, nonzero, pin⟩ | ⟨next, k, hk, inside, b, differs, pin⟩
  · have length : s'.fs.fileLength s'.linear inode ≠ 0 := by
      intro empty
      have zero := Mem.word_eq_zero.mp empty k hk
      rw [agree.fs, agree.pinned pin] at zero
      exact nonzero zero
    rw [h.inodesNum] at larger
    rw [readData_over h'.boot (h'.inodesNum.symm ▸ larger), if_neg length]
    exact .inl rfl
  · obtain ⟨length, number⟩ := h.nextNode agree next
    have valid : inode ≤ s'.fs.inodesNum s'.linear := by
      rw [h'.inodesNum, ← h.inodesNum]
      exact Nat.le_of_eq next
    refine .inr fun passes => ?_
    have byte := (exeCheck_iff _).mp passes k hk
    have here : k < min 4 (s'.fs.fileLength s'.linear inode) := by omega
    rw [readData_first h'.boot valid, overlay, Mem.getD_fetch here, number, agree.fs,
      agree.pinned pin] at byte
    exact differs byte

/-- Translation keeps the last twelve bits. -/
lemma translate_offset {pg : Paging} {a pa : Nat} (walk : pg.translate a = some pa) :
    pa % 4096 = a % 4096 := by
  rw [Paging.translate] at walk
  dsimp only at walk
  split_ifs at walk
  all_goals
    cases walk
    omega

/-- The kernel with other bytes in the page of the process that would be started. -/
def Kernel.filled (s : Kernel) (pid : Int) (fill : Nat → UInt8) : Kernel :=
  { s with mem := fun pa =>
      if pa / 2 ^ 22 = (2 + pid).toNat then fill (pa % 4096) else s.mem pa }

/-- Other bytes in the target page leave the kernels in agreement. -/
lemma agree_filled {pid : Int} (free : s.freePid = some pid) (fill : Nat → UInt8) :
    Agree s (s.filled pid fill) where
  mem := fun _ outside => if_neg fun page => outside ⟨pid, free, page⟩
  fs := rfl
  proc := rfl
  term := rfl
  paging := rfl

/-- A byte that nothing else pins can be any. -/
lemma byte_filled {pid : Int} (free : s.freePid = some pid) (fill : Nat → UInt8) {va : Nat}
    (mapped : (s.paging.translate (va % 2 ^ 32)).isSome)
    (unpinned : ∀ b ≠ fill (va % 4096), ¬ s.Pinned va b) :
    (s.filled pid fill).linear.byte va = fill (va % 4096) := by
  obtain ⟨pa, walk⟩ := Option.isSome_iff_exists.mp mapped
  have offset := translate_offset walk
  have low : va % 2 ^ 32 % 4096 = va % 4096 := by omega
  rw [low] at offset
  have read : (s.filled pid fill).linear.byte va = (s.filled pid fill).mem pa := by
    have walk' : (s.filled pid fill).paging.translate (va % 2 ^ 32) = some pa := walk
    rw [Mem.byte, Kernel.linear, Kernel.load, walk']
    rfl
  rw [read]
  show (if pa / 2 ^ 22 = (2 + pid).toNat then fill (pa % 4096) else s.mem pa) = _
  split_ifs with page
  · rw [offset]
  · by_contra differs
    refine unpinned (s.mem pa) differs ⟨pa, walk, ?_, rfl⟩
    rintro ⟨pid', free', page'⟩
    rw [free] at free'
    cases free'
    exact page page'

/-- A frame whose `data_buf` still holds the magic number. -/
def staleFrame : Frame := { sampleFrame with dataBuf := fun k => exeMagic.getD k 0 }

/-- The kernel refuses the inode, and so does every kernel that agrees. -/
def Kernel.Refuses (s : Kernel) (line : List UInt8) (inode : Nat) : Prop :=
  ∀ s', Agree s s' →
    s'.afterCheck staleFrame line (s'.checkInode staleFrame inode) = some (.ret (-1))

/-- A kernel that agrees and has a process to start refuses what `read_data` finds there. -/
lemma Kernel.Refuses.decided (refuses : s.Refuses line inode) (agree : Agree s s') {pid : Int}
    (free : s.freePid = some pid) :
    (readData s'.linear s'.fs inode 0 4).1 = -1 ∨
      ¬ exeCheck (overlay staleFrame.dataBuf (readData s'.linear s'.fs inode 0 4).2) := by
  refine (afterCheck_refuses_iff.mp (refuses s' agree)).2 ?_
  rw [agree.freePid, free]
  exact Option.some_ne_none pid

/-- A number that is too large is refused only if the length found for it is certainly not 0. -/
lemma ProgramServed.pinned_length (h : ProgramServed m modStart s) {pid : Int}
    (free : s.freePid = some pid) (larger : (filesystemInit m modStart).inodesNum m < inode)
    (refuses : s.Refuses line inode) :
    ∃ k < 4, ∃ b ≠ 0, s.Pinned (s.fs.indexnodeHead + 4096 * inode + k) b := by
  by_contra loose
  have agree := agree_filled free fun _ => 0
  have h' := h.agree agree
  have node := firstMapped_node h.boot (afterCheck_refuses_iff.mp (refuses s (.refl s))).1
  have empty : (s.filled pid fun _ => 0).fs.fileLength (s.filled pid fun _ => 0).linear inode
      = 0 := by
    refine Mem.word_eq_zero.mpr fun k hk => ?_
    have mapped := Paging.mapped_range.mp node k hk
    exact byte_filled free (fun _ => 0) mapped fun b nonzero pin => loose ⟨k, hk, b, nonzero, pin⟩
  have decided := refuses.decided agree free
  rw [readData_over h'.boot (h'.inodesNum.symm ▸ larger), if_pos empty] at decided
  rcases decided with minus | fails
  · cases minus
  · exact fails (by decide)

/-- The first number without an index node is refused only if one of the bytes found for it is
certainly not the magic number's. -/
lemma ProgramServed.pinned_byte (h : ProgramServed m modStart s) {pid : Int}
    (free : s.freePid = some pid) (next : inode = s.fs.inodesNum s.linear)
    (refuses : s.Refuses line inode) :
    ∃ k < 4, k < s.fs.fileLength s.linear inode ∧ ∃ b ≠ exeMagic.getD k 0,
      s.Pinned (s.fs.datablock (s.fs.dataBlocks s.linear inode 0) + k) b := by
  by_contra loose
  have first := (afterCheck_refuses_iff.mp (refuses s (.refl s))).1
  rw [Kernel.FirstMapped, dataReads_first h.boot] at first
  generalize hD : s.fs.datablock (s.fs.dataBlocks s.linear inode 0) = D at first loose
  generalize hL : s.fs.fileLength s.linear inode = L at first loose
  -- the first four bytes are the magic number as far as they are read
  let fill : Nat → UInt8 := fun o => exeMagic.getD ((o + 4096 - D % 4096) % 4096) 0
  have filled (k : Nat) (hk : k < 4) : fill ((D + k) % 4096) = exeMagic.getD k 0 := by
    have place : ((D + k) % 4096 + 4096 - D % 4096) % 4096 = k := by omega
    show exeMagic.getD (((D + k) % 4096 + 4096 - D % 4096) % 4096) 0 = _
    rw [place]
  have byte (k : Nat) (hk : k < 4) (inside : k < L) :
      (s.filled pid fill).linear.byte (D + k) = exeMagic.getD k 0 := by
    have mapped : (s.paging.translate ((D + k) % 2 ^ 32)).isSome := by
      rw [if_neg (by omega), if_neg (by omega)] at first
      exact Paging.mapped_range.mp (Paging.mapped_append.mp first).2 k (by omega)
    rw [← filled k hk]
    refine byte_filled free fill mapped fun b differs pin => loose ⟨k, hk, inside, b, ?_, pin⟩
    rw [← filled k hk]
    exact differs
  have agree := agree_filled free fill
  have h' := h.agree agree
  obtain ⟨length, number⟩ := h.nextNode agree next
  have valid : inode ≤ (s.filled pid fill).fs.inodesNum (s.filled pid fill).linear := by
    rw [h'.inodesNum, ← h.inodesNum]
    exact Nat.le_of_eq next
  have block : (s.filled pid fill).fs.datablock
      ((s.filled pid fill).fs.dataBlocks (s.filled pid fill).linear inode 0) = D := by
    rw [number, agree.fs]
    exact hD
  have decided := refuses.decided agree free
  rw [readData_first h'.boot valid, block, length.trans hL] at decided
  rcases decided with minus | fails
  · omega
  · apply fails
    rw [exeCheck_iff]
    intro k hk
    rcases Nat.lt_or_ge k (min 4 L) with inside | beyond
    · rw [overlay, Mem.getD_fetch inside]
      exact byte k hk (by omega)
    · have behind : ((s.filled pid fill).linear.fetch D (min 4 L)).length ≤ k := by
        rw [Mem.length_fetch]
        exact beyond
      rw [overlay, List.getD_eq_default _ _ behind]
      rfl

/-- An inode that does not exist is refused in every kernel that agrees only if the condition
holds. -/
lemma ProgramServed.refusable (h : ProgramServed m modStart s)
    (none : (filesystemInit m modStart).inodesNum m ≤ inode) (refuses : s.Refuses line inode) :
    s.Refusable inode := by
  refine ⟨(afterCheck_refuses_iff.mp (refuses s (.refl s))).1, fun free => ?_⟩
  obtain ⟨pid, free⟩ := Option.ne_none_iff_exists'.mp free
  rcases Nat.eq_or_lt_of_le none with last | larger
  · have next : inode = s.fs.inodesNum s.linear := last.symm.trans h.inodesNum.symm
    exact .inr ⟨next, h.pinned_byte free next refuses⟩
  · exact .inl ⟨h.inodesNum.symm ▸ larger, h.pinned_length free larger refuses⟩

/-! ### The condition is enough -/

/-- A telling file is decided alike everywhere. -/
lemma telling_same (h : ProgramServed m modStart s) (agree : Agree s s')
    (hi : inode < (filesystemInit m modStart).inodesNum m)
    (telling : s.freePid ≠ none → Telling ((filesystemInit m modStart).contents m inode)) :
    s.afterCheck fr line (s.checkInode fr inode)
      = s'.afterCheck fr' line (s'.checkInode fr' inode) := by
  rw [h.afterCheck_file hi, (h.agree agree).afterCheck_file hi, agree.freePid]
  cases free : s.freePid with
  | none =>
      dsimp only
      rw [ite_self, ite_self]
  | some pid =>
      rcases telling (by rw [free]; exact Option.some_ne_none _) with
        long | ⟨k, hk, inside, differs⟩
      · have full := Nat.le_trans (show 4 ≤ 28 by decide) long
        have check :=
          (exeCheck_full fr.dataBuf full).trans (exeCheck_full fr'.dataBuf full).symm
        dsimp only
        rw [word_loaded _ long, word_loaded _ long, Bool.eq_iff_iff.mpr check]
      · rw [if_neg (exeCheck_differs fr.dataBuf hk inside differs),
          if_neg (exeCheck_differs fr'.dataBuf hk inside differs)]

/-- Kernels that agree decide alike. -/
lemma Determined.same (h : ProgramServed m modStart s) (det : Determined m modStart s command)
    (agree : Agree s s') : s.outcome fr command = s'.outcome fr' command := by
  have h' := h.agree agree
  cases command with
  | none => rw [outcome_none, outcome_none, agree.paging]
  | some line =>
      by_cases named : ∃ i, Finds m modStart line i
      · obtain ⟨i, finds⟩ := named
        obtain ⟨valid, -, record⟩ := det line i rfl finds
        by_cases fits : RecordFits m modStart i
        · have condition := record fits
          rw [h.outcome_fits finds valid fits, h'.outcome_fits finds valid fits]
          split_ifs at condition with counted
          · exact telling_same h agree counted condition
          · have none := Nat.le_of_not_lt counted
            rw [h.refused (.refl s) none condition, h.refused agree none condition]
        · rw [h.outcome_overrun finds valid fits, h'.outcome_overrun finds valid fits]
      · obtain ⟨o, -, all⟩ := outcome_unnamed (not_exists.mp named)
        rw [all s fr h, all s' fr' h']

/-- What does not begin with the magic number is refused. -/
lemma Determined.refuses (h : ProgramServed m modStart s)
    (det : Determined m modStart s (some line)) (finds : Finds m modStart line i)
    (begins : ¬ BeginsExe m modStart i) : s.outcome fr (some line) = some (.ret (-1)) := by
  obtain ⟨valid, overrun, record⟩ := det line i rfl finds
  have fits : RecordFits m modStart i := not_imp_comm.mp overrun begins
  have condition := record fits
  rw [h.outcome_fits finds valid fits]
  split_ifs at condition with counted
  · rw [h.afterCheck_file counted]
    by_cases passes : exeCheck (overlay fr.dataBuf (((filesystemInit m modStart).contents m
        ((filesystemInit m modStart).inodeIndex m i)).take 4)) = true
    · rw [if_pos passes]
      cases free : s.freePid with
      | none => rfl
      | some pid =>
          -- it passes, so it is long enough, and then it does begin with the magic number
          rcases condition (by rw [free]; exact Option.some_ne_none _) with
            long | ⟨k, hk, inside, differs⟩
          · have full := Nat.le_trans (show 4 ≤ 28 by decide) long
            exact absurd ⟨counted, (exeCheck_full fr.dataBuf full).mp passes⟩ begins
          · exact absurd passes (exeCheck_differs fr.dataBuf hk inside differs)
    · rw [if_neg passes]
  · exact h.refused (.refl s) (Nat.le_of_not_lt counted) condition

/-- A file passes the check on a `data_buf` that still holds the magic number, unless it gives
itself away. -/
lemma exeCheck_leftover
    (begins : ¬ ∃ k < 4, k < c.length ∧ c.getD k 0 ≠ exeMagic.getD k 0) :
    exeCheck (overlay staleFrame.dataBuf (c.take 4)) = true := by
  rw [exeCheck_iff]
  intro k hk
  rw [overlay_take _ c hk]
  rcases Nat.lt_or_ge k c.length with inside | beyond
  · rw [List.getD_eq_getElem _ _ inside, ← List.getD_eq_getElem _ 0 inside]
    by_contra differs
    exact begins ⟨k, hk, inside, differs⟩
  · rw [List.getD_eq_default _ _ beyond]
    rfl

/-- A short file that does not give itself away starts when the leftover bytes of `data_buf`
complete it, at an address whose high byte is a leftover of the page. -/
lemma ProgramServed.telling (h : ProgramServed m modStart s) (line : List UInt8)
    (hi : inode < (filesystemInit m modStart).inodesNum m)
    (same : ∀ s', Agree s s' → s.afterCheck staleFrame line (s.checkInode staleFrame inode)
      = s'.afterCheck staleFrame line (s'.checkInode staleFrame inode))
    (free : s.freePid ≠ none) : Telling ((filesystemInit m modStart).contents m inode) := by
  obtain ⟨pid, free⟩ := Option.ne_none_iff_exists'.mp free
  obtain ⟨h0, h6, -⟩ := freePid_spec free
  generalize hc : (filesystemInit m modStart).contents m inode = c
  by_contra short
  obtain ⟨short, begins⟩ := not_or.mp short
  have passes := exeCheck_leftover begins
  have start : userPaddr = 0x08048000 := rfl
  have stop : userEnd = 0x08400000 := rfl
  have room : userPaddr + c.length ≤ userEnd := by omega
  -- byte 27 of the page is 0 in one kernel and 1 in another
  have entry (v : UInt8) : (s.filled pid fun _ => v).programPage pid 27 = v := by
    have page : (userFrame (2 + pid).toNat userPaddr + 27) / 2 ^ 22 = (2 + pid).toNat := by
      have bottom : userMem = 0x08000000 := rfl
      rw [userFrame]
      omega
    exact if_pos page
  have outcome (v : UInt8) : (s.filled pid fun _ => v).afterCheck staleFrame line
      ((s.filled pid fun _ => v).checkInode staleFrame inode)
      = some (.user pid (Mem.word (overlay ((s.filled pid fun _ => v).programPage pid) c) 24)) := by
    have agree := agree_filled free fun _ => v
    rw [(h.agree agree).afterCheck_file hi, agree.freePid, free, hc]
    dsimp only
    rw [if_pos passes, if_pos room]
  have both := (same _ (agree_filled free fun _ => 0)).symm.trans
    (same _ (agree_filled free fun _ => 1))
  rw [outcome, outcome] at both
  have word := (Control.user.inj (Option.some.inj both)).2
  have leftover := word_leftover (Nat.lt_of_not_le short) word
  rw [entry, entry] at leftover
  exact absurd leftover (by decide)

end Launch

end Kernel391
