import Kernel391.Process.Arguments
import Kernel391.Process.Descriptors
import Kernel391.Files.Lookup
import Kernel391.Files.Mapped
import Kernel391.Files.Slice

/-!
# What becomes of a command

`execute` looks its word up, reads the first four bytes of what it finds, takes a process, loads the
file to its page and reads the entry address there. On an image in the kernel's page each of these
steps is worked out here: the lookup from the slot it stops at, the check from the inode, the load
and the entry address from the contents of the file and from what the page held before.
-/

namespace Kernel391
open Base

/-- `EXE_CHECK1` to `EXE_CHECK4`. -/
def exeMagic : List UInt8 := [0x7F, 0x45, 0x4C, 0x46]

/-- The kernel serves the image `m` has at `modStart`; its page is mapped to itself, and nothing is
mapped behind the page of a process. -/
structure ProgramServed (m : Mem) (modStart : Nat) (s : Kernel) : Prop where
  image : WellFormedImage m modStart
  same : SameOn (InImage m modStart) m s.mem
  serves : s.fs.Serves m modStart
  kernel : KernelMapped s.paging
  unmapped : s.paging.DT (userPdIndex + 1) % 2 = 0

/-- What `execute` decides: it does not complete, refuses, or starts a process at an address. -/
def Kernel.outcome (fr : Frame) (s : Kernel) (command : Option (List UInt8)) : Option Control :=
  (s.execute fr command).map Prod.snd

/-- The parser accepts the command line, and the lookup of its first word stops at slot `i`. -/
def Finds (m : Mem) (modStart : Nat) (line : List UInt8) (i : Nat) : Prop :=
  let p := parseCommand (upToNul line)
  ¬ p.overrun ∧ p.complete = true ∧
    lookupSlot m (filesystemInit m modStart) (upToNul p.fileCommand) = some (some i)

/-- The two strings of slot `i` end within a record. -/
def RecordFits (m : Mem) (modStart i : Nat) : Prop :=
  (∃ z < 64, (filesystemInit m modStart).fileName m i z = 0) ∧
    ∃ z < 24, (filesystemInit m modStart).reserved m i z = 0

/-! ## The file -/

section File

variable {m : Mem} {modStart i inode n : Nat} {word line : List UInt8} {s s' : Kernel} {fr : Frame}

/-- Through the page tables the kernel reads the image. -/
lemma ProgramServed.linear (h : ProgramServed m modStart s) :
    SameOn (InImage m modStart) m s.linear := h.image.linear h.same h.kernel

/-- An image is mounted. -/
lemma ProgramServed.boot (h : ProgramServed m modStart s) : s.fs.bootblockHead ≠ 0 := by
  have above := h.image.above
  rw [h.serves.bootblockHead]
  omega

/-- The count of inodes is mapped. -/
lemma ProgramServed.headerMapped (h : ProgramServed m modStart s) :
    s.paging.Mapped (List.range' (s.fs.bootblockHead + 4) 4) := by
  rw [h.serves.bootblockHead]
  exact h.image.mapped h.kernel (h.image.head_range (by omega))

/-- The kernel reads the image's count of inodes. -/
lemma ProgramServed.inodesNum (h : ProgramServed m modStart s) :
    s.fs.inodesNum s.linear = (filesystemInit m modStart).inodesNum m := by
  obtain ⟨e, fs⟩ := h.serves
  rw [fs]
  exact h.image.header_eq h.linear (by omega)

/-- A read from the start of a file. -/
lemma ProgramServed.mappedData (h : ProgramServed m modStart s)
    (hi : inode < (filesystemInit m modStart).inodesNum m) (hn : n < 2 ^ 32) :
    s.mappedData inode 0 n =
      some (((min n ((filesystemInit m modStart).contents m inode).length : Nat) : Int),
        ((filesystemInit m modStart).contents m inode).take n) := by
  have size := h.image.length inode hi
  have boot : (filesystemInit m modStart).bootblockHead ≠ 0 := by
    have above := h.image.above
    show modStart ≠ 0
    omega
  rw [mappedData_image h.image h.same h.serves h.kernel hi (by omega),
    readData_slice boot (Nat.le_of_lt hi) (Nat.zero_le _) (by omega) (by omega), Nat.sub_zero,
    Fs.length_contents, List.take_eq_take_min, Fs.length_contents]
  congr 2
  exact (Fs.slice_contents (p := 0) (by omega)).symm

/-- What the check of a file makes of an inode. -/
def Kernel.checkInode (fr : Frame) (s : Kernel) (inode : Nat) : Option (Option Nat) :=
  (s.mappedData inode 0 4).map fun r =>
    if r.1 = -1 then none else if exeCheck (overlay fr.dataBuf r.2) then some inode else none

/-- The check goes on with the record of the slot the lookup stops at. -/
lemma ProgramServed.checkFile (h : ProgramServed m modStart s)
    (found : lookupSlot m (filesystemInit m modStart) word = some (some i)) :
    s.checkFile fr word = (readDentryByIndex m (filesystemInit m modStart) i).bind fun r =>
      (localDentry fr.dentry r.2).bind fun d => s.checkInode fr (dentryInodeIndex d) := by
  have success : ¬ (0 : Int) = -1 := by decide
  rw [Kernel.checkFile, mappedDentryByName_image h.image h.same h.serves h.kernel,
    readDentryByName, found]
  dsimp only
  cases readDentryByIndex m (filesystemInit m modStart) i with
  | none => rfl
  | some r =>
      rw [Option.map_some]
      dsimp only
      rw [if_neg success, Option.bind_some]
      cases localDentry fr.dentry r.2 with
      | none => rfl
      | some d => rfl

/-- A slot that is copied gives its inode. -/
lemma ProgramServed.checkFile_fits (h : ProgramServed m modStart s)
    (found : lookupSlot m (filesystemInit m modStart) word = some (some i))
    (valid : i ≤ (filesystemInit m modStart).dentryNum m) (fits : RecordFits m modStart i) :
    s.checkFile fr word = s.checkInode fr ((filesystemInit m modStart).inodeIndex m i) := by
  obtain ⟨st, entry, inside⟩ := readDentryByIndex_fits valid fits.1 fits.2
  have record := localDentry_of_fits fr.dentry inside
  rw [h.checkFile found, entry, Option.bind_some, record, Option.bind_some,
    (localDentry_fields entry valid record).2.1]

/-- One that does not fit a record is copied past it. -/
lemma ProgramServed.checkFile_overrun (h : ProgramServed m modStart s)
    (found : lookupSlot m (filesystemInit m modStart) word = some (some i))
    (valid : i ≤ (filesystemInit m modStart).dentryNum m) (fits : ¬ RecordFits m modStart i) :
    s.checkFile fr word = none := by
  rw [h.checkFile found]
  cases entry : readDentryByIndex m (filesystemInit m modStart) i with
  | none => rfl
  | some r =>
      obtain ⟨ret, st⟩ := r
      have outside : localDentry fr.dentry st = none := by
        by_contra inside
        obtain ⟨d, record⟩ := Option.ne_none_iff_exists'.mp inside
        exact fits ((readDentryByIndex_fits_iff valid).mp
          ⟨ret, st, entry, (localDentry_fields entry valid record).2.2⟩)
      rw [Option.bind_some, outside]
      rfl

end File

/-! ## The page -/

section Page

variable {m : Mem} {modStart inode k j va : Nat} {pid : Int} {s : Kernel} {fr : Frame}
variable {bs c : List UInt8} {old : Nat → UInt8}

/-- A store through a pointer that comes to an unmapped address faults. -/
lemma storeThrough_unmapped {pg : Paging} (hj : j < bs.length) (nowrap : va + bs.length < 2 ^ 32)
    (absent : pg.translate (va + j) = none) (m : Mem) : storeThrough pg m va bs = none := by
  induction bs generalizing va j m with
  | nil => cases hj
  | cons b bs ih =>
      rw [List.length_cons] at hj nowrap
      rw [storeThrough]
      cases first : pg.translate va with
      | none => rfl
      | some pa =>
          cases j with
          | zero =>
              rw [Nat.add_zero, first] at absent
              cases absent
          | succ j =>
              have next : add32 va 1 = va + 1 := Nat.mod_eq_of_lt (by omega)
              have place : va + (j + 1) = va + 1 + j := by omega
              rw [place] at absent
              rw [next]
              exact ih (by omega) (by omega) absent _

/-- What a range holds after bytes were stored at its start. -/
lemma store_overlay (m : Mem) (a : Nat) (bs : List UInt8) (k : Nat) :
    m.store a bs (a + k) = overlay (fun k => m (a + k)) bs k := by
  rcases Nat.lt_or_ge k bs.length with inside | beyond
  · rw [Mem.store_at inside, overlay, List.getD_eq_getElem _ _ inside,
      List.getD_eq_getElem _ _ inside]
  · rw [Mem.store_frame (.inr (by omega)), overlay, List.getD_eq_default _ _ beyond]

/-- The bytes of the page of process `pid` from the address programs are loaded at on. -/
def Kernel.programPage (s : Kernel) (pid : Int) : Nat → UInt8 :=
  fun k => s.mem (userFrame (2 + pid).toNat userPaddr + k)

/-- The file is copied to the page, if it ends there. -/
lemma ProgramServed.loadFile (h : ProgramServed m modStart s)
    (hi : inode < (filesystemInit m modStart).inodesNum m) (h0 : 0 ≤ pid) (h6 : pid < 6) :
    let c := (filesystemInit m modStart).contents m inode
    (s.allocate pid).setUpPaging.loadFile inode =
      if userPaddr + c.length ≤ userEnd then some { (s.allocate pid).setUpPaging with
        mem := s.mem.store (userFrame (2 + pid).toNat userPaddr) c } else none := by
  have size := h.image.length inode hi
  have length : ((filesystemInit m modStart).contents m inode).length ≤ 1023 * 4096 := by
    rw [Fs.length_contents]
    exact size
  have mapped : (s.paging.mapUserPage (2 + pid).toNat).DT userPdIndex = userPde (2 + pid).toNat :=
    Paging.mapUserPage_DT ..
  have behind : (s.paging.mapUserPage (2 + pid).toNat).DT (userPdIndex + 1) % 2 = 0 := by
    have ne : userPdIndex + 1 ≠ userPdIndex := by decide
    have other : (s.paging.mapUserPage (2 + pid).toNat).DT (userPdIndex + 1)
        = s.paging.DT (userPdIndex + 1) :=
      Function.update_of_ne ne (userPde (2 + pid).toNat) s.paging.DT
    rw [other]
    exact h.unmapped
  -- the kernel still serves the image when the page of the process is mapped
  have served : ProgramServed m modStart (s.allocate pid).setUpPaging :=
    ⟨h.image, h.same, h.serves, h.kernel.mapUserPage _, behind⟩
  let whole := (filesystemInit m modStart).contents m inode
  have copied : (s.allocate pid).setUpPaging.mappedData inode 0 userStackSize
      = some (((min userStackSize whole.length : Nat) : Int), whole) := by
    rw [served.mappedData hi (by decide), List.take_of_length_le]
    rw [userStackSize]
    omega
  have start : userPaddr = 0x08048000 := rfl
  have stop : userEnd = 0x08400000 := rfl
  have bottom : userMem ≤ userPaddr := by decide
  dsimp only
  rw [Kernel.loadFile, copied]
  show (storeThrough (s.paging.mapUserPage (2 + pid).toNat) s.mem userPaddr
    ((filesystemInit m modStart).contents m inode)).bind _ = _
  split_ifs with room
  · rw [storeThrough_user mapped (by omega) (by omega) bottom room]
    rfl
  · have fault : (s.paging.mapUserPage (2 + pid).toNat).translate
        (userPaddr + (userEnd - userPaddr)) = none := by
      have index : (userPaddr + (userEnd - userPaddr)) / 2 ^ 22 = userPdIndex + 1 := by decide
      rw [Paging.translate, index]
      dsimp only
      rw [if_pos behind]
    rw [storeThrough_unmapped (by omega) (by omega) fault]
    rfl

/-- The start of a process leaves the page that was loaded. -/
lemma startProcess_frame (fr : Frame) (loaded : Kernel) (arg : List UInt8) :
    (loaded.startProcess fr arg).mem = loaded.mem ∧
      (loaded.startProcess fr arg).paging = loaded.paging := by
  obtain ⟨pcbs, hs, -⟩ := saveParent_spec (loaded.initializePCB.setArg arg) fr
  rw [Kernel.startProcess, hs]
  exact ⟨rfl, rfl⟩

/-- The word that is read from the page. -/
lemma loadWord_page (mapped : s.paging.DT userPdIndex = userPde (2 + pid).toNat) (h0 : 0 ≤ pid)
    (h6 : pid < 6) : s.loadWord (userPaddr + 24) = some (Mem.word (s.programPage pid) 24) := by
  have start : userPaddr = 0x08048000 := rfl
  have stop : userEnd = 0x08400000 := rfl
  have bottom : userMem = 0x08000000 := rfl
  have byte (k : Nat) (hk : k < 28) : s.load (userPaddr + k) = some ((s.programPage pid) k) := by
    have place : userFrame (2 + pid).toNat (userPaddr + k)
        = userFrame (2 + pid).toNat userPaddr + k := by
      rw [userFrame, userFrame]
      omega
    rw [load_user mapped (by omega) (by omega) (by omega) (by omega), place]
    rfl
  have own (k : Nat) (hk : k < 28) : Mem.byte (s.programPage pid) k = s.programPage pid k :=
    Mem.byte_of_lt (by omega)
  rw [Kernel.loadWord, byte 24 (by omega), Nat.add_assoc, byte (24 + 1) (by omega), Nat.add_assoc,
    byte (24 + 2) (by omega), Nat.add_assoc, byte (24 + 3) (by omega), Mem.word, own 24 (by omega),
    own (24 + 1) (by omega), own (24 + 2) (by omega), own (24 + 3) (by omega)]
  rfl

end Page

/-! ## The decision -/

section Decision

variable {m : Mem} {modStart inode i : Nat} {s s' : Kernel} {fr fr' : Frame} {line c : List UInt8}
variable {command : Option (List UInt8)} {old : Nat → UInt8}

/-- A null command is refused, if reading at address 0 does not fault. -/
lemma outcome_none : s.outcome fr none
    = if (s.paging.translate 0).isNone then none else some (.ret (-1)) := by
  rw [Kernel.outcome, Kernel.execute]
  split_ifs
  · rfl
  · rw [Option.map_some]

/-- What `execute` does after its check of the file. -/
def Kernel.afterCheck (fr : Frame) (s : Kernel) (line : List UInt8) :
    Option (Option Nat) → Option Control
  | none => none
  | some none => some (.ret (-1))
  | some (some inode) =>
    match s.freePid with
    | none => some (.ret (-1))
    | some pid =>
      ((s.allocate pid).setUpPaging.loadFile inode).bind fun loaded =>
        ((loaded.startProcess fr (upToNul (parseCommand (upToNul line)).argCommand)).loadWord
          (userPaddr + 24)).map (.user pid)

/-- A command line the parser accepts is decided by the check. -/
lemma outcome_checked (fits : ¬ (parseCommand (upToNul line)).overrun)
    (complete : (parseCommand (upToNul line)).complete = true) : s.outcome fr (some line) =
      s.afterCheck fr line
        (s.checkFile fr (upToNul (parseCommand (upToNul line)).fileCommand)) := by
  have parsed : ¬ (parseCommand (upToNul line)).complete = false := by
    rw [complete]
    decide
  rw [Kernel.outcome, Kernel.execute]
  dsimp only
  rw [if_neg fits, if_neg parsed]
  cases s.checkFile fr (upToNul (parseCommand (upToNul line)).fileCommand) with
  | none => rfl
  | some found =>
      cases found with
      | none => rfl
      | some inode =>
          rw [Kernel.afterCheck]
          dsimp only
          cases s.freePid with
          | none => rfl
          | some pid =>
              dsimp only
              cases (s.allocate pid).setUpPaging.loadFile inode with
              | none => rfl
              | some loaded =>
                  show ((loaded.startProcess fr _).loadWord (userPaddr + 24) >>= _).map _ = _
                  rw [Option.bind_some]
                  cases (loaded.startProcess fr
                    (upToNul (parseCommand (upToNul line)).argCommand)).loadWord
                      (userPaddr + 24) with
                  | none => rfl
                  | some eip => rfl

/-- An inode is refused if its first bytes can be read and, unless no process is free, do not pass
the check. -/
lemma afterCheck_refuses_iff :
    s.afterCheck fr line (s.checkInode fr inode) = some (.ret (-1)) ↔
      s.FirstMapped inode ∧ (s.freePid ≠ none → (readData s.linear s.fs inode 0 4).1 = -1 ∨
        ¬ exeCheck (overlay fr.dataBuf (readData s.linear s.fs inode 0 4).2) = true) := by
  rw [Kernel.checkInode, Kernel.mappedData, Kernel.FirstMapped]
  by_cases first : s.paging.Mapped (dataReads s.linear s.fs inode 0 4)
  · rw [if_pos first, and_iff_right first, Option.map_some]
    by_cases refused : (readData s.linear s.fs inode 0 4).1 = -1
    · rw [if_pos refused]
      exact iff_of_true rfl fun _ => .inl refused
    rw [if_neg refused, or_iff_right refused]
    by_cases passes : exeCheck (overlay fr.dataBuf (readData s.linear s.fs inode 0 4).2) = true
    · rw [if_pos passes, Kernel.afterCheck]
      cases free : s.freePid with
      | none => exact iff_of_true rfl fun ne => absurd rfl ne
      | some pid =>
          refine iff_of_false (fun ret => ?_) fun never =>
            never (Option.some_ne_none pid) passes
          -- a load that completes starts the process
          obtain ⟨loaded, -, ret⟩ := Option.bind_eq_some_iff.mp ret
          obtain ⟨eip, -, user⟩ := Option.map_eq_some_iff.mp ret
          cases user
    · rw [if_neg passes]
      exact iff_of_true rfl fun _ => passes
  · rw [if_neg first]
    exact iff_of_false (fun none => by cases none) fun h => first h.1

/-- What becomes of a file of the image. -/
lemma ProgramServed.afterCheck_file (h : ProgramServed m modStart s)
    (hi : inode < (filesystemInit m modStart).inodesNum m) :
    let c := (filesystemInit m modStart).contents m inode
    s.afterCheck fr line (s.checkInode fr inode) =
      if exeCheck (overlay fr.dataBuf (c.take 4)) then
        match s.freePid with
        | none => some (.ret (-1))
        | some pid =>
          if userPaddr + c.length ≤ userEnd then
            some (.user pid (Mem.word (overlay (s.programPage pid) c) 24))
          else none
      else some (.ret (-1)) := by
  dsimp only
  rw [Kernel.checkInode, h.mappedData hi (by decide), Option.map_some, if_neg (by omega)]
  by_cases passes :
      exeCheck (overlay fr.dataBuf (((filesystemInit m modStart).contents m inode).take 4)) = true
  · rw [if_pos passes, if_pos passes, Kernel.afterCheck]
    cases free : s.freePid with
    | none => rfl
    | some pid =>
        obtain ⟨h0, h6, -⟩ := freePid_spec free
        have loaded := h.loadFile hi h0 h6
        dsimp only at loaded ⊢
        rw [loaded]
        split_ifs with room
        · let t : Kernel := { (s.allocate pid).setUpPaging with
            mem := s.mem.store (userFrame (2 + pid).toNat userPaddr)
              ((filesystemInit m modStart).contents m inode) }
          let started := t.startProcess fr (upToNul (parseCommand (upToNul line)).argCommand)
          obtain ⟨mem, paging⟩ := startProcess_frame fr t
            (upToNul (parseCommand (upToNul line)).argCommand)
          have mapped : started.paging.DT userPdIndex = userPde (2 + pid).toNat := by
            rw [paging]
            exact Paging.mapUserPage_DT ..
          have page : started.programPage pid = overlay (s.programPage pid)
              ((filesystemInit m modStart).contents m inode) := by
            funext k
            rw [Kernel.programPage, mem]
            exact store_overlay ..
          have entry := loadWord_page mapped h0 h6
          rw [page] at entry
          show (started.loadWord (userPaddr + 24)).map _ = _
          rw [entry]
          rfl
        · rfl
  · rw [if_neg passes, if_neg passes]
    rfl

/-- A command line that names no file is refused, or makes the parser or the lookup run on, in every
kernel that serves the image. -/
lemma outcome_unnamed (none : ∀ i, ¬ Finds m modStart line i) :
    ∃ o, (∀ pid eip, o ≠ some (.user pid eip)) ∧
      ∀ s fr, ProgramServed m modStart s → s.outcome fr (some line) = o := by
  by_cases fits : (parseCommand (upToNul line)).overrun
  · refine ⟨Option.none, nofun, fun s fr _ => ?_⟩
    rw [Kernel.outcome, Kernel.execute]
    dsimp only
    rw [if_pos fits]
    rfl
  by_cases complete : (parseCommand (upToNul line)).complete = false
  · refine ⟨some (.ret (-1)), nofun, fun s fr _ => ?_⟩
    rw [Kernel.outcome, Kernel.execute]
    dsimp only
    rw [if_neg fits, if_pos complete]
    rfl
  have lookup (s : Kernel) (fr : Frame) (h : ProgramServed m modStart s) :
      s.checkFile fr (upToNul (parseCommand (upToNul line)).fileCommand)
        = if lookupSlot m (filesystemInit m modStart)
            (upToNul (parseCommand (upToNul line)).fileCommand) = Option.none then Option.none
          else some Option.none := by
    rw [Kernel.checkFile, mappedDentryByName_image h.image h.same h.serves h.kernel,
      readDentryByName]
    cases found : lookupSlot m (filesystemInit m modStart)
        (upToNul (parseCommand (upToNul line)).fileCommand) with
    | none => rfl
    | some slot =>
        cases slot with
        | none => rfl
        | some i =>
            exact absurd ⟨fits, Bool.not_eq_false _ ▸ complete, found⟩ (none _)
  by_cases undefined : lookupSlot m (filesystemInit m modStart)
      (upToNul (parseCommand (upToNul line)).fileCommand) = Option.none
  · refine ⟨Option.none, nofun, fun s fr h => ?_⟩
    rw [Kernel.outcome, Kernel.execute]
    dsimp only
    rw [if_neg fits, if_neg complete, lookup s fr h, if_pos undefined]
    rfl
  · refine ⟨some (.ret (-1)), nofun, fun s fr h => ?_⟩
    rw [Kernel.outcome, Kernel.execute]
    dsimp only
    rw [if_neg fits, if_neg complete, lookup s fr h, if_neg undefined]
    rfl

/-- The check of the magic number compares four bytes. -/
lemma exeCheck_iff (d : Nat → UInt8) : exeCheck d = true ↔ ∀ k < 4, d k = exeMagic.getD k 0 := by
  rw [exeCheck]
  simp only [Bool.and_eq_true, beq_iff_eq]
  constructor
  · rintro ⟨⟨⟨h0, h1⟩, h2⟩, h3⟩ k hk
    obtain rfl | rfl | rfl | rfl : k = 0 ∨ k = 1 ∨ k = 2 ∨ k = 3 := by omega
    · exact h0
    · exact h1
    · exact h2
    · exact h3
  · intro all
    exact ⟨⟨⟨all 0 (by omega), all 1 (by omega)⟩, all 2 (by omega)⟩, all 3 (by omega)⟩

/-- The first four bytes of `data_buf`: the file's as far as it has them. -/
lemma overlay_take (old : Nat → UInt8) (c : List UInt8) {k : Nat} (hk : k < 4) :
    overlay old (c.take 4) k = c.getD k (old k) := by
  rw [overlay, List.getD_eq_getElem?_getD, List.getElem?_take_of_lt hk,
    ← List.getD_eq_getElem?_getD]

/-- A file of four bytes passes the check when they are the magic number. -/
lemma exeCheck_full (old : Nat → UInt8) (full : 4 ≤ c.length) :
    exeCheck (overlay old (c.take 4)) = true ↔ c.take 4 = exeMagic := by
  rw [exeCheck_iff]
  have length : (c.take 4).length = exeMagic.length := by
    rw [List.length_take_of_le full]
    rfl
  have byte (k : Nat) (hk : k < 4) : overlay old (c.take 4) k = (c.take 4).getD k 0 := by
    rw [overlay, List.getD_eq_getElem _ _ (by rw [length]; exact hk),
      List.getD_eq_getElem _ _ (by rw [length]; exact hk)]
  constructor
  · intro all
    apply List.ext_getElem length
    intro k hk hk'
    rw [← List.getD_eq_getElem _ 0 hk, ← List.getD_eq_getElem _ 0 hk', ← byte k hk']
    exact all k hk'
  · intro e k hk
    rw [byte k hk, e]

/-- A file with a byte that is not the magic number's does not pass. -/
lemma exeCheck_differs (old : Nat → UInt8) {k : Nat} (hk : k < 4) (inside : k < c.length)
    (differs : c.getD k 0 ≠ exeMagic.getD k 0) : ¬ exeCheck (overlay old (c.take 4)) = true := by
  intro passes
  have byte := (exeCheck_iff _).mp passes k hk
  rw [overlay_take old c hk, List.getD_eq_getElem _ _ inside,
      ← List.getD_eq_getElem _ 0 inside] at byte
  exact differs byte

/-- With 28 bytes loaded, the entry address is the file's. -/
lemma word_loaded (page : Nat → UInt8) (long : 28 ≤ c.length) :
    Mem.word (overlay page c) 24 = Mem.word (fun k => c.getD k 0) 24 := by
  apply Mem.word_congr
  intro k hk
  rw [Mem.byte_of_lt (by omega), Mem.byte_of_lt (by omega), overlay,
    List.getD_eq_getElem _ _ (by omega), List.getD_eq_getElem _ _ (by omega)]

/-- With fewer, its high byte is the page's. -/
lemma word_leftover {page page' : Nat → UInt8} (short : c.length < 28)
    (word : Mem.word (overlay page c) 24 = Mem.word (overlay page' c) 24) : page 27 = page' 27 := by
  have bytes := congrArg wordBytes word
  rw [wordBytes_word, wordBytes_word] at bytes
  simp only [List.cons.injEq] at bytes
  have last := bytes.2.2.2.1
  have behind (old : Nat → UInt8) : Mem.byte (overlay old c) (24 + 3) = old 27 := by
    rw [Mem.byte_of_lt (by omega), overlay, List.getD_eq_default _ _ (by omega)]
  rw [behind, behind] at last
  exact last

/-- A slot that fits a record is decided by the check of its inode. -/
lemma ProgramServed.outcome_fits (h : ProgramServed m modStart s)
    (finds : Finds m modStart line i) (valid : i ≤ (filesystemInit m modStart).dentryNum m)
    (fits : RecordFits m modStart i) : s.outcome fr (some line) = s.afterCheck fr line
      (s.checkInode fr ((filesystemInit m modStart).inodeIndex m i)) := by
  obtain ⟨parsed, complete, found⟩ := finds
  rw [outcome_checked parsed complete, h.checkFile_fits found valid fits]

/-- A record that does not fit has no outcome. -/
lemma ProgramServed.outcome_overrun (h : ProgramServed m modStart s)
    (finds : Finds m modStart line i) (valid : i ≤ (filesystemInit m modStart).dentryNum m)
    (fits : ¬ RecordFits m modStart i) : s.outcome fr (some line) = none := by
  obtain ⟨parsed, complete, found⟩ := finds
  rw [outcome_checked parsed complete, h.checkFile_overrun found valid fits]
  rfl

/-- A file is started only if it passed the check and a process is free. -/
lemma ProgramServed.started (h : ProgramServed m modStart s)
    (hi : inode < (filesystemInit m modStart).inodesNum m) {pid : Int} {eip : Nat}
    (start : s.afterCheck fr line (s.checkInode fr inode) = some (.user pid eip)) :
    let c := (filesystemInit m modStart).contents m inode
    s.freePid ≠ none ∧ exeCheck (overlay fr.dataBuf (c.take 4)) = true ∧
      eip = Mem.word (overlay (s.programPage pid) c) 24 := by
  rw [h.afterCheck_file hi] at start
  by_cases passes : exeCheck (overlay fr.dataBuf
      (((filesystemInit m modStart).contents m inode).take 4)) = true
  · rw [if_pos passes] at start
    cases free : s.freePid with
    | none =>
        rw [free] at start
        cases start
    | some p =>
        rw [free] at start
        dsimp only at start
        split_ifs at start
        obtain ⟨rfl, rfl⟩ := Control.user.inj (Option.some.inj start)
        exact ⟨Option.some_ne_none _, passes, rfl⟩
  · rw [if_neg passes] at start
    cases start

end Decision

end Kernel391
