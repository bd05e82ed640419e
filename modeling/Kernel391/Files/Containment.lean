import Kernel391.Files.Contents
import Kernel391.Process.System
import Kernel391.Process.UserPages

/-!
# User buffers

`read` and `getargs` compare the two ends of a user buffer as signed integers, and then use the
length as an unsigned one. `Contained` is what the check is for. It holds exactly when the call is
refused before it comes to a file operation, when the length is not negative and the end of the
buffer does not wrap, or when the length is negative and there is nothing to store. A read that
`read_data` refuses returns -1 as well, but it has moved the position of the descriptor.
-/

namespace Kernel391
open Base

/-- The call returned -1 and left the kernel and all memory as they were: no byte is stored, and the
state after, descriptors included, is the one before. -/
def Refused (s : Kernel) (r : ReadResult) : Prop := r.ret = -1 ∧ r.bytes = [] ∧ r.after = s

/-- The call was refused, or the buffer lies in user memory and every byte stored lies in the
buffer. -/
def Contained (s : Kernel) (buf n : BitVec 32) (r : ReadResult) : Prop :=
  Refused s r ∨
  (∀ a : Int, buf.toNat ≤ a → a < buf.toNat + n.toInt → userMem ≤ a ∧ a ≤ userEnd) ∧
    ∀ k < r.bytes.length, buf.toNat ≤ add32 buf.toNat k ∧ add32 buf.toNat k < buf.toNat + n.toInt

/-- The length is one, and the buffer ends where the check thinks it does. -/
def Honest (buf n : BitVec 32) : Prop := 0 ≤ n.toInt ∧ buf.toNat + n.toInt < 2 ^ 31

/-- Descriptor `fd` is on the rtc, the directory or a file of at most 1023 blocks, as all files of a
well-formed image are. -/
structure OnFiles (s : Kernel) (fd : Nat) : Prop where
  boot : s.fs.bootblockHead ≠ 0
  device : (s.proc.fd fd).fileotPointer ≤ 2
  small : (s.proc.fd fd).fileotPointer = 2 →
    s.fs.fileLength s.mem (s.proc.fd (s.readFd fd)).inode ≤ 1023 * 4096

namespace Kernel

/-- Whatever the length, a read of descriptor `fd` finds nothing to store: the rtc, a directory slot
without a name or of no known type, a position at or behind the end of the file. -/
def NothingToStore (s : Kernel) (fd : Nat) : Prop :=
  let e := s.proc.fd (s.readFd fd)
  match (s.proc.fd fd).fileotPointer with
  | 1 => s.fs.fileType s.mem e.position > 2 ∨ s.fs.fileName s.mem e.position 0 = 0
  | 2 => s.fs.inodesNum s.mem < e.inode ∨ s.fs.fileLength s.mem e.inode ≤ e.position
  | _ => True

/-- The condition under which `read` keeps to the user's buffer. -/
def ReadKeeps (s : Kernel) (fd buf n : BitVec 32) : Prop :=
  ¬ userBuffer buf n ∨ (fd.toNat ≥ 7 ∨ fd.toNat = 1) ∨ (s.proc.fd fd.toNat).flags = 0 ∨
  Honest buf n ∨ n.toInt < 0 ∧ s.NothingToStore fd.toNat

/-- The condition under which `getargs` keeps to the user's buffer. -/
def GetargsKeeps (s : Kernel) (buf n : BitVec 32) : Prop :=
  ¬ userBuffer buf n ∨ (s.proc.pcb s.proc.curProcessPtr).arg 0 = 10 ∨ Honest buf n

end Kernel

/-! ## The check -/

section Check

variable {s : Kernel} {buf n : BitVec 32} {r : ReadResult}

/-- With an honest length the check compares the real end of the buffer. -/
lemma userBuffer_end (h : userBuffer buf n) (honest : Honest buf n) :
    buf.toNat + n.toInt ≤ userEnd := by
  have start := userBuffer_start h
  have stop := h.2
  obtain ⟨nonneg, below⟩ := honest
  have sum := BitVec.toInt_add buf n
  have sign := BitVec.toInt_eq_toNat_cond buf
  rw [if_pos (by omega)] at sign
  rw [sign, Int.bmod_eq_of_le (by omega) (by omega)] at sum
  omega

/-- A length that is not negative is its own unsigned value. -/
lemma toNat_of_nonneg (h : 0 ≤ n.toInt) : (n.toNat : Int) = n.toInt := by
  have sign := BitVec.toInt_eq_toNat_cond n
  have lt := n.isLt
  split_ifs at sign <;> omega

/-- A negative length is a large unsigned one. -/
lemma toNat_of_neg (h : n.toInt < 0) : 2 ^ 31 ≤ n.toNat := by
  have sign := BitVec.toInt_eq_toNat_cond n
  split_ifs at sign <;> omega

/-- A refusal is contained. -/
lemma contained_refused (s : Kernel) (buf n : BitVec 32) : Contained s buf n ⟨-1, [], s⟩ :=
  .inl ⟨rfl, rfl, rfl⟩

/-- An honest length, and no more bytes than it says. -/
lemma contained_of_honest (h : userBuffer buf n) (honest : Honest buf n)
    (length : r.bytes.length ≤ n.toNat) : Contained s buf n r := by
  have start := (userBuffer_start h).1
  have stop := userBuffer_end h honest
  have nat := toNat_of_nonneg honest.1
  have below := honest.2
  refine .inr ⟨fun a low high => ⟨by omega, by omega⟩, fun k hk => ?_⟩
  have wrap : add32 buf.toNat k = buf.toNat + k := add32_of_lt (by omega)
  omega

/-- A negative length is an empty buffer: nothing may be stored. -/
lemma contained_iff_of_neg (neg : n.toInt < 0) : Contained s buf n r ↔ r.bytes = [] := by
  constructor
  · rintro (⟨-, bytes, -⟩ | ⟨-, inside⟩)
    · exact bytes
    · by_contra some
      have first := inside 0 (List.length_pos_iff.mpr some)
      omega
  · intro bytes
    refine .inr ⟨fun a low high => by omega, fun k hk => ?_⟩
    rw [bytes] at hk
    exact absurd hk (Nat.not_lt_zero k)

/-- A buffer whose end wraps does not lie in user memory: the call must refuse it. -/
lemma contained_iff_of_wrap (h : userBuffer buf n) (nonneg : 0 ≤ n.toInt) (wrap : ¬ Honest buf n) :
    Contained s buf n r ↔ Refused s r := by
  refine ⟨?_, .inl⟩
  rintro (refused | ⟨inside, -⟩)
  · exact refused
  · have start := userBuffer_start h
    have wrap : ¬ buf.toNat + n.toInt < 2 ^ 31 := fun lt => wrap ⟨nonneg, lt⟩
    have top := (inside (2 ^ 31 - 1) (by omega) (by omega)).2
    rw [userEnd] at top
    omega

/-- The three ways a length can be, for a call that is not refused and stores what it can. -/
lemma contained_iff (h : userBuffer buf n) {nothing : Prop}
    (neg : n.toInt < 0 → (r.bytes = [] ↔ nothing))
    (length : 0 ≤ n.toInt → r.bytes.length ≤ n.toNat) (served : ¬ Refused s r) :
    Contained s buf n r ↔ Honest buf n ∨ n.toInt < 0 ∧ nothing := by
  rcases Int.lt_or_le n.toInt 0 with lt | ge
  · rw [contained_iff_of_neg lt, neg lt]
    constructor
    · exact fun hn => .inr ⟨lt, hn⟩
    · rintro (⟨ge, -⟩ | ⟨-, hn⟩)
      · omega
      · exact hn
  · by_cases honest : Honest buf n
    · exact ⟨fun _ => .inl honest, fun _ => contained_of_honest h honest (length ge)⟩
    · rw [contained_iff_of_wrap h ge honest]
      constructor
      · exact fun refused => absurd refused served
      · rintro (hh | ⟨lt, -⟩)
        · exact absurd hh honest
        · omega

end Check

/-! ## What is stored -/

section Stored

variable {m : Mem} {fs : Fs} {s : Kernel} {inode offset length fd : Nat}

/-- Below the end of the file `read_data` always stores something, if it is asked for anything. -/
lemma readData_ne_nil (boot : fs.bootblockHead ≠ 0) (valid : inode ≤ fs.inodesNum m)
    (before : offset < fs.fileLength m inode) (small : fs.fileLength m inode < 2 ^ 31)
    (asked : 0 < length) : (readData m fs inode offset length).2 ≠ [] := by
  have inside : ¬ (inode > fs.inodesNum m ∨ offset > fs.fileLength m inode) := by omega
  rw [readData]
  dsimp only
  rw [if_neg boot, if_neg (Nat.ne_of_lt before), if_neg inside]
  have left : sub32 (fs.fileLength m inode) offset = fs.fileLength m inode - offset :=
    sub32_of_le (by omega) (by omega)
  intro empty
  have first := congrArg List.length (List.append_eq_nil_iff.mp empty).1
  rw [Mem.length_fetch, List.length_nil, left, dataBlockSize] at first
  split_ifs at first <;> omega

variable {buf n : BitVec 32} {r : ReadResult}

/-- `read_data` refused, and `file_read` added its -1 to the position: that is no refusal. -/
lemma fileRead_moves (s : Kernel) (fd : Nat) (n : BitVec 32) : ¬ Refused s (s.fileRead fd n) := by
  rintro ⟨ret, -, after⟩
  rw [Kernel.fileRead] at ret after
  dsimp only at ret after
  rw [ret] at after
  have moved : add32 (s.proc.fd fd).position ((-1 : Int) % 2 ^ 32).toNat
      = (s.proc.fd fd).position := by
    have stored := congrArg (fun t => (t.proc.fd fd).position) after
    dsimp only at stored
    rw [Proc.fd_setFd, if_pos rfl] at stored
    exact stored
  have minus : ((-1 : Int) % 2 ^ 32).toNat = 2 ^ 32 - 1 := rfl
  rw [minus, add32] at moved
  omega

/-- `file_read`. -/
lemma fileRead_contained (h : OnFiles s fd) (file : (s.proc.fd fd).fileotPointer = 2)
    (ok : userBuffer buf n) : Contained s buf n (s.fileRead (s.readFd fd) n) ↔
      Honest buf n ∨ n.toInt < 0 ∧ s.NothingToStore fd := by
  have small := h.small file
  have nothing : s.NothingToStore fd ↔ s.fs.inodesNum s.mem < (s.proc.fd (s.readFd fd)).inode ∨
      s.fs.fileLength s.mem (s.proc.fd (s.readFd fd)).inode ≤
        (s.proc.fd (s.readFd fd)).position := by
    rw [Kernel.NothingToStore, file]
    exact Iff.rfl
  rw [nothing]
  have served := fileRead_moves s (s.readFd fd) n
  have bytes : (s.fileRead (s.readFd fd) n).bytes
      = (readData s.mem s.fs (s.proc.fd (s.readFd fd)).inode
          (s.proc.fd (s.readFd fd)).position n.toNat).2 := rfl
  generalize s.fileRead (s.readFd fd) n = r at *
  generalize (s.proc.fd (s.readFd fd)).inode = inode at *
  generalize (s.proc.fd (s.readFd fd)).position = position at *
  by_cases atEnd : position = s.fs.fileLength s.mem inode
  · rw [readData_at_end h.boot atEnd] at bytes
    refine contained_iff ok (fun _ => ?_) (fun _ => ?_) served
    · exact iff_of_true bytes (.inr (Nat.le_of_eq atEnd.symm))
    · rw [bytes]
      exact Nat.zero_le _
  by_cases out : s.fs.inodesNum s.mem < inode ∨ s.fs.fileLength s.mem inode < position
  · rw [readData_refused h.boot atEnd out] at bytes
    refine contained_iff ok (fun _ => ?_) (fun _ => ?_) served
    · exact iff_of_true bytes (out.imp_right Nat.le_of_lt)
    · rw [bytes]
      exact Nat.zero_le _
  · have before : position < s.fs.fileLength s.mem inode := by omega
    have valid : inode ≤ s.fs.inodesNum s.mem := by omega
    refine contained_iff ok (fun neg => ?_) (fun ge => ?_) served
    · have asked := toNat_of_neg neg
      have asked : 0 < n.toNat := by omega
      have stored := readData_ne_nil h.boot valid before (by omega) asked
      rw [← bytes] at stored
      exact iff_of_false stored (by omega)
    · have nat := toNat_of_nonneg ge
      have lt := BitVec.toInt_lt (x := n)
      rw [readData_spec h.boot valid before (by omega) (by omega)] at bytes
      rw [bytes, Fs.length_fileBytes]
      exact Nat.min_le_left ..

/-- `directory_read`. -/
lemma directoryRead_contained (dir : (s.proc.fd fd).fileotPointer = 1) (ok : userBuffer buf n)
    (run : s.directoryRead (s.readFd fd) buf n = some r) : Contained s buf n r ↔
      Honest buf n ∨ n.toInt < 0 ∧ s.NothingToStore fd := by
  have start := (userBuffer_start ok).1
  have nothing : s.NothingToStore fd ↔
      s.fs.fileType s.mem (s.proc.fd (s.readFd fd)).position > 2 ∨
        s.fs.fileName s.mem (s.proc.fd (s.readFd fd)).position 0 = 0 := by
    rw [Kernel.NothingToStore, dir]
    exact Iff.rfl
  rw [nothing]
  rcases directoryRead_cases run with
    ⟨unknown, rfl⟩ | ⟨null, -⟩ | ⟨known, len, length, hlen, clamped, e⟩
  · refine contained_iff ok (fun _ => ?_) (fun _ => ?_) ?_
    · exact iff_of_true rfl (.inl unknown)
    · exact Nat.zero_le _
    · exact fun refused => Int.noConfusion refused.1
  · rw [null] at start
    exact absurd start (by decide)
  · obtain ⟨zero, before⟩ := strlen_spec hlen
    rw [fileNameLength] at clamped
    have ret : r.ret = int32 length := by rw [e]
    have bytes : r.bytes.length = length := by rw [e, Mem.length_fetch]
    refine contained_iff ok (fun neg => ?_) (fun ge => ?_) ?_
    · have asked := toNat_of_neg neg
      have empty : len = 0 ↔ s.fs.fileName s.mem (s.proc.fd (s.readFd fd)).position 0 = 0 := by
        constructor
        · intro e0
          exact e0 ▸ zero
        · intro h0
          by_contra pos
          exact before 0 (Nat.pos_of_ne_zero pos) h0
      rw [← empty, ← List.length_eq_zero_iff, bytes]
      split_ifs at clamped <;> omega
    · have nat := toNat_of_nonneg ge
      split_ifs at clamped <;> omega
    · -- only a name without a byte stores nothing, and then the result is 0
      rintro ⟨minus, none, -⟩
      rw [none, List.length_nil] at bytes
      rw [minus, ← bytes] at ret
      exact absurd ret (by decide)

/-- `rtcread` stores nothing, and returns 0. -/
lemma rtcread_contained (rtc : (s.proc.fd fd).fileotPointer = 0) (ok : userBuffer buf n)
    (run : s.rtcread = some r) : Contained s buf n r ↔
      Honest buf n ∨ n.toInt < 0 ∧ s.NothingToStore fd := by
  have nothing : s.NothingToStore fd := by
    rw [Kernel.NothingToStore, rtc]
    trivial
  have stored : r.ret = 0 ∧ r.bytes = [] := by
    rw [Kernel.rtcread] at run
    split_ifs at run
    · obtain rfl := Option.some.inj run
      exact ⟨rfl, rfl⟩
    · obtain rfl := Option.some.inj run
      exact ⟨rfl, rfl⟩
  refine contained_iff ok (fun _ => ?_) (fun _ => ?_) ?_
  · exact iff_of_true stored.2 nothing
  · rw [stored.2]
    exact Nat.zero_le _
  · rintro ⟨ret, -⟩
    omega

end Stored

section Calls

variable {s : Kernel} {buf n : BitVec 32} {r : ReadResult}

/-- `read` keeps to the buffer exactly under its condition. -/
lemma read_contained {fd : BitVec 32} (h : OnFiles s fd.toNat)
    (run : s.readResult fd buf n = some r) :
    Contained s buf n r ↔ s.ReadKeeps fd buf n := by
  have refuse (e : r = ⟨-1, [], s⟩) (keeps : s.ReadKeeps fd buf n) :
      Contained s buf n r ↔ s.ReadKeeps fd buf n := by
    subst e
    exact iff_of_true (contained_refused s buf n) keeps
  rw [Kernel.readResult] at run
  split at run
  next out => exact refuse (Option.some.inj run).symm (.inl out)
  next ok =>
  split at run
  next noFd => exact refuse (Option.some.inj run).symm (.inr (.inl noFd))
  next isFd =>
  split at run
  · cases run
  split at run
  next closed => exact refuse (Option.some.inj run).symm (.inr (.inr (.inl closed)))
  next isOpen =>
  have ok := not_not.mp ok
  have keeps : s.ReadKeeps fd buf n ↔
      Honest buf n ∨ n.toInt < 0 ∧ s.NothingToStore fd.toNat := by
    rw [Kernel.ReadKeeps, or_iff_right (not_not.mpr ok), or_iff_right isFd, or_iff_right isOpen]
  rw [keeps]
  unfold Kernel.tableRead at run
  split at run
  next rtc => exact rtcread_contained rtc ok run
  next dir =>
    split at run
    · exact directoryRead_contained dir ok run
    · cases run
  next file =>
    split at run
    · obtain rfl := Option.some.inj run
      exact fileRead_contained h file ok
    · cases run
  next terminal => exact absurd h.device (by omega)
  next => cases run

/-- `getargs` keeps to the buffer exactly under its condition. -/
lemma getargs_contained (run : s.getargsResult buf n = some r) :
    Contained s buf n r ↔ s.GetargsKeeps buf n := by
  rw [Kernel.getargsResult] at run
  split at run
  next out =>
    obtain rfl := Option.some.inj run
    exact iff_of_true (contained_refused s buf n) (.inl out)
  next ok =>
  split at run
  · cases run
  dsimp only at run
  split at run
  next none =>
    obtain rfl := Option.some.inj run
    exact iff_of_true (contained_refused s buf n) (.inr (.inl none))
  next some =>
    obtain rfl := Option.some.inj run
    have ok := not_not.mp ok
    -- `strncpy` always stores: neither a refusal nor an empty store excuses a bad length
    have keeps : s.GetargsKeeps buf n ↔ Honest buf n ∨ n.toInt < 0 ∧ False := by
      rw [Kernel.GetargsKeeps, or_iff_right (not_not.mpr ok), or_iff_right some,
        and_false, or_false]
    rw [keeps]
    have stored := length_strncpy (s.proc.pcb s.proc.curProcessPtr).arg n.toNat
    refine contained_iff ok (fun neg => ?_) (fun _ => ?_) ?_
    · have asked := toNat_of_neg neg
      refine iff_of_false (fun empty => ?_) id
      have none := stored.symm.trans (congrArg List.length empty)
      rw [List.length_nil] at none
      omega
    · exact Nat.le_of_eq stored
    · exact fun refused => Int.noConfusion refused.1

end Calls

/-- **User buffers.** A completed check of `read` on a non-terminal descriptor, and of `getargs`,
keeps what is stored inside the user's buffer exactly under the conditions above. -/
theorem user_buffer_iff (s : Kernel) (fd buf n : BitVec 32) :
    (OnFiles s fd.toNat → ∀ r, s.readResult fd buf n = some r →
      (Contained s buf n r ↔ s.ReadKeeps fd buf n)) ∧
      ∀ r, s.getargsResult buf n = some r → (Contained s buf n r ↔ s.GetargsKeeps buf n) :=
  ⟨fun h _ run => read_contained h run, fun _ run => getargs_contained run⟩

/-- Ten bytes of the program `shell` go to the buffer, and an empty argument to another. -/
theorem user_buffer_iff_sample : ∃ s r r', s.readResult 2 0x08048000 10 = some r ∧
    r.bytes.length = 10 ∧ Contained s 0x08048000 10 r ∧
    s.getargsResult 0x08048100 16 = some r' ∧ r'.bytes.length = 16 ∧
    Contained s 0x08048100 16 r' := by
  have facts : ((bootShell sampleFrame sampleBoot).bind fun s =>
      (s.sysOpen sampleFrame (some Kernel.shellCommand)).bind fun o =>
      (o.1.readResult 2 0x08048000 10).bind fun r => (o.1.getargsResult 0x08048100 16).map fun r' =>
        (r.bytes.length, r'.bytes.length, o.1.fs.bootblockHead, (o.1.proc.fd 2).fileotPointer,
          o.1.fs.fileLength o.1.mem (o.1.proc.fd (o.1.readFd 2)).inode))
      = some (10, 16, 0x600000, 2, 28) := by decide +kernel
  obtain ⟨_, -, h⟩ := Option.bind_eq_some_iff.mp facts
  obtain ⟨o, -, h⟩ := Option.bind_eq_some_iff.mp h
  obtain ⟨r, run, h⟩ := Option.bind_eq_some_iff.mp h
  obtain ⟨r', run', e⟩ := Option.map_eq_some_iff.mp h
  simp only [Prod.mk.injEq] at e
  obtain ⟨stored, stored', head, device, length⟩ := e
  have files : OnFiles o.1 (2 : BitVec 32).toNat :=
    ⟨ne_of_eq_of_ne head (by decide), Nat.le_of_eq device, fun _ => length ▸ (by decide)⟩
  have honest : Honest 0x08048000 10 := ⟨by decide, by decide⟩
  have honest' : Honest 0x08048100 16 := ⟨by decide, by decide⟩
  exact ⟨o.1, r, r', run, stored,
    ((user_buffer_iff o.1 2 0x08048000 10).1 files r run).mpr (.inr (.inr (.inr (.inl honest)))),
    run', stored',
    ((user_buffer_iff o.1 2 0x08048100 16).2 r' run').mpr (.inr (.inr honest'))⟩

/-- A read of length -1 from the directory passes the check and stores the name it finds. -/
theorem not_always_contained : ¬ ∀ (s : Kernel) (fd buf n : BitVec 32),
    (OnFiles s fd.toNat → ∀ r, s.readResult fd buf n = some r → Contained s buf n r) ∧
      ∀ r, s.getargsResult buf n = some r → Contained s buf n r := by
  intro claim
  have facts : ((bootShell sampleFrame sampleBoot).bind fun s =>
      (s.sysOpen sampleFrame (some (bytesOf ['.']))).bind fun o =>
      (o.1.readResult 2 0x08048000 (-1)).map fun r => (r.bytes.length, o.1.fs.bootblockHead,
        (o.1.proc.fd 2).fileotPointer)) = some (1, 0x600000, 1) := by decide +kernel
  obtain ⟨_, -, h⟩ := Option.bind_eq_some_iff.mp facts
  obtain ⟨o, -, h⟩ := Option.bind_eq_some_iff.mp h
  obtain ⟨r, run, e⟩ := Option.map_eq_some_iff.mp h
  simp only [Prod.mk.injEq] at e
  obtain ⟨length, head, device⟩ := e
  have files : OnFiles o.1 (2 : BitVec 32).toNat :=
    ⟨ne_of_eq_of_ne head (by decide), device ▸ (by decide),
      fun file => absurd (device.symm.trans file) (by decide)⟩
  have kept := (claim o.1 2 0x08048000 (-1)).1 files r run
  have none := (contained_iff_of_neg (by decide)).mp kept
  rw [none, List.length_nil] at length
  omega

end Kernel391
