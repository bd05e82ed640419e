import Kernel391.Files.Inspection
import Kernel391.Files.Mapped
import Kernel391.Files.Slice
import Kernel391.Process.UserPages

/-!
# Loading a program

The load of `execute` gives `read_data` the size of the whole user page as its limit, and a buffer
that starts `0x48000` bytes into it. So the length of the file decides whether the stores stay in
the page; behind it nothing is mapped, and a load that leaves it does not complete.
-/

namespace Kernel391
open Base

/-- The addresses `storeThrough` stores at, in order. -/
def storeAddresses : (va : Nat) → List UInt8 → List Nat
  | _, [] => []
  | va, _ :: bs => va :: storeAddresses (add32 va 1) bs

/-- The addresses at which the load of `execute` stores a program: the kernel's page is mapped to
itself, so what it reads of the image is what memory holds. -/
def Kernel.loadAddresses (s : Kernel) (inode : Nat) : List Nat :=
  storeAddresses userPaddr (readData s.mem s.fs inode 0 userStackSize).2

/-- The file starts with the bytes `execute` asks for. -/
def Kernel.Executable (s : Kernel) (inode : Nat) : Prop :=
  exeCheck (overlay (fun _ => 0) (readData s.mem s.fs inode 0 4).2) = true

/-- Whether a file is executable can be read from its first bytes. -/
instance (s : Kernel) (inode : Nat) : Decidable (s.Executable inode) :=
  inferInstanceAs (Decidable (_ = _))

section Addresses

variable {pg : Paging} {s s' : Kernel} {m : Mem} {a va modStart inode : Nat} {bs : List UInt8}

/-- A store that does not wrap stores to its range. -/
lemma mem_storeAddresses (top : va + bs.length < 2 ^ 32) :
    a ∈ storeAddresses va bs ↔ va ≤ a ∧ a < va + bs.length := by
  induction bs generalizing va with
  | nil =>
      rw [storeAddresses, List.length_nil]
      constructor
      · intro h
        exact absurd h List.not_mem_nil
      · intro h
        omega
  | cons b bs ih =>
      rw [List.length_cons] at top ⊢
      have next : add32 va 1 = va + 1 := Nat.mod_eq_of_lt (by omega)
      rw [storeAddresses, List.mem_cons, next, ih (by omega)]
      omega

/-- Stores complete exactly if all their addresses are mapped. -/
lemma storeThrough_isSome : (storeThrough pg m va bs).isSome ↔
    ∀ a ∈ storeAddresses va bs, (pg.translate a).isSome := by
  induction bs generalizing m va with
  | nil => exact ⟨fun _ a ha => absurd ha List.not_mem_nil, fun _ => rfl⟩
  | cons b bs ih =>
      rw [storeThrough, storeAddresses, List.forall_mem_cons]
      cases pg.translate va with
      | none =>
          constructor
          · intro stored
            cases stored
          · rintro ⟨mapped, -⟩
            cases mapped
      | some pa =>
          dsimp only
          rw [ih]
          exact ⟨fun rest => ⟨rfl, rest⟩, fun h => h.2⟩

/-- A load stores all of the file, from the load address on. -/
lemma mem_loadAddresses (wf : WellFormedImage s.mem modStart) (serves : s.fs.Serves s.mem modStart)
    (hi : inode < s.fs.inodesNum s.mem) :
    a ∈ s.loadAddresses inode ↔ userPaddr ≤ a ∧ a < userPaddr + s.fs.fileLength s.mem inode := by
  have boot : s.fs.bootblockHead ≠ 0 := wf.filesSound.boot serves
  have most : s.fs.fileLength s.mem inode ≤ 1023 * 4096 := wf.filesSound.most serves hi
  have size : (readData s.mem s.fs inode 0 userStackSize).2.length
      = s.fs.fileLength s.mem inode := by
    have limit : min userStackSize (s.fs.fileLength s.mem inode - 0)
        = s.fs.fileLength s.mem inode := by
      rw [userStackSize]
      omega
    rw [readData_slice boot (Nat.le_of_lt hi) (Nat.zero_le _) (by omega) (by decide), limit,
      Fs.length_fileBytes]
  rw [Kernel.loadAddresses, mem_storeAddresses, size]
  rw [size, userPaddr]
  omega

end Addresses

/-- **Program load.** The bytes a load stores lie in the part of the user page from the load address
on exactly if the file is no longer than that part. -/
theorem load_in_page_iff (s : Kernel) (modStart inode : Nat) (wf : WellFormedImage s.mem modStart)
    (serves : s.fs.Serves s.mem modStart) (hi : inode < s.fs.inodesNum s.mem) :
    (∀ a ∈ s.loadAddresses inode, userPaddr ≤ a ∧ a < userEnd) ↔
      s.fs.fileLength s.mem inode ≤ userEnd - userPaddr := by
  have page : userPaddr + (userEnd - userPaddr) = userEnd := by decide
  constructor
  · intro inside
    by_contra long
    have stored : userEnd ∈ s.loadAddresses inode :=
      (mem_loadAddresses wf serves hi).mpr ⟨by omega, by omega⟩
    exact lt_irrefl _ (inside userEnd stored).2
  · intro fits a ha
    obtain ⟨low, high⟩ := (mem_loadAddresses wf serves hi).mp ha
    exact ⟨low, by omega⟩

/-- The 28 bytes of the program `shell` are loaded into the page of its process. -/
theorem load_in_page_iff_sample : ((Kernel.boot sampleBoot).loadAddresses 0).length = 28 ∧
    ∀ a ∈ (Kernel.boot sampleBoot).loadAddresses 0, userPaddr ≤ a ∧ a < userEnd :=
  ⟨by decide +kernel,
    (load_in_page_iff (Kernel.boot sampleBoot) 0x600000 0 wellFormedImage_sample ⟨0, rfl⟩
      (by decide +kernel)).mpr (by decide +kernel)⟩

/-- A load in a state that maps the kernel's page stores what `read_data` finds in memory. -/
lemma loadFile_mapped {s : Kernel} {modStart inode : Nat} (wf : WellFormedImage s.mem modStart)
    (serves : s.fs.Serves s.mem modStart) (kernel : KernelMapped s.paging)
    (hi : inode < s.fs.inodesNum s.mem) : s.loadFile inode =
      (storeThrough s.paging s.mem userPaddr (readData s.mem s.fs inode 0 userStackSize).2).map
        fun m => { s with mem := m } := by
  have counted : inode < (filesystemInit s.mem modStart).inodesNum s.mem := by
    obtain ⟨e, fs⟩ := serves
    rw [fs] at hi
    exact hi
  rw [Kernel.loadFile, mappedData_image wf .refl serves kernel counted (by decide),
    ← readData_image wf .refl serves counted (by decide)]
  show (storeThrough s.paging s.mem userPaddr _).bind _ = _
  cases storeThrough s.paging s.mem userPaddr (readData s.mem s.fs inode 0 userStackSize).2 with
  | none => rfl
  | some m => rfl

/-- A load in a state that maps the page of the process and nothing behind it completes exactly if
the file is no longer than that part. -/
theorem loadFile_completes_iff (s : Kernel) (modStart inode k : Nat)
    (wf : WellFormedImage s.mem modStart) (serves : s.fs.Serves s.mem modStart)
    (hi : inode < s.fs.inodesNum s.mem) (kernel : KernelMapped s.paging)
    (mapped : s.paging.DT userPdIndex = userPde k) (h2 : 2 ≤ k) (h8 : k < 8)
    (behind : s.paging.DT (userPdIndex + 1) % 2 = 0) :
    (s.loadFile inode).isSome ↔ s.fs.fileLength s.mem inode ≤ userEnd - userPaddr := by
  have page : userPaddr + (userEnd - userPaddr) = userEnd := by decide
  have above : userMem ≤ userPaddr := by decide
  rw [loadFile_mapped wf serves kernel hi, Option.isSome_map, storeThrough_isSome]
  constructor
  · intro walks
    by_contra long
    have stored : userEnd ∈ s.loadAddresses inode :=
      (mem_loadAddresses wf serves hi).mpr ⟨by omega, by omega⟩
    have fault : s.paging.translate userEnd = none := if_pos behind
    have walk := walks userEnd stored
    rw [fault] at walk
    cases walk
  · intro fits a ha
    obtain ⟨low, high⟩ := (mem_loadAddresses wf serves hi).mp ha
    rw [translate_user mapped h2 h8 (by omega) (by omega)]
    rfl

/-- The machine with one program, a byte longer than fits. -/
def bigBoot : BootInfo := { sampleBoot with ram := programRam 0x3B8001 }

/-- The image with the long program is well formed. -/
lemma wellFormedImage_big : WellFormedImage (Kernel.boot bigBoot).mem 0x600000 where
  above := by decide
  below := by decide +kernel
  header := by decide +kernel
  dentryNum := by decide +kernel
  inodesNum := by decide +kernel
  nonempty := by decide +kernel
  distinct := by decide +kernel
  fileType := by decide +kernel
  inode := by decide +kernel
  reserved := by decide +kernel
  length := by decide +kernel
  blocks := by decide +kernel

/-- The load of that program stores its last byte behind the page. -/
theorem not_always_load_in_page : ¬ ∀ (s : Kernel) (modStart inode : Nat),
    WellFormedImage s.mem modStart → s.fs.Serves s.mem modStart → inode < s.fs.inodesNum s.mem →
    s.Executable inode → ∀ a ∈ s.loadAddresses inode, userPaddr ≤ a ∧ a < userEnd := by
  intro claim
  have hi : 0 < (Kernel.boot bigBoot).fs.inodesNum (Kernel.boot bigBoot).mem := by decide +kernel
  have serves : (Kernel.boot bigBoot).fs.Serves (Kernel.boot bigBoot).mem 0x600000 := ⟨0, rfl⟩
  have size : (Kernel.boot bigBoot).fs.fileLength (Kernel.boot bigBoot).mem 0 = 0x3B8001 := by
    decide +kernel
  have inside := claim (Kernel.boot bigBoot) 0x600000 0 wellFormedImage_big serves hi
    (by decide +kernel)
  have stored : userEnd ∈ (Kernel.boot bigBoot).loadAddresses 0 := by
    rw [mem_loadAddresses wellFormedImage_big serves hi, size]
    decide
  exact lt_irrefl _ (inside userEnd stored).2

end Kernel391
