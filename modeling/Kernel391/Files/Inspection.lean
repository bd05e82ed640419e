import Kernel391.Files.Image

/-!
# What the image reads look at

`read_dentry_by_index` and `read_data` once more, with a list of the parts of the image they look
at, each a slot of the directory, the length of an index node or an entry of its block list. What
they return and store is the same, so the lists tell what the checks of the two functions come too
late for.
-/

namespace Kernel391
open Base

/-- A part of the image: a directory slot, the length of an index node, or a block number of it. -/
inductive Inspect where
  | dentry (index : Nat)
  | fileLength (inode : Nat)
  | dataBlocks (inode i : Nat)

/-- The part is one of those the boot block counts. -/
def Inspect.Counted (fs : Fs) (m : Mem) : Inspect → Prop
  | .dentry index => index < fs.dentryNum m
  | .fileLength inode => inode < fs.inodesNum m
  | .dataBlocks inode _ => inode < fs.inodesNum m

/-- `read_dentry_by_index`, and what it looks at. -/
def watchDentryByIndex (m : Mem) (fs : Fs) (index : Nat) : Option (Int × Stores) × List Inspect :=
  if index > fs.dentryNum m then (some (-1, []), [])
  else
    match strcpy (fs.fileName m index), strcpy (fs.reserved m index) with
    | some name, some reserved =>
      (some (0, storesAt 32 (wordBytes (fs.fileType m index))
        ++ storesAt 36 (wordBytes (fs.inodeIndex m index))
        ++ storesAt 0 name ++ storesAt 40 reserved),
        [.dentry index])
    | _, _ => (none, [.dentry index])

/-- The block loop of `read_data`, and what it looks at. -/
def watchBlocks (m : Mem) (fs : Fs) (inode length : Nat) :
    (k i bufOffset : Nat) → (List UInt8 × Nat) × List Inspect
  | 0, _, bufOffset => (([], bufOffset), [])
  | k + 1, i, bufOffset =>
    let dataId := fs.dataBlocks m inode i
    let memcpyLen :=
      if dataBlockSize > sub32 length bufOffset then sub32 length bufOffset else dataBlockSize
    let rest := watchBlocks m fs inode length k (i + 1) (add32 bufOffset memcpyLen)
    ((m.fetch (fs.datablock dataId) memcpyLen ++ rest.1.1, rest.1.2), .dataBlocks inode i :: rest.2)

/-- `read_data`, and what it looks at. -/
def watchData (m : Mem) (fs : Fs) (inode offset length : Nat) :
    (Int × List UInt8) × List Inspect :=
  let fileLength := fs.fileLength m inode
  if fs.bootblockHead = 0 then ((-1, []), [])
  -- the length of the file comes before the range of `inode`
  else if offset = fileLength then ((0, []), [.fileLength inode])
  else if inode > fs.inodesNum m ∨ offset > fileLength then ((-1, []), [.fileLength inode])
  else
    let length := if add32 length offset > fileLength then sub32 fileLength offset else length
    let starting := offset / dataBlockSize
    let ending := add32 offset length / dataBlockSize
    let offset := offset - dataBlockSize * starting
    let dataId := fs.dataBlocks m inode starting
    let memcpyLen :=
      if dataBlockSize > add32 length offset then length else dataBlockSize - offset
    let first := m.fetch (fs.datablock dataId + offset) memcpyLen
    let rest := watchBlocks m fs inode length (ending - starting) (starting + 1) memcpyLen
    ((int32 rest.1.2, first ++ rest.1.1), .fileLength inode :: .dataBlocks inode starting :: rest.2)

/-- What both functions should do for an index, an inode and a range: succeed for the slots that are
counted and leave the record alone for the others, refuse an inode that is not counted and an offset
behind the end, and look at nothing that is not counted before they refuse. -/
structure IndexChecks (m : Mem) (fs : Fs) (index inode offset length : Nat) : Prop where
  succeeds : (∃ st, readDentryByIndex m fs index = some (0, st)) ↔ index < fs.dentryNum m
  untouched : ¬ index < fs.dentryNum m → ∃ ret, readDentryByIndex m fs index = some (ret, [])
  refused : inode ≥ fs.inodesNum m ∨ offset > fs.fileLength m inode →
    readData m fs inode offset length = (-1, [])
  dentryInspected : (readDentryByIndex m fs index).map Prod.fst = some (-1) →
    ∀ part ∈ (watchDentryByIndex m fs index).2, part.Counted fs m
  dataInspected : (readData m fs inode offset length).1 = -1 →
    ∀ part ∈ (watchData m fs inode offset length).2, part.Counted fs m

section Watching

variable {m : Mem} {fs : Fs} {index inode offset length : Nat}

/-- Watching changes nothing. -/
lemma watchDentryByIndex_fst :
    (watchDentryByIndex m fs index).1 = readDentryByIndex m fs index := by
  rw [watchDentryByIndex, readDentryByIndex]
  split_ifs
  · rfl
  · cases strcpy (fs.fileName m index) <;> cases strcpy (fs.reserved m index) <;> rfl

/-- Watching the loop over the blocks does not change it. -/
lemma watchBlocks_fst {k i bufOffset : Nat} :
    (watchBlocks m fs inode length k i bufOffset).1
      = readBlocks m fs inode length k i bufOffset := by
  induction k generalizing i bufOffset with
  | zero => rfl
  | succ k ih =>
      rw [watchBlocks, readBlocks]
      dsimp only
      rw [ih]

/-- Watching `read_data` does not change it. -/
lemma watchData_fst :
    (watchData m fs inode offset length).1 = readData m fs inode offset length := by
  rw [watchData, readData]
  dsimp only
  split_ifs
  · rfl
  · rfl
  · rfl
  all_goals rw [watchBlocks_fst]

/-- The block loop looks at one block number for each pass. -/
lemma mem_watchBlocks {k i bufOffset : Nat} {part : Inspect} :
    part ∈ (watchBlocks m fs inode length k i bufOffset).2 ↔
      ∃ j, i ≤ j ∧ j < i + k ∧ part = .dataBlocks inode j := by
  induction k generalizing i bufOffset with
  | zero =>
      constructor
      · intro h
        exact absurd h List.not_mem_nil
      · rintro ⟨j, low, high, -⟩
        omega
  | succ k ih =>
      rw [watchBlocks, List.mem_cons, ih]
      constructor
      · rintro (rfl | ⟨j, low, high, rfl⟩)
        · exact ⟨i, le_refl i, by omega, rfl⟩
        · exact ⟨j, by omega, by omega, rfl⟩
      · rintro ⟨j, low, high, rfl⟩
        rcases Nat.eq_or_lt_of_le low with rfl | lt
        · exact .inl rfl
        · exact .inr ⟨j, by omega, by omega, rfl⟩

/-- Every part `read_data` looks at belongs to the index node it is asked for. -/
lemma watchData_counted (counted : inode < fs.inodesNum m) :
    ∀ part ∈ (watchData m fs inode offset length).2, part.Counted fs m := by
  rw [watchData]
  dsimp only
  intro part hp
  split_ifs at hp
  · exact absurd hp List.not_mem_nil
  · rw [List.mem_singleton] at hp
    subst hp
    exact counted
  · rw [List.mem_singleton] at hp
    subst hp
    exact counted
  all_goals
    rw [List.mem_cons, List.mem_cons, mem_watchBlocks] at hp
    rcases hp with rfl | rfl | ⟨j, -, -, rfl⟩
    · exact counted
    · exact counted
    · exact counted

/-- It looks at the length of the file before anything else. -/
lemma watchData_fileLength (boot : fs.bootblockHead ≠ 0) :
    .fileLength inode ∈ (watchData m fs inode offset length).2 := by
  rw [watchData]
  dsimp only
  rw [if_neg boot]
  split_ifs
  all_goals exact List.mem_cons_self

/-- A string copy from anywhere ends if memory holds a zero byte. -/
lemma strcpy_ends_iff {b : Nat} :
    (∃ l, strcpy (fun k => m.byte (b + k)) = some l) ↔ ∃ a < 2 ^ 32, m a = 0 := by
  constructor
  · rintro ⟨l, copy⟩
    obtain ⟨n, len, -⟩ := Option.map_eq_some_iff.mp copy
    exact ⟨(b + n) % 2 ^ 32, Nat.mod_lt _ (by decide), (strlen_spec len).1⟩
  · rintro ⟨a, ha, zero⟩
    have place : (b + (a + 2 ^ 32 - b % 2 ^ 32) % 2 ^ 32) % 2 ^ 32 = a := by omega
    have nul : m.byte (b + (a + 2 ^ 32 - b % 2 ^ 32) % 2 ^ 32) = 0 := by
      rw [Mem.byte, place, zero]
    obtain ⟨n, -, len⟩ : ∃ n ≤ _, strlen (fun k => m.byte (b + k)) = some n :=
      strlen_of_nul nul (Nat.mod_lt _ (by decide))
    exact ⟨_, by rw [strcpy, len, Option.map_some]⟩

/-- A slot that is not refused is copied if its strings end. -/
lemma readDentryByIndex_succeeds (h : index ≤ fs.dentryNum m) :
    (∃ st, readDentryByIndex m fs index = some (0, st)) ↔ ∃ a < 2 ^ 32, m a = 0 := by
  have ok : ¬ index > fs.dentryNum m := Nat.not_lt.mpr h
  constructor
  · rintro ⟨st, run⟩
    rw [readDentryByIndex, if_neg ok] at run
    cases name : strcpy (fs.fileName m index) with
    | none => rw [name] at run; cases run
    | some l => exact strcpy_ends_iff.mp ⟨l, name⟩
  · intro zero
    obtain ⟨name, hn⟩ := strcpy_ends_iff (b := fs.dentry index).mpr zero
    obtain ⟨reserved, hr⟩ := strcpy_ends_iff (b := fs.dentry index + 40).mpr zero
    have name_eq : strcpy (fs.fileName m index) = some name := hn
    have reserved_eq : strcpy (fs.reserved m index) = some reserved := hr
    rw [readDentryByIndex, if_neg ok, name_eq, reserved_eq]
    exact ⟨_, rfl⟩

/-- A lookup below the count inspects what the count covers. -/
lemma watchDentryByIndex_counted (counted : index < fs.dentryNum m) :
    ∀ part ∈ (watchDentryByIndex m fs index).2, part.Counted fs m := by
  intro part hp
  have ok : ¬ index > fs.dentryNum m := Nat.not_lt.mpr (Nat.le_of_lt counted)
  rw [watchDentryByIndex, if_neg ok] at hp
  have only : part = .dentry index := by
    split at hp
    next => exact List.mem_singleton.mp hp
    next => exact List.mem_singleton.mp hp
  subst only
  exact counted

/-- The slot behind the last one is not refused. -/
lemma readDentryByIndex_behind {ret : Int} {st : Stores}
    (run : readDentryByIndex m fs (fs.dentryNum m) = some (ret, st)) : ret = 0 := by
  rw [readDentryByIndex, if_neg (lt_irrefl _)] at run
  split at run
  next => exact (Prod.mk.inj (Option.some.inj run)).1.symm
  next => cases run

/-- `read_dentry_by_index` refuses an index above the count. -/
lemma readDentryByIndex_refuses (h : fs.dentryNum m < index) :
    readDentryByIndex m fs index = some (-1, []) := by
  rw [readDentryByIndex, if_pos h]

/-- Without an image `read_data` refuses and looks at nothing. -/
lemma readData_unmounted (m : Mem) (inode offset length : Nat) (boot : fs.bootblockHead = 0) :
    readData m fs inode offset length = (-1, []) ∧ (watchData m fs inode offset length).2 = [] := by
  rw [readData, watchData]
  dsimp only
  rw [if_pos boot, if_pos boot]
  exact ⟨rfl, rfl⟩

/-- An inode that is counted is all `read_data` looks at, and it refuses an offset behind its
end. -/
lemma data_checks (offset length : Nat)
    (h : fs.bootblockHead = 0 ∨ inode < fs.inodesNum m) :
    (inode ≥ fs.inodesNum m ∨ offset > fs.fileLength m inode →
      readData m fs inode offset length = (-1, [])) ∧
    ∀ part ∈ (watchData m fs inode offset length).2, part.Counted fs m := by
  by_cases boot : fs.bootblockHead = 0
  · obtain ⟨refused, nothing⟩ := readData_unmounted m inode offset length boot
    rw [nothing]
    exact ⟨fun _ => refused, fun part hp => absurd hp List.not_mem_nil⟩
  · have counted := h.resolve_left boot
    refine ⟨fun out => ?_, watchData_counted counted⟩
    have behind := out.resolve_left (Nat.not_le.mpr counted)
    exact readData_refused boot (Nat.ne_of_gt behind) (.inr behind)

end Watching

/-- **Image index checks.** They are exact for every directory index but the count itself, and for
every inode that is counted; a memory without any zero byte apart, in which no string ends. -/
theorem index_checks_iff (m : Mem) (fs : Fs) (index inode offset length : Nat) :
    IndexChecks m fs index inode offset length ↔
      index ≠ fs.dentryNum m ∧ (index < fs.dentryNum m → ∃ a < 2 ^ 32, m a = 0) ∧
        (fs.bootblockHead = 0 ∨ inode < fs.inodesNum m) := by
  constructor
  · intro h
    refine ⟨?_, fun lt => ?_, ?_⟩
    · rintro rfl
      obtain ⟨ret, run⟩ := h.untouched (lt_irrefl _)
      obtain rfl := readDentryByIndex_behind run
      exact lt_irrefl _ (h.succeeds.mp ⟨[], run⟩)
    · exact (readDentryByIndex_succeeds (Nat.le_of_lt lt)).mp (h.succeeds.mpr lt)
    · by_contra neither
      obtain ⟨boot, behind⟩ := not_or.mp neither
      have ret := congrArg Prod.fst (h.refused (.inl (Nat.not_lt.mp behind)))
      exact behind (h.dataInspected ret _ (watchData_fileLength boot))
  · rintro ⟨ne, ends, data⟩
    obtain ⟨refused, inspected⟩ := data_checks offset length data
    rcases Nat.lt_or_ge index (fs.dentryNum m) with lt | ge
    · obtain ⟨st, run⟩ := (readDentryByIndex_succeeds (Nat.le_of_lt lt)).mpr (ends lt)
      exact ⟨⟨fun _ => lt, fun _ => ⟨st, run⟩⟩, fun out => absurd lt out, refused,
        fun _ => watchDentryByIndex_counted lt, fun _ => inspected⟩
    · have behind : fs.dentryNum m < index := lt_of_le_of_ne ge (Ne.symm ne)
      have run := readDentryByIndex_refuses behind
      refine ⟨⟨fun ⟨st, run'⟩ => ?_, fun lt => absurd lt (Nat.not_lt.mpr ge)⟩, fun _ => ⟨-1, run⟩,
        refused, fun _ part hp => ?_, fun _ => inspected⟩
      · rw [run] at run'
        cases run'
      · rw [watchDentryByIndex, if_pos behind] at hp
        exact absurd hp List.not_mem_nil

/-- Slot 4 of the small image, behind its four entries, is copied. -/
theorem not_always_index_checks : ¬ ∀ (m : Mem) (fs : Fs) (index inode offset length : Nat),
    IndexChecks m fs index inode offset length := by
  intro claim
  have checks := claim sampleRam (filesystemInit sampleRam 0x600000) 4 0 0 0
  have copied : (readDentryByIndex sampleRam (filesystemInit sampleRam 0x600000) 4).map Prod.fst
      = some 0 := by decide +kernel
  obtain ⟨⟨ret, st⟩, run, rfl⟩ := Option.map_eq_some_iff.mp copied
  have lt := checks.succeeds.mp ⟨st, run⟩
  exact absurd lt (by decide +kernel)

/-! ### The blocks of a file -/

section Blocks

variable {m : Mem} {fs : Fs} {modStart inode offset length : Nat}

/-- The block numbers `read_data` looks at: those from the first byte's up to, and with, the one
behind the last byte's. -/
lemma mem_watchData (boot : fs.bootblockHead ≠ 0) (valid : inode ≤ fs.inodesNum m)
    (before : offset < fs.fileLength m inode) (small : fs.fileLength m inode < 2 ^ 31)
    (nowrap : offset + length < 2 ^ 32) {j i : Nat} :
    .dataBlocks j i ∈ (watchData m fs inode offset length).2 ↔
      j = inode ∧ offset / 4096 ≤ i ∧ i ≤ min (offset + length) (fs.fileLength m inode) / 4096 := by
  have inside : ¬ (inode > fs.inodesNum m ∨ offset > fs.fileLength m inode) := by omega
  rw [watchData]
  dsimp only
  rw [if_neg boot, if_neg (Nat.ne_of_lt before), if_neg inside]
  have stop : offset + min length (fs.fileLength m inode - offset)
      = min (offset + length) (fs.fileLength m inode) := by omega
  rw [clamped_length (Nat.le_of_lt before) (by omega) nowrap, dataBlockSize, List.mem_cons,
    List.mem_cons, mem_watchBlocks, add32_of_lt (by omega), stop]
  generalize hb : min (offset + length) (fs.fileLength m inode) / 4096 = ending
  have order : offset / 4096 ≤ ending := by omega
  constructor
  · rintro (eq | eq | ⟨k, low, high, eq⟩)
    · cases eq
    · cases eq
      exact ⟨rfl, le_refl _, order⟩
    · cases eq
      exact ⟨rfl, by omega, by omega⟩
  · rintro ⟨rfl, low, high⟩
    rcases Nat.eq_or_lt_of_le low with rfl | lt
    · exact .inr (.inl rfl)
    · exact .inr (.inr ⟨i, by omega, by omega, rfl⟩)

end Blocks

/-- `read_data` looks at no block number but the file's own, and so at none behind the list of an
index node. -/
def OwnBlocks (m : Mem) (fs : Fs) (inode offset length : Nat) : Prop :=
  ∀ j i, .dataBlocks j i ∈ (watchData m fs inode offset length).2 →
    j = inode ∧ i < (fs.fileLength m inode + 4095) / 4096 ∧ i < 1023

/-- **The blocks `read_data` consults.** They are the file's own unless the read goes up to the end
of a file that fills its last block. -/
theorem own_blocks_iff (m : Mem) (modStart inode offset length : Nat) (fs : Fs)
    (wf : WellFormedImage m modStart) (serves : fs.Serves m modStart)
    (hi : inode < fs.inodesNum m) (before : offset < fs.fileLength m inode)
    (nowrap : offset + length < 2 ^ 32) :
    OwnBlocks m fs inode offset length ↔
      ¬ (fs.fileLength m inode % 4096 = 0 ∧ fs.fileLength m inode ≤ offset + length) := by
  obtain ⟨e, rfl⟩ := serves
  have above := wf.above
  have boot : ((filesystemInit m modStart).atEntry e).bootblockHead ≠ 0 := by
    show modStart ≠ 0
    omega
  have most : ((filesystemInit m modStart).atEntry e).fileLength m inode ≤ 1023 * 4096 :=
    wf.length inode hi
  rw [OwnBlocks]
  generalize (filesystemInit m modStart).atEntry e = fs at *
  have looks (j i : Nat) := mem_watchData (j := j) (i := i) boot (Nat.le_of_lt hi) before (by omega)
    nowrap
  generalize fs.fileLength m inode = size at *
  constructor
  · rintro own ⟨whole, reaches⟩
    obtain ⟨-, lt, -⟩ := own inode (size / 4096) ((looks inode _).mpr ⟨rfl, by omega, by omega⟩)
    omega
  · intro part j i hj
    obtain ⟨rfl, low, high⟩ := (looks j i).mp hj
    exact ⟨rfl, by omega, by omega⟩

/-- A read of the text asks for the text's own block only. -/
theorem own_blocks_iff_sample :
    OwnBlocks sampleRam (filesystemInit sampleRam 0x600000) 1 0 100 :=
  (own_blocks_iff sampleRam 0x600000 1 0 100 _ wellFormedImage_sample ⟨0, rfl⟩ (by decide +kernel)
    (by decide +kernel) (by decide)).mpr fun full => absurd full.1 (by decide +kernel)

/-- A boot image at 6 MB with one program of `n` bytes, all its blocks the same one. -/
def programRam (n : Nat) : Mem :=
  let m : Mem := fun _ => 0
  let m := m.store 0x600000 (wordBytes 1 ++ wordBytes 1 ++ wordBytes 1)
  let m := m.store 0x600040 (sampleEntry ['b', 'i', 'g'] 2 0)
  let m := m.store 0x601000 (wordBytes n)
  m.store 0x602000 [0x7F, 0x45, 0x4C, 0x46]

/-- An image whose program has the greatest length of a file. -/
lemma wellFormedImage_largest : WellFormedImage (programRam (1023 * 4096)) 0x600000 where
  above := by decide
  below := by decide +kernel
  header := by decide +kernel
  dentryNum := by decide +kernel
  inodesNum := by decide +kernel
  nonempty := by decide +kernel
  distinct := by decide +kernel
  fileType := by decide +kernel
  inode := by decide +kernel
  reserved := by decide +kernel
  length := by decide +kernel
  blocks := by decide +kernel

/-- A read of all of a file of the largest size takes the length of the next index node for a block
number. -/
theorem not_always_own_blocks : ¬ ∀ (m : Mem) (modStart inode offset length : Nat) (fs : Fs),
    WellFormedImage m modStart → fs.Serves m modStart → inode < fs.inodesNum m →
    offset < fs.fileLength m inode → offset + length < 2 ^ 32 →
      OwnBlocks m fs inode offset length := by
  intro claim
  have size : (filesystemInit (programRam (1023 * 4096)) 0x600000).fileLength
      (programRam (1023 * 4096)) 0 = 1023 * 4096 := by decide +kernel
  have counted : 0 < (filesystemInit (programRam (1023 * 4096)) 0x600000).inodesNum
      (programRam (1023 * 4096)) := by decide +kernel
  have before : 0 < (filesystemInit (programRam (1023 * 4096)) 0x600000).fileLength
      (programRam (1023 * 4096)) 0 := by
    rw [size]
    decide
  have own := claim (programRam (1023 * 4096)) 0x600000 0 0 (1023 * 4096)
    (filesystemInit (programRam (1023 * 4096)) 0x600000) wellFormedImage_largest ⟨0, rfl⟩ counted
    before (by decide)
  have boot : (filesystemInit (programRam (1023 * 4096)) 0x600000).bootblockHead ≠ 0 := by decide
  have looks : .dataBlocks 0 1023 ∈ (watchData (programRam (1023 * 4096))
      (filesystemInit (programRam (1023 * 4096)) 0x600000) 0 0 (1023 * 4096)).2 :=
    (mem_watchData boot (Nat.le_of_lt counted) before (by rw [size]; decide) (by decide)).mpr
      ⟨rfl, by decide, by rw [size]; decide⟩
  exact absurd (own 0 1023 looks).2.2 (lt_irrefl _)

end Kernel391
