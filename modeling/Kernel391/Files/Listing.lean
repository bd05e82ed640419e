import Kernel391.Files.Streams

/-!
# Directory listing

Reads of an open directory return one entry after the other. `directory_read` looks at the slot its
position points to and at nothing else: what is behind the last entry ends the listing only if it
looks like an unused slot, and behind the last slot of the boot block the position goes on through
the index nodes. `readSlots` is the enumeration of the slots as they lie in memory; the reads of a
process refine it, and it gives the names and then nothing exactly when everything it comes to
behind the last entry is silent.
-/

namespace Kernel391
open Base

/-- What a listing needs of the boot block: it lies in the kernel's page, and its entries have names
and known types. -/
structure DirectoryImage (m : Mem) (modStart : Nat) : Prop where
  above : 0x00400000 ≤ modStart
  below : modStart + 4096 ≤ 0x00800000
  dentryNum : (filesystemInit m modStart).dentryNum m ≤ 63
  nonempty : ∀ i < (filesystemInit m modStart).dentryNum m,
    (filesystemInit m modStart).fileName m i 0 ≠ 0
  fileType : ∀ i < (filesystemInit m modStart).dentryNum m,
    (filesystemInit m modStart).fileType m i ≤ 2

/-- The directory slots of the boot block. -/
def InSlots (modStart a : Nat) : Prop := modStart + 64 ≤ a ∧ a < modStart + 4096

/-- The kernel serves the directory of the boot block `m` has at `modStart`, whatever became of its
header, and the process that reads has frame `k`. -/
structure DirectoryServed (m : Mem) (modStart k : Nat) (s : Kernel) : Prop where
  image : DirectoryImage m modStart
  same : SameOn (InSlots modStart) m s.mem
  boot : s.fs.bootblockHead = modStart
  runs : RunsIn k s

/-- Descriptor `fd` is open on the directory. -/
structure DirectoryOpen (s : Kernel) (fd position : Nat) : Prop where
  low : 2 ≤ fd
  high : fd < fdarrayMax
  flags : (s.proc.fd fd).flags ≠ 0
  table : (s.proc.fd fd).fileotPointer = 1
  position : (s.proc.fd fd).position = position

/-- A read of the directory, to a buffer in the user page with room for a name. -/
structure DirectoryRead where
  buf : BitVec 32
  n : BitVec 32
  long : 32 ≤ n.toNat
  page : InUserPage buf n

/-- What a read returns: its value and the bytes in the buffer. -/
abbrev Outcome := Int × List UInt8

/-- One read, added to the outcomes so far. -/
def listStep (fd : BitVec 32) (x : Kernel × List Outcome) (c : DirectoryRead) :
    Option (Kernel × List Outcome) :=
  (x.1.sysRead fd c.buf c.n).map fun r => (r.1, x.2 ++ [(r.2, r.1.returned c.buf r.2)])

/-- What the read of number `i` has to return: the name of entry `i`, or 0 behind the last entry. -/
def listed (m : Mem) (modStart i : Nat) : Outcome :=
  let fs := filesystemInit m modStart
  if i < fs.dentryNum m then ((fs.entryName m i).length, fs.entryName m i) else (0, [])

/-- The reads return the names of the entries in order, and then nothing. -/
def Lists (m : Mem) (modStart : Nat) (s : Kernel) (fd : BitVec 32)
    (cs : List DirectoryRead) : Prop :=
  ∃ s', runs (listStep fd) (s, []) cs = some (s', (List.range cs.length).map (listed m modStart))

/-! ## The slots -/

/-- Bytes `j` to `k` of slot `i` lie in the kernel's page. -/
def Fs.slotMapped (fs : Fs) (i j k : Nat) : Prop :=
  KernelPtr (fs.dentry i % 2 ^ 32 + j : Nat) ∧ KernelPtr (fs.dentry i % 2 ^ 32 + k : Nat)

/-- Whether bytes of a slot are mapped can be read from its address. -/
instance (fs : Fs) (i j k : Nat) : Decidable (fs.slotMapped i j k) :=
  inferInstanceAs (Decidable (_ ∧ _))

/-- What slot `i` gives, and the slot the next read looks at. -/
def Fs.readSlot (fs : Fs) (m : Mem) (i : Nat) : Option (Outcome × Nat) :=
  if ¬ fs.slotMapped i 32 35 then none
  else if 2 < fs.fileType m i then some ((0, []), i)
  else
    match strlen (fs.fileName m i) with
    | none => none
    | some len =>
      if ¬ fs.slotMapped i 0 len then none
      else some ((((min 32 len : Nat) : Int), m.fetch (fs.dentry i) (min 32 len)), i + 1)

/-- What `k` reads give from slot `i` on. -/
def Fs.readSlots (fs : Fs) (m : Mem) : (k i : Nat) → Option (List Outcome)
  | 0, _ => some []
  | k + 1, i => (fs.readSlot m i).bind fun r => (fs.readSlots m k r.2).map fun os => r.1 :: os

/-- The listing stops at slot `i`, whose type is unknown. -/
def Fs.Stops (fs : Fs) (m : Mem) (i : Nat) : Prop := fs.slotMapped i 32 35 ∧ 2 < fs.fileType m i

/-- Slot `i` looks unused: its type is known, and its name is empty. -/
def Fs.Silent (fs : Fs) (m : Mem) (i : Nat) : Prop :=
  fs.slotMapped i 32 35 ∧ fs.fileType m i ≤ 2 ∧ fs.slotMapped i 0 0 ∧ fs.fileName m i 0 = 0

/-- Whether a slot looks unused can be read from it. -/
instance (fs : Fs) (m : Mem) (i : Nat) : Decidable (fs.Silent m i) :=
  inferInstanceAs (Decidable (_ ∧ _ ∧ _ ∧ _))

section Slots

variable {fs : Fs} {m : Mem} {modStart k i : Nat}

/-- A read at a slot of unknown type gives nothing and stays there. -/
lemma readSlot_stops (h : fs.Stops m i) : fs.readSlot m i = some ((0, []), i) := by
  rw [Fs.readSlot, if_neg (not_not.mpr h.1), if_pos h.2]

/-- A read at an unused slot gives nothing and goes on. -/
lemma readSlot_silent (h : fs.Silent m i) : fs.readSlot m i = some ((0, []), i + 1) := by
  obtain ⟨mapped, known, first, empty⟩ := h
  have length : strlen (fs.fileName m i) = some 0 :=
    strlen_eq empty (fun k hk => absurd hk (Nat.not_lt_zero k)) (by decide)
  rw [Fs.readSlot, if_neg (not_not.mpr mapped), if_neg (by omega), length]
  dsimp only
  rw [if_neg (not_not.mpr first)]
  rfl

/-- A slot gives nothing only if the listing stops there or it is silent. -/
lemma readSlot_nothing {next : Nat} (h : fs.readSlot m i = some ((0, []), next)) :
    fs.Stops m i ∨ fs.Silent m i := by
  rw [Fs.readSlot] at h
  split at h
  · cases h
  next mapped =>
  split at h
  next unknown => exact .inl ⟨not_not.mp mapped, unknown⟩
  next known =>
  split at h
  · cases h
  next len hlen =>
  split at h
  · cases h
  next first =>
  have zero : ((min 32 len : Nat) : Int) = 0 := congrArg (fun r => r.1.1) (Option.some.inj h)
  have none : len = 0 := by omega
  subst none
  exact .inr ⟨not_not.mp mapped, by omega, not_not.mp first, (strlen_spec hlen).1⟩

/-- One outcome more before the others. -/
lemma map_cons_some {o : Outcome} {os : Option (List Outcome)} {l : List Outcome} :
    os.map (o :: ·) = some (o :: l) ↔ os = some l := by
  cases os with
  | none => simp
  | some l' => simp

/-- Behind the directory there is nothing to list. -/
lemma listed_behind (h : (filesystemInit m modStart).dentryNum m ≤ i) :
    (List.range' i k).map (listed m modStart) = List.replicate k (0, []) := by
  rw [List.eq_replicate_iff, List.length_map, List.length_range']
  refine ⟨rfl, fun o ho => ?_⟩
  obtain ⟨j, hj, rfl⟩ := List.mem_map.mp ho
  rw [List.mem_range'_1] at hj
  exact if_neg (by omega)

end Slots

/-! ## The entries -/

section Entries

variable {m : Mem} {modStart k i : Nat} {s t : Kernel}

/-- A process that can read the files can list the directory. -/
lemma FilesServed.directoryServed (h : FilesServed m modStart k s) :
    DirectoryServed m modStart k s := by
  have below := h.image.below
  rw [imageSize] at below
  refine ⟨⟨h.image.above, by omega, h.image.dentryNum, h.image.nonempty,
      h.image.fileType⟩, ?_, ?_, h.runs⟩
  · intro a ha
    obtain ⟨low, high⟩ := ha
    refine h.same a ⟨⟨by omega, ?_⟩, low⟩
    rw [imageSize]
    omega
  · obtain ⟨e, served⟩ := h.serves
    rw [served]
    rfl

/-- Where a slot of the directory is. -/
lemma DirectoryServed.dentry (h : DirectoryServed m modStart k s) :
    s.fs.dentry i = modStart + 64 + 64 * i := by
  rw [Fs.dentry, h.boot]

/-- The bytes of the slots of the boot block are those of the image. -/
lemma DirectoryServed.byte (h : DirectoryServed m modStart k s) {j : Nat}
    (hi : 64 + 64 * i + j < 4096) :
    s.mem.byte (s.fs.dentry i + j) = m.byte ((filesystemInit m modStart).dentry i + j) := by
  have below := h.image.below
  have place : (filesystemInit m modStart).dentry i = modStart + 64 + 64 * i := rfl
  rw [h.dentry, place, Mem.byte_of_lt (by omega), Mem.byte_of_lt (by omega)]
  exact h.same _ ⟨by omega, by omega⟩

/-- The slots of the boot block are mapped. -/
lemma DirectoryServed.mapped (h : DirectoryServed m modStart k s) {j j' : Nat}
    (hj : 64 + 64 * i + j < 4096) (hj' : 64 + 64 * i + j' < 4096) : s.fs.slotMapped i j j' := by
  have above := h.image.above
  have below := h.image.below
  rw [Fs.slotMapped, KernelPtr, KernelPtr, endOfKernel, h.dentry, Nat.mod_eq_of_lt (by omega)]
  omega

/-- The slot of an entry gives its name. -/
lemma DirectoryServed.readSlot (h : DirectoryServed m modStart k s)
    (hi : i < (filesystemInit m modStart).dentryNum m) :
    s.fs.readSlot s.mem i = some (listed m modStart i, i + 1) := by
  have few := h.image.dentryNum
  have known := h.image.fileType i hi
  have type : s.fs.fileType s.mem i = (filesystemInit m modStart).fileType m i := by
    rw [Fs.fileType, Fs.fileType]
    apply word_transfer
    intro j hj
    have byte := h.byte (i := i) (j := 32 + j) (by omega)
    rw [← Nat.add_assoc, ← Nat.add_assoc] at byte
    exact byte
  have name (j : Nat) (hj : j ≤ 33) :
      s.fs.fileName s.mem i j = (filesystemInit m modStart).fileName m i j := h.byte (by omega)
  -- the second byte of the type ends a name that has no terminator of its own
  have ends : (filesystemInit m modStart).fileName m i 33 = 0 := by
    rw [Fs.fileType, Mem.word] at known
    apply UInt8.toNat_inj.mp
    show (m.byte ((filesystemInit m modStart).dentry i + 32 + 1)).toNat = 0
    omega
  obtain ⟨len, hlen, clamp⟩ := strlen_entryName ⟨33, by decide, ends⟩
  obtain ⟨len', short, hlen'⟩ := strlen_of_nul ends (by decide)
  obtain rfl := Option.some.inj (hlen'.symm.trans hlen)
  rw [fileNameLength] at clamp
  have length : min 32 len' = ((filesystemInit m modStart).entryName m i).length := by
    rw [← clamp]
    split_ifs <;> omega
  have bytes : s.mem.fetch (s.fs.dentry i) (min 32 len')
      = (filesystemInit m modStart).entryName m i := by
    obtain ⟨l, le, e, -⟩ := entryName_spec (filesystemInit m modStart) m i
    have count : min 32 len' = l := by rw [length, e, List.length_map, List.length_range]
    rw [count, e, Mem.fetch]
    exact List.map_congr_left fun j hj => name j (by have lt := List.mem_range.mp hj; omega)
  rw [Fs.readSlot, if_neg (not_not.mpr (h.mapped (by omega) (by omega))), if_neg (by omega),
    strlen_congr name ends, hlen']
  dsimp only
  rw [if_neg (not_not.mpr (h.mapped (by omega) (by omega))), bytes, length, listed, if_pos hi]

/-- **The enumeration** gives what the reads have to return exactly when it comes to nothing but
silent slots behind the last entry, up to one at which it stops. -/
lemma DirectoryServed.readSlots_iff (h : DirectoryServed m modStart k s) {n p : Nat} :
    s.fs.readSlots s.mem n p = some ((List.range' p n).map (listed m modStart)) ↔
      ∀ i, (filesystemInit m modStart).dentryNum m ≤ i → p ≤ i → i < p + n →
        (∃ j, (filesystemInit m modStart).dentryNum m ≤ j ∧ p ≤ j ∧ j ≤ i ∧ s.fs.Stops s.mem j) ∨
          s.fs.Silent s.mem i := by
  induction n generalizing p with
  | zero => exact ⟨fun _ i _ low high => by omega, fun _ => rfl⟩
  | succ n ih =>
      rw [Fs.readSlots, List.range'_succ, List.map_cons]
      rcases Nat.lt_or_ge p ((filesystemInit m modStart).dentryNum m) with entry | behind
      · rw [h.readSlot entry, Option.bind_some]
        dsimp only
        rw [map_cons_some, ih]
        constructor
        · intro silent i low from_p high
          rcases silent i low (by omega) (by omega) with ⟨j, hj, from_j, le, stops⟩ | silent
          · exact .inl ⟨j, hj, by omega, le, stops⟩
          · exact .inr silent
        · intro silent i low from_p high
          rcases silent i low (by omega) (by omega) with ⟨j, hj, from_j, le, stops⟩ | silent
          · exact .inl ⟨j, hj, by omega, le, stops⟩
          · exact .inr silent
      · have first : listed m modStart p = (0, []) := if_neg (by omega)
        have same := ih (p := p)
        have next := ih (p := p + 1)
        rw [listed_behind behind] at same
        rw [listed_behind (by omega)] at next
        rw [listed_behind (by omega), first]
        by_cases stops : s.fs.Stops s.mem p
        · -- the position stays at this slot
          rw [readSlot_stops stops, Option.bind_some]
          dsimp only
          rw [map_cons_some, same]
          exact iff_of_true (fun i _ from_p _ => .inl ⟨p, behind, Nat.le_refl p, from_p, stops⟩)
            fun i _ from_p _ => .inl ⟨p, behind, Nat.le_refl p, from_p, stops⟩
        by_cases silent : s.fs.Silent s.mem p
        · rw [readSlot_silent silent, Option.bind_some]
          dsimp only
          rw [map_cons_some, next]
          constructor
          · intro rest i low from_p high
            rcases Nat.eq_or_lt_of_le from_p with rfl | later
            · exact .inr silent
            rcases rest i low later (by omega) with ⟨j, hj, from_j, le, stop⟩ | silent
            · exact .inl ⟨j, hj, by omega, le, stop⟩
            · exact .inr silent
          · intro rest i low from_p high
            rcases rest i low (by omega) (by omega) with ⟨j, hj, from_j, le, stop⟩ | silent
            · rcases Nat.eq_or_lt_of_le from_j with rfl | later
              · exact absurd stop stops
              · exact .inl ⟨j, hj, later, le, stop⟩
            · exact .inr silent
        · refine iff_of_false (fun given => ?_) (fun rest => ?_)
          · obtain ⟨⟨o, next⟩, slot, tail⟩ := Option.bind_eq_some_iff.mp given
            obtain ⟨os, -, e⟩ := Option.map_eq_some_iff.mp tail
            obtain rfl : o = (0, []) := (List.cons.inj e).1
            exact (readSlot_nothing slot).elim stops silent
          · rcases rest p behind (Nat.le_refl p) (by omega) with ⟨j, -, from_j, le, stop⟩ | here
            · obtain rfl : j = p := Nat.le_antisymm le from_j
              exact stops stop
            · exact silent here

end Entries

/-! ## The reads -/

section Reads

variable {m m' : Mem} {fs : Fs} {modStart k p i : Nat} {s t : Kernel} {fd : BitVec 32}

/-- The state of the reads: the next one looks at slot `p`. Its bytes are those of `s`, where the
reads began. -/
structure ListState (k : Nat) (fd : BitVec 32) (p : Nat) (s t : Kernel) : Prop where
  process : RunsIn k t
  dir : DirectoryOpen t fd.toNat p
  fs : ∃ a, t.fs = s.fs.atEntry a
  low : SameOn Low s.mem t.mem
  reach : s.fs.dentry p ≤ 0x00800040

/-- A slot gives as many bytes as it says, and the reads stay there or go on to the next slot. -/
lemma readSlot_cases {o : Outcome} {next : Nat} (h : fs.readSlot m i = some (o, next)) :
    o.1 = (o.2.length : Nat) ∧ o.2.length ≤ 32 ∧
      fs.slotMapped i 32 35 ∧ (next = i ∨ next = i + 1) := by
  rw [Fs.readSlot] at h
  split at h
  · cases h
  next mapped =>
  split at h
  · cases h
    exact ⟨rfl, Nat.zero_le _, not_not.mp mapped, .inl rfl⟩
  split at h
  · cases h
  split at h
  · cases h
  · cases h
    rw [Mem.length_fetch]
    exact ⟨rfl, Nat.min_le_left .., not_not.mp mapped, .inr rfl⟩

/-- The addresses of a mapped part of a slot. -/
lemma slotMapped_iff (reach : fs.dentry i ≤ 0x00800040) {j j' : Nat} : fs.slotMapped i j j' ↔
    (0x00400000 ≤ fs.dentry i + j ∧ fs.dentry i + j < 0x00800000) ∧
      0x00400000 ≤ fs.dentry i + j' ∧ fs.dentry i + j' < 0x00800000 := by
  rw [Fs.slotMapped, KernelPtr, KernelPtr, endOfKernel, Nat.mod_eq_of_lt (by omega)]
  omega

/-- A slot's bytes are in the kernel's page, so it gives the same when nothing there has changed. -/
lemma readSlot_congr (same : SameOn Low m m') (reach : fs.dentry i ≤ 0x00800040) :
    fs.readSlot m' i = fs.readSlot m i := by
  have byte (a : Nat) (ha : a < 0x00800000) : m'.byte a = m.byte a := by
    rw [Mem.byte_of_lt (by omega), Mem.byte_of_lt (by omega)]
    exact same a ha
  rw [Fs.readSlot, Fs.readSlot]
  by_cases mapped : fs.slotMapped i 32 35
  · have type : fs.fileType m' i = fs.fileType m i := by
      rw [slotMapped_iff reach] at mapped
      exact Mem.word_congr fun j hj => byte _ (by omega)
    rw [if_neg (not_not.mpr mapped), if_neg (not_not.mpr mapped), type]
    split_ifs with unknown
    · rfl
    have name (j : Nat) (hj : fs.dentry i + j < 0x00800000) :
      fs.fileName m' i j = fs.fileName m i j :=
      byte _ hj
    by_cases ends : ∃ z, fs.dentry i + z < 0x00800000 ∧ fs.fileName m i z = 0
    · obtain ⟨z, inside, zero⟩ := ends
      obtain ⟨len, le, hlen⟩ := strlen_of_nul zero (by omega)
      have fetched : m'.fetch (fs.dentry i) (min 32 len) = m.fetch (fs.dentry i) (min 32 len) :=
        List.map_congr_left fun j hj => name j (by have lt := List.mem_range.mp hj; omega)
      rw [strlen_congr (fun j hj => name j (by omega)) zero, hlen]
      dsimp only
      rw [fetched]
    · -- a name that does not end in the page is read past it
      have faults (m₁ : Mem) (open_name : ∀ z, fs.dentry i + z < 0x00800000 →
        fs.fileName m₁ i z ≠ 0) :
          (match strlen (fs.fileName m₁ i) with
            | none => none
            | some len => if ¬ fs.slotMapped i 0 len then none
              else some ((((min 32 len : Nat) : Int), m₁.fetch (fs.dentry i) (min 32 len)), i + 1))
            = none := by
        cases hlen : strlen (fs.fileName m₁ i) with
        | none => rfl
        | some len =>
            have out : ¬ fs.slotMapped i 0 len := by
              rw [slotMapped_iff reach]
              rintro ⟨-, -, inside⟩
              exact open_name len inside (strlen_spec hlen).1
            exact if_pos out
      have open_name (z : Nat) (inside : fs.dentry i + z < 0x00800000) : fs.fileName m i z ≠ 0 :=
        fun zero => ends ⟨z, inside, zero⟩
      rw [faults m open_name, faults m' fun z inside => (name z inside).symm ▸ open_name z inside]
  · rw [if_pos mapped, if_pos mapped]

/-- `directory_read` gives what the slot gives. -/
lemma directoryRead_slot {fd : Nat} {buf n : BitVec 32} (at_p : (s.proc.fd fd).position = p)
    (null : buf ≠ 0) (long : 32 ≤ n.toNat) (small : n.toNat < 2 ^ 31) :
    s.directoryRead fd buf n = (s.fs.readSlot s.mem p).map fun r => ⟨r.1.1, r.1.2,
      if r.2 = p then { s with fs.curfile := s.fs.dentry p }
      else ({ s with fs.curfile := s.fs.dentry p } : Kernel).advance fd 1⟩ := by
  let t : Kernel := { s with fs.curfile := s.fs.dentry p }
  have type : t.fs.fileType t.mem p = s.fs.fileType s.mem p := rfl
  have name : t.fs.fileName t.mem p = s.fs.fileName s.mem p := rfl
  have sign := BitVec.toInt_eq_toNat_cond n
  rw [if_pos (by omega)] at sign
  rw [Kernel.directoryRead, Fs.readSlot]
  dsimp only
  rw [at_p]
  by_cases hm : t.entryMapped 32 35
  · have slot : s.fs.slotMapped p 32 35 := hm
    rw [if_neg (not_not.mpr hm), if_neg (not_not.mpr slot), type, name]
    by_cases known : s.fs.fileType s.mem p ≤ 2
    · have is_known : ¬ (s.fs.fileType s.mem p ≠ 0 ∧ s.fs.fileType s.mem p ≠ 1 ∧
          s.fs.fileType s.mem p ≠ 2) := by omega
      have goes_on : ¬ 2 < s.fs.fileType s.mem p := by omega
      rw [if_neg is_known, if_neg null, if_neg goes_on]
      cases strlen (s.fs.fileName s.mem p) with
      | none => rfl
      | some len =>
          dsimp only
          by_cases hl : t.entryMapped 0 len
          · have slot : s.fs.slotMapped p 0 len := hl
            have length :
                  (if (if n.toInt > fileNameLength then fileNameLength else n.toNat) > len then len
                else if n.toInt > fileNameLength then fileNameLength else n.toNat)
                  = min 32 len := by
              rw [fileNameLength]
              split_ifs <;> omega
            rw [if_neg (not_not.mpr hl), if_neg (not_not.mpr slot), length, int32_of_lt (by omega),
              Option.map_some, if_neg (Nat.succ_ne_self p), Kernel.advance]
            dsimp only
            rw [at_p]
            rfl
          · have slot : ¬ s.fs.slotMapped p 0 len := hl
            rw [if_pos hl, if_pos slot]
            rfl
    · have is_unknown : s.fs.fileType s.mem p ≠ 0 ∧ s.fs.fileType s.mem p ≠ 1 ∧
          s.fs.fileType s.mem p ≠ 2 := by omega
      have stops : 2 < s.fs.fileType s.mem p := by omega
      rw [if_pos is_unknown, if_pos stops, Option.map_some, if_pos rfl]
  · have slot : ¬ s.fs.slotMapped p 32 35 := hm
    rw [if_pos hm, if_pos slot]
    rfl

/-- The state after a read that goes on to slot `next`, the stores at the buffer apart. -/
def Kernel.afterSlot (s : Kernel) (fd p next : Nat) : Kernel :=
  if next = p then { s with fs.curfile := s.fs.dentry p }
  else ({ s with fs.curfile := s.fs.dentry p } : Kernel).advance fd 1

/-- A read of the directory leaves the process in its page. -/
lemma RunsIn.afterSlot (h : RunsIn k t) (fd p next : Nat) : RunsIn k (t.afterSlot fd p next) := by
  rw [Kernel.afterSlot]
  split_ifs
  · exact ⟨h.fdArray, h.page, h.low, h.high⟩
  · exact ⟨h.fdArray, h.page, h.low, h.high⟩

/-- The state behind the next read. -/
lemma ListState.next (h : ListState k fd p s t) {o : Outcome} {next : Nat}
    (slot : s.fs.readSlot s.mem p = some (o, next)) (buf : BitVec 32) (bytes : List UInt8) :
    ListState k fd next s ((t.afterSlot fd.toNat p next).storeUser k buf bytes) := by
  obtain ⟨-, -, mapped, goes⟩ := readSlot_cases slot
  have reach := h.reach
  rw [slotMapped_iff reach] at mapped
  have place : s.fs.dentry (p + 1) = s.fs.dentry p + 64 := by
    rw [Fs.dentry, Fs.dentry]
    omega
  obtain ⟨a, fs⟩ := h.fs
  have after_fs : (t.afterSlot fd.toNat p next).fs = s.fs.atEntry (t.fs.dentry p) := by
    rw [Kernel.afterSlot]
    split_ifs
    · show t.fs.atEntry (t.fs.dentry p) = _
      rw [fs]
      rfl
    · show t.fs.atEntry (t.fs.dentry p) = _
      rw [fs]
      rfl
  have after_mem : (t.afterSlot fd.toNat p next).mem = t.mem := by
    rw [Kernel.afterSlot]
    split_ifs <;> rfl
  have after_runs := h.process.afterSlot fd.toNat p next
  refine ⟨after_runs.storeUser, ?_, ⟨_, (fs_storeUser _).trans after_fs⟩, ?_, ?_⟩
  · have dir := h.dir
    have small : p < 2 ^ 20 := by
      rw [Fs.dentry] at reach
      omega
    have entry : (t.afterSlot fd.toNat p next).proc.fd fd.toNat
        = { t.proc.fd fd.toNat with position := next } := by
      rw [Kernel.afterSlot]
      rcases goes with rfl | rfl
      · rw [if_pos rfl]
        show t.proc.fd fd.toNat = _
        rw [← dir.position]
      · rw [if_neg (Nat.succ_ne_self p), fd_advance, if_pos rfl]
        show { t.proc.fd fd.toNat with position := add32 (t.proc.fd fd.toNat).position 1 } = _
        rw [dir.position, add32_of_lt (by omega)]
    constructor
    · exact dir.low
    · exact dir.high
    all_goals rw [proc_storeUser, entry]
    · exact dir.flags
    · exact dir.table
  · have stored : SameOn Low (t.afterSlot fd.toNat p next).mem
        ((t.afterSlot fd.toNat p next).storeUser k buf bytes).mem := after_runs.low_storeUser
    rw [after_mem] at stored
    exact h.low.trans stored
  · rcases goes with rfl | rfl
    · exact reach
    · omega

/-- **The reads refine the enumeration**: one read gives what the slot gives. -/
lemma ListState.step (h : ListState k fd p s t) (other : fd.toNat ≠ 7) (c : DirectoryRead)
    (log : List Outcome) :
    listStep fd (t, log) c = (s.fs.readSlot s.mem p).map fun r =>
      ((t.afterSlot fd.toNat p r.2).storeUser k c.buf r.1.2, log ++ [r.1]) := by
  have dir := h.dir
  have high := dir.high
  rw [fdarrayMax] at high
  obtain ⟨low, inside⟩ := c.page
  have null : c.buf ≠ 0 := by
    intro e
    rw [e] at low
    exact absurd low (by decide)
  have small : c.n.toNat < 2 ^ 31 := by
    have top : userEnd < 2 ^ 31 := by decide
    omega
  have slot : t.fs.readSlot t.mem p = s.fs.readSlot s.mem p := by
    obtain ⟨a, fs⟩ := h.fs
    have same : (s.fs.atEntry a).readSlot t.mem p = s.fs.readSlot t.mem p := rfl
    rw [fs, same, readSlot_congr h.low h.reach]
  have read : t.tableRead fd.toNat c.buf c.n (t.proc.fd fd.toNat).fileotPointer
      = (s.fs.readSlot s.mem p).map fun r => ⟨r.1.1, r.1.2, t.afterSlot fd.toNat p r.2⟩ := by
    rw [dir.table, Kernel.tableRead, if_pos dir.high,
      directoryRead_slot dir.position null c.long small,
      slot]
    rfl
  have paging (next : Nat) : (t.afterSlot fd.toNat p next).paging = t.paging := by
    rw [Kernel.afterSlot]
    split_ifs <;> rfl
  have sysRead := h.process.sysRead c.page dir.low (by omega) dir.flags read fun res hres => by
    obtain ⟨⟨o, next⟩, hr, rfl⟩ := Option.map_eq_some_iff.mp (Option.mem_def.mp hres)
    obtain ⟨-, few, -⟩ := readSlot_cases hr
    exact ⟨paging next, Nat.le_trans few c.long⟩
  rw [listStep, sysRead, Option.map_map, Option.map_map]
  cases hr : s.fs.readSlot s.mem p with
  | none => rfl
  | some r =>
      obtain ⟨⟨ret, bytes⟩, next⟩ := r
      obtain ⟨count, few, -⟩ := readSlot_cases hr
      dsimp only at count few
      have returned := (h.process.afterSlot fd.toNat p next).returned c.page
        (Nat.le_trans few c.long)
      rw [← count] at returned
      simp only [Option.map_some, Function.comp_apply, returned]

/-- So a run of reads gives what the enumeration gives. -/
lemma ListState.run (h : ListState k fd p s t) (other : fd.toNat ≠ 7) (cs : List DirectoryRead)
    (log : List Outcome) : (runs (listStep fd) (t, log) cs).map Prod.snd
      = (s.fs.readSlots s.mem cs.length p).map (log ++ ·) := by
  induction cs generalizing t p log with
  | nil => simp [Fs.readSlots]
  | cons c cs ih =>
      rw [runs_cons, h.step other c log, List.length_cons, Fs.readSlots]
      cases slot : s.fs.readSlot s.mem p with
      | none => rfl
      | some r =>
          obtain ⟨o, next⟩ := r
          rw [Option.map_some, Option.bind_some, Option.bind_some,
            ih (h.next slot c.buf o.2), Option.map_map]
          congr 1
          funext os
          rw [Function.comp_apply, List.append_assoc, List.singleton_append]

/-- Reads of descriptor 7 are refused. -/
lemma refused_run (seven : fd.toNat = 7) (cs : List DirectoryRead) (log : List Outcome) :
    runs (listStep fd) (t, log) cs = some (t, log ++ List.replicate cs.length (-1, [])) := by
  induction cs generalizing log with
  | nil => rw [runs_nil, List.length_nil, List.replicate_zero, List.append_nil]
  | cons c cs ih =>
      have refused : listStep fd (t, log) c = some (t, log ++ [(-1, [])]) := by
        rw [listStep, sysRead_seven c.page seven]
        rfl
      rw [runs_cons, refused, Option.bind_some, ih, List.append_assoc, List.length_cons,
        List.replicate_succ, List.singleton_append]

/-- What the reads have to return is what the enumeration has to give. -/
lemma DirectoryServed.lists (h : DirectoryServed m modStart k s) (dir : DirectoryOpen s fd.toNat 0)
    (other : fd.toNat ≠ 7) (cs : List DirectoryRead) : Lists m modStart s fd cs ↔
      s.fs.readSlots s.mem cs.length 0 = some ((List.range' 0 cs.length).map
        (listed m modStart)) := by
  have start : ListState k fd 0 s s := by
    refine ⟨h.runs, dir, ⟨s.fs.curfile, rfl⟩, .refl, ?_⟩
    have below := h.image.below
    rw [h.dentry]
    omega
  have run := start.run other cs []
  rw [Lists, List.range_eq_range']
  constructor
  · rintro ⟨s', e⟩
    rw [e] at run
    obtain ⟨os, ho, eo⟩ := Option.map_eq_some_iff.mp run.symm
    rw [ho]
    exact congrArg some eo
  · intro e
    rw [e] at run
    obtain ⟨⟨s', os⟩, ho, rfl⟩ := Option.map_eq_some_iff.mp run
    exact ⟨s', ho⟩

/-- **The listing ends where the directory does** exactly when the descriptor is not 7 and
everything the reads come to behind the last entry is silent, up to a slot at which they stop. -/
theorem lists_iff (h : DirectoryServed m modStart k s) (dir : DirectoryOpen s fd.toNat 0)
    (cs : List DirectoryRead) :
    Lists m modStart s fd cs ↔ cs = [] ∨ fd.toNat ≠ 7 ∧
      ∀ i, (filesystemInit m modStart).dentryNum m ≤ i → i < cs.length →
        (∃ j, (filesystemInit m modStart).dentryNum m ≤ j ∧ j ≤ i ∧ s.fs.Stops s.mem j) ∨
          s.fs.Silent s.mem i := by
  by_cases seven : fd.toNat = 7
  · rw [or_iff_left fun both => both.1 seven]
    constructor
    · rintro ⟨s', run⟩
      cases cs with
      | nil => rfl
      | cons c cs =>
          rw [refused_run seven, List.nil_append, List.length_cons, List.replicate_succ,
            List.range_succ_eq_map, List.map_cons] at run
          have first : ((-1, []) : Outcome) = listed m modStart 0 :=
            (List.cons.inj (Prod.mk.inj (Option.some.inj run)).2).1
          have value := congrArg Prod.fst first
          rw [listed] at value
          split_ifs at value
          · exact absurd value (by simp)
          · exact absurd value (by decide)
    · rintro rfl
      exact ⟨s, rfl⟩
  · rw [h.lists dir seven, h.readSlots_iff]
    constructor
    · intro silent
      refine .inr ⟨seven, fun i low high => ?_⟩
      rcases silent i low (Nat.zero_le i) (by omega) with ⟨j, hj, -, le, stops⟩ | silent
      · exact .inl ⟨j, hj, le, stops⟩
      · exact .inr silent
    · rintro (rfl | ⟨-, silent⟩) i low - high
      · rw [List.length_nil] at high
        omega
      · rcases silent i low (by omega) with ⟨j, hj, le, stops⟩ | silent
        · exact .inl ⟨j, hj, Nat.zero_le j, le, stops⟩
        · exact .inr silent

end Reads

/-- A read of 32 bytes. -/
def directoryRead_sample : DirectoryRead := ⟨0x08048100, 32, by decide, by decide, by decide⟩

/-- The shell of the small machine with the directory open. -/
lemma directoryOpen_sample : ∃ s k, fileShell ['.'] = some s ∧
    DirectoryServed sampleRam 0x600000 k s ∧
    DirectoryOpen s (2#32).toNat 0 := by
  have facts : (fileShell ['.']).map (fun s => ((s.proc.fd 2).flags, (s.proc.fd 2).fileotPointer,
      (s.proc.fd 2).position)) = some (1, 1, 0) := by decide +kernel
  obtain ⟨s, hs, e⟩ := Option.map_eq_some_iff.mp facts
  simp only [Prod.mk.injEq] at e
  obtain ⟨flags, table, position⟩ := e
  obtain ⟨k, served⟩ := filesServed_fileShell hs
  refine ⟨s, k, hs, served.directoryServed, by decide, by decide, ?_, table, position⟩
  exact ne_of_eq_of_ne flags (by decide)

/-- Six reads list the four entries and find two blank slots. -/
theorem lists_iff_sample : ∃ s : Kernel, fileShell ['.'] = some s ∧
    Lists sampleRam 0x600000 s 2#32 (List.replicate 6 directoryRead_sample) := by
  obtain ⟨s, k, hs, served, dir⟩ := directoryOpen_sample
  have blank : (fileShell ['.']).map (fun s => decide (s.fs.Silent s.mem 4 ∧ s.fs.Silent s.mem 5))
      = some true := by decide +kernel
  rw [hs, Option.map_some, Option.some.injEq, decide_eq_true_eq] at blank
  have four : (filesystemInit sampleRam 0x600000).dentryNum sampleRam = 4 := by decide +kernel
  refine ⟨s, hs, (lists_iff served dir _).mpr (Or.inr ⟨by decide, fun i low high => Or.inr ?_⟩)⟩
  rw [four] at low
  rw [List.length_replicate] at high
  obtain rfl | rfl : i = 4 ∨ i = 5 := by omega
  · exact blank.1
  · exact blank.2

/-- The read of number 63 looks at the first index node, and returns the length of the first file as
a name. -/
theorem not_always_lists : ¬ ∀ (m : Mem) (modStart k : Nat) (s : Kernel) (fd : BitVec 32),
    DirectoryServed m modStart k s → DirectoryOpen s fd.toNat 0 →
    ∀ cs : List DirectoryRead, Lists m modStart s fd cs := by
  intro claim
  obtain ⟨s, k, hs, served, dir⟩ := directoryOpen_sample
  have lists := claim _ _ k s 2#32 served dir (List.replicate 64 directoryRead_sample)
  rw [served.lists dir (by decide), served.readSlots_iff] at lists
  have facts : (fileShell ['.']).map (fun s => (s.fs.fileName s.mem 63 0,
      (List.range 64).all fun j => decide (s.fs.fileType s.mem j ≤ 2))) = some (28, true) := by
    decide +kernel
  rw [hs, Option.map_some, Option.some.injEq, Prod.mk.injEq] at facts
  obtain ⟨name, known⟩ := facts
  rcases lists 63 (by decide +kernel) (by decide) (by decide) with ⟨j, -, -, le, -, stops⟩ | silent
  · have type := of_decide_eq_true (List.all_eq_true.mp known j (List.mem_range.mpr (by omega)))
    omega
  · exact absurd (name.symm.trans silent.2.2.2) (by decide)

end Kernel391
