import Kernel391.Files.Image

/-!
# Looking up a name

`read_dentry_by_name` compares a name with the first 17 slots of the directory. A slot matches
exactly the name it carries, also where the name fills its field and has no terminator; so the
lookup finds every entry of those slots, and none behind them. The record it fills is a copy of the
entry.
-/

namespace Kernel391
open Base

/-- The name a directory slot carries: the bytes of its field up to the first NUL, if there is
one. -/
def Fs.entryName (fs : Fs) (m : Mem) (i : Nat) : List UInt8 :=
  upToNul ((List.range fileNameLength).map (fs.fileName m i))

/-! ## The copy `read_dentry_by_index` makes -/

section Copies

variable {m : Mem} {fs : Fs} {st : Stores} {f g φ : Nat → UInt8} {ret : Int} {i : Nat}

/-- The four bytes of a word of memory. -/
lemma wordBytes_word (a : Nat) :
    wordBytes (m.word a) = [m.byte a, m.byte (a + 1), m.byte (a + 2), m.byte (a + 3)] := by
  have h0 := (m.byte a).toNat_lt
  have h1 := (m.byte (a + 1)).toNat_lt
  have h2 := (m.byte (a + 2)).toNat_lt
  have h3 := (m.byte (a + 3)).toNat_lt
  have byte {w : Nat} {b : UInt8} (h : w % 256 = b.toNat) : UInt8.ofNat w = b := by
    apply UInt8.toNat_inj.mp
    rw [UInt8.toNat_ofNat']
    exact h
  rw [wordBytes, Mem.word, byte (b := m.byte a) (by omega), byte (b := m.byte (a + 1)) (by omega),
    byte (b := m.byte (a + 2)) (by omega), byte (b := m.byte (a + 3)) (by omega)]

/-- Stores of a part of a record are copies of it. -/
lemma storesAt_copies (o n : Nat) : ∀ ob ∈ storesAt o ((List.range' o n).map f), ob.2 = f ob.1 := by
  induction n generalizing o with
  | zero =>
      intro ob h
      cases h
  | succ n ih =>
      intro ob h
      rw [List.range'_succ, List.map_cons, storesAt] at h
      rcases List.mem_cons.mp h with rfl | h
      · rfl
      · exact ih (o + 1) ob h

/-- The bytes a copy stores. -/
lemma mem_storesAt (f : Nat → UInt8) {o n x : Nat} (low : o ≤ x) (high : x < o + n) :
    (x, f x) ∈ storesAt o ((List.range' o n).map f) := by
  induction n generalizing o with
  | zero => omega
  | succ n ih =>
      rw [List.range'_succ, List.map_cons, storesAt]
      rcases Nat.eq_or_lt_of_le low with rfl | lt
      · exact List.mem_cons_self
      · exact List.mem_cons_of_mem _ (ih (by omega) (by omega))

/-- A copy stores no further than its length. -/
lemma storesAt_lt (o : Nat) (l : List UInt8) : ∀ ob ∈ storesAt o l, ob.1 < o + l.length := by
  induction l generalizing o with
  | nil =>
      intro ob h
      cases h
  | cons b l ih =>
      intro ob h
      rw [storesAt] at h
      rw [List.length_cons]
      rcases List.mem_cons.mp h with rfl | h
      · show o < o + (l.length + 1)
        omega
      · have := ih (o + 1) ob h
        omega

/-- So are the bytes `strcpy` stores, its terminator included. -/
lemma strcpy_range {o : Nat} {l : List UInt8} (h : strcpy (fun k => f (o + k)) = some l) :
    ∃ n, l = (List.range' o n).map f := by
  obtain ⟨n, hn, rfl⟩ := Option.map_eq_some_iff.mp h
  obtain ⟨zero, -⟩ := strlen_spec hn
  refine ⟨n + 1, ?_⟩
  rw [List.range'_concat, List.map_append, List.map_singleton, Nat.one_mul, zero,
    List.range'_eq_map_range, List.map_map]
  rfl

/-- The stores of `read_dentry_by_index` copy the entry; its type and its inode are among them. -/
lemma readDentryByIndex_copies (run : readDentryByIndex m fs i = some (ret, st))
    (valid : i ≤ fs.dentryNum m) : (∀ ob ∈ st, ob.2 = m.byte (fs.dentry i + ob.1)) ∧
      ∀ k < 8, ∃ ob ∈ st, ob.1 = 32 + k := by
  rw [readDentryByIndex, if_neg (by omega)] at run
  split at run
  next name reserved hname hreserved =>
    obtain ⟨-, rfl⟩ := Prod.mk.inj (Option.some.inj run)
    have byte (o : Nat) : wordBytes (m.word (fs.dentry i + o))
        = (List.range' o 4).map fun x => m.byte (fs.dentry i + x) := wordBytes_word _
    have nameStart : fs.fileName m i = fun k => m.byte (fs.dentry i + (0 + k)) := by
      funext k
      rw [Nat.zero_add]
      rfl
    have reservedStart : fs.reserved m i = fun k => m.byte (fs.dentry i + (40 + k)) := by
      funext k
      rw [← Nat.add_assoc]
      rfl
    rw [nameStart] at hname
    rw [reservedStart] at hreserved
    obtain ⟨n, rfl⟩ := strcpy_range (f := fun x => m.byte (fs.dentry i + x)) hname
    obtain ⟨n', rfl⟩ := strcpy_range (f := fun x => m.byte (fs.dentry i + x)) hreserved
    rw [Fs.fileType, Fs.inodeIndex, byte 32, byte 36]
    constructor
    · intro ob h
      rcases List.mem_append.mp h with h | h
      · rcases List.mem_append.mp h with h | h
        · rcases List.mem_append.mp h with h | h
          · exact storesAt_copies 32 4 ob h
          · exact storesAt_copies 36 4 ob h
        · exact storesAt_copies 0 n ob h
      · exact storesAt_copies 40 n' ob h
    · intro k hk
      refine ⟨(32 + k, m.byte (fs.dentry i + (32 + k))), ?_, rfl⟩
      apply List.mem_append_left
      apply List.mem_append_left
      rcases Nat.lt_or_ge k 4 with lt | ge
      · exact List.mem_append_left _ (mem_storesAt _ (by omega) (by omega))
      · exact List.mem_append_right _ (mem_storesAt _ (by omega) (by omega))
  next => cases run

/-- A record whose two strings end in time is copied, and fits a record. -/
lemma readDentryByIndex_fits (valid : i ≤ fs.dentryNum m) (name : ∃ z < 64, fs.fileName m i z = 0)
    (reserved : ∃ z < 24, fs.reserved m i z = 0) :
    ∃ st, readDentryByIndex m fs i = some (0, st) ∧ ∀ ob ∈ st, ob.1 < 64 := by
  obtain ⟨z, hz, nul⟩ := name
  obtain ⟨z', hz', nul'⟩ := reserved
  obtain ⟨n, hn, e⟩ := strlen_of_nul nul (by omega)
  obtain ⟨n', hn', e'⟩ := strlen_of_nul nul' (by omega)
  rw [readDentryByIndex, if_neg (by omega), strcpy, strcpy, e, e', Option.map_some, Option.map_some]
  dsimp only
  refine ⟨_, rfl, fun ob h => ?_⟩
  rcases List.mem_append.mp h with h | h
  · rcases List.mem_append.mp h with h | h
    · rcases List.mem_append.mp h with h | h
      · have lt : ob.1 < 32 + 4 := storesAt_lt _ _ ob h
        omega
      · have lt : ob.1 < 36 + 4 := storesAt_lt _ _ ob h
        omega
    · have lt := storesAt_lt _ _ ob h
      rw [List.length_append, List.length_map, List.length_range, List.length_singleton] at lt
      omega
  · have lt := storesAt_lt _ _ ob h
    rw [List.length_append, List.length_map, List.length_range, List.length_singleton] at lt
    omega

/-- What a loop of stores leaves at an address, when every store there is of the same value. -/
lemma foldl_stores {φ : Nat → Nat} {x : Nat} {v : UInt8}
    (copies : ∀ ob ∈ st, φ ob.1 = x → ob.2 = v) (h : g x = v ∨ ∃ ob ∈ st, φ ob.1 = x) :
    st.foldl (fun d ob => Function.update d (φ ob.1) ob.2) g x = v := by
  induction st generalizing g with
  | nil =>
      rcases h with e | ⟨ob, hob, -⟩
      · exact e
      · cases hob
  | cons ob st ih =>
      rw [List.foldl_cons]
      apply ih (fun ob' h' => copies ob' (List.mem_cons_of_mem _ h'))
      by_cases e : φ ob.1 = x
      · rw [e, Function.update_self]
        exact .inl (copies ob List.mem_cons_self e)
      · rw [Function.update_of_ne (Ne.symm e)]
        rcases h with e' | ⟨ob', h', e'⟩
        · exact .inl e'
        · rcases List.mem_cons.mp h' with rfl | h'
          · exact absurd e' e
          · exact .inr ⟨ob', h', e'⟩

/-- Words with the same bytes are the same. -/
lemma word_transfer {m' : Mem} {a a' : Nat} (h : ∀ k < 4, m'.byte (a' + k) = m.byte (a + k)) :
    m'.word a' = m.word a := by
  have h0 := h 0 (by omega)
  rw [Nat.add_zero, Nat.add_zero] at h0
  rw [Mem.word, Mem.word, h0, h 1 (by omega), h 2 (by omega), h 3 (by omega)]

/-- Stores that fit a local record are made. -/
lemma localDentry_of_fits (old : Nat → UInt8) (fits : ∀ ob ∈ st, ob.1 < 64) :
    localDentry old st = some (st.foldl (fun d ob => Function.update d ob.1 ob.2) old) :=
  if_pos (List.all_eq_true.mpr fun ob h => decide_eq_true (fits ob h))

/-- What is stored in a local record is the entry's. -/
lemma localDentry_byte {old d : Nat → UInt8} (run : readDentryByIndex m fs i = some (ret, st))
    (valid : i ≤ fs.dentryNum m) (hd : localDentry old st = some d) {k : Nat}
    (stored : ∃ ob ∈ st, ob.1 = k) : d k = m.byte (fs.dentry i + k) := by
  obtain ⟨copies, -⟩ := readDentryByIndex_copies run valid
  rw [localDentry] at hd
  split_ifs at hd
  obtain rfl := Option.some.inj hd
  apply foldl_stores (φ := id)
  · rintro ob h rfl
    exact copies ob h
  · exact .inr stored

/-- A local record has the entry's type and inode. -/
lemma localDentry_fields {old d : Nat → UInt8} (run : readDentryByIndex m fs i = some (ret, st))
    (valid : i ≤ fs.dentryNum m) (hd : localDentry old st = some d) :
    dentryFileType d = fs.fileType m i ∧ dentryInodeIndex d = fs.inodeIndex m i ∧
      ∀ ob ∈ st, ob.1 < 64 := by
  obtain ⟨-, fields⟩ := readDentryByIndex_copies run valid
  have byte (k : Nat) (hk : k < 8) : Mem.byte d (32 + k) = m.byte (fs.dentry i + 32 + k) := by
    rw [Mem.byte_of_lt (by omega), Nat.add_assoc]
    exact localDentry_byte run valid hd (fields k hk)
  rw [localDentry] at hd
  split_ifs at hd with fits
  refine ⟨?_, ?_, fun ob h => of_decide_eq_true (List.all_eq_true.mp fits ob h)⟩
  · exact word_transfer fun k hk => byte k (by omega)
  · refine word_transfer fun k hk => ?_
    have place : fs.dentry i + 36 + k = fs.dentry i + 32 + (4 + k) := by omega
    have place' : 36 + k = 32 + (4 + k) := by omega
    rw [place, place']
    exact byte (4 + k) (by omega)

/-- The entry of a regular file, copied to `a`, puts its type at offset 32. -/
lemma applyStores_fileType {a : Nat} (run : readDentryByIndex m fs i = some (ret, st))
    (valid : i ≤ fs.dentryNum m) (file : fs.fileType m i = 2) (fits : ∀ ob ∈ st, ob.1 < 64)
    (room : a + 64 ≤ 2 ^ 32) : applyStores m a st (a + 32) = 2 := by
  obtain ⟨copies, fields⟩ := readDentryByIndex_copies run valid
  have two : m.byte (fs.dentry i + 32) = 2 := by
    rw [Fs.fileType, Mem.word] at file
    apply UInt8.toNat_inj.mp
    show _ = 2
    omega
  rw [applyStores]
  apply foldl_stores (φ := fun o => (a + o) % 2 ^ 32)
  · intro ob h e
    have lt := fits ob h
    have offset : ob.1 = 32 := by
      omega
    rw [copies ob h, offset, two]
  · obtain ⟨ob, h, e⟩ := fields 0 (by omega)
    exact .inr ⟨ob, h, by omega⟩

end Copies

/-! ## The scan -/

section Scan

variable {m : Mem} {fs : Fs} {fname : List UInt8} {i : Nat}

/-- The name of an entry is its field up to the first NUL, at most 32 bytes. -/
lemma entryName_spec (fs : Fs) (m : Mem) (i : Nat) :
    ∃ l ≤ 32, fs.entryName m i = (List.range l).map (fs.fileName m i) ∧
      (∀ k < l, fs.fileName m i k ≠ 0) ∧ (l < 32 → fs.fileName m i l = 0) := by
  obtain ⟨l, le, e, nonzero, zero⟩ := upToNul_range' (fs.fileName m i) 32 0
  rw [Nat.zero_add] at zero
  rw [Fs.entryName, fileNameLength, List.range_eq_range']
  exact ⟨l, le, by rw [e, List.range_eq_range'],
    fun k hk => nonzero k (Nat.zero_le k) (by omega), zero⟩

/-- A name has at most 32 bytes. -/
lemma length_entryName_le (fs : Fs) (m : Mem) (i : Nat) : (fs.entryName m i).length ≤ 32 := by
  obtain ⟨l, le, e, -, -⟩ := entryName_spec fs m i
  rw [e, List.length_map, List.length_range]
  exact le

/-- A name has no NUL. -/
lemma entryName_nonzero (fs : Fs) (m : Mem) (i : Nat) : ∀ b ∈ fs.entryName m i, b ≠ 0 := by
  obtain ⟨l, -, e, nonzero, -⟩ := entryName_spec fs m i
  rw [e]
  intro b hb
  obtain ⟨k, hk, rfl⟩ := List.mem_map.mp hb
  exact nonzero k (List.mem_range.mp hk)

/-- The clamped length of a slot's string is the length of the name it carries. -/
lemma strlen_entryName (ends : ∃ z < 2 ^ 32, fs.fileName m i z = 0) :
    ∃ len, strlen (fs.fileName m i) = some len ∧
      (if len ≥ fileNameLength then fileNameLength else len) = (fs.entryName m i).length := by
  obtain ⟨z, hz, nul⟩ := ends
  obtain ⟨l, le, e, nonzero, zero⟩ := entryName_spec fs m i
  rw [e, List.length_map, List.length_range, fileNameLength]
  obtain ⟨len, -, hlen⟩ := strlen_of_nul nul hz
  obtain ⟨nul', before⟩ := strlen_spec hlen
  refine ⟨len, hlen, ?_⟩
  rcases Nat.eq_or_lt_of_le le with full | short
  · have beyond : ¬ len < l := fun lt => nonzero len lt nul'
    rw [if_pos (by omega), full]
  · have first : ¬ l < len := fun lt => before l lt (zero short)
    have beyond : ¬ len < l := fun lt => nonzero len lt nul'
    rw [if_neg (by omega)]
    omega

/-- A slot matches the name it carries and no other. -/
lemma slotMatches_eq (ends : ∃ z < 2 ^ 32, fs.fileName m i z = 0) (nonzero : ∀ b ∈ fname, b ≠ 0) :
    slotMatches m fs fname i = some (decide (fname = fs.entryName m i)) := by
  obtain ⟨len, hlen, clamp⟩ := strlen_entryName ends
  obtain ⟨l, -, e, -, -⟩ := entryName_spec fs m i
  have length : (fs.entryName m i).length = l := by
    rw [e, List.length_map, List.length_range]
  rw [slotMatches, hlen, Option.map_some]
  dsimp only
  rw [clamp, length]
  by_cases same : l = fname.length
  · rw [if_neg (not_not.mpr same)]
    have compare : strncmp (cstring fname) (fs.fileName m i) l = 0 ↔ fname = fs.entryName m i := by
      rw [strncmp_eq_zero]
      · rw [e]
        constructor
        · intro h
          apply List.ext_getElem
          · rw [List.length_map, List.length_range, same]
          · intro k hk hk'
            rw [List.getElem_map, List.getElem_range, ← h k (by omega), cstring,
              List.getD_eq_getElem fname 0 hk]
        · intro h k hk
          have hk' : k < fname.length := by omega
          rw [cstring, List.getD_eq_getElem fname 0 hk']
          simp only [h, List.getElem_map, List.getElem_range]
      · intro k hk
        rw [cstring, List.getD_eq_getElem fname 0 (by omega)]
        exact nonzero _ (List.getElem_mem _)
    congr 1
    exact Bool.eq_iff_iff.mpr (by rw [beq_iff_eq, compare, decide_eq_true_iff])
  · have other : fname ≠ fs.entryName m i := by
      rintro rfl
      exact same length.symm
    rw [if_pos same, decide_eq_false other]

/-- The names of the 17 slots that are scanned end. -/
def ScanEnds (m : Mem) (fs : Fs) : Prop := ∀ i < 17, ∃ z < 2 ^ 32, fs.fileName m i z = 0

/-- The scan is the search for the first slot that matches. -/
lemma scanDentries_find {P : Nat → Bool} {fuel start : Nat}
    (matching : ∀ i, start ≤ i → i < start + fuel → slotMatches m fs fname i = some (P i)) :
    scanDentries m fs fname fuel start = some ((List.range' start fuel).find? P) := by
  induction fuel generalizing start with
  | zero => rfl
  | succ fuel ih =>
      rw [scanDentries, matching start (Nat.le_refl start) (by omega), List.range'_succ,
        List.find?_cons]
      cases P start with
      | true => rfl
      | false => exact ih fun i low high => matching i (by omega) (by omega)

/-- The lookup of a name that fits stops at the first of 17 slots that carries it. -/
lemma lookupSlot_find (ends : ScanEnds m fs) (nonzero : ∀ b ∈ fname, b ≠ 0)
    (short : fname.length ≤ 32) : lookupSlot m fs fname
      = some ((List.range 17).find? fun i => decide (fname = fs.entryName m i)) := by
  rw [lookupSlot, fileNameLength, if_neg (by omega), List.range_eq_range']
  exact scanDentries_find fun i _ high => slotMatches_eq (ends i (by omega)) nonzero

/-- The slot the lookup stops at. -/
lemma lookupSlot_some (ends : ScanEnds m fs) (nonzero : ∀ b ∈ fname, b ≠ 0)
    (short : fname.length ≤ 32) : lookupSlot m fs fname = some (some i)
      ↔ i < 17 ∧ fs.entryName m i = fname ∧ ∀ j < i, fs.entryName m j ≠ fname := by
  rw [lookupSlot_find ends nonzero short, Option.some_inj, List.find?_range_eq_some, List.mem_range,
    decide_eq_true_iff]
  constructor
  · rintro ⟨here, lt, before⟩
    refine ⟨lt, here.symm, fun j hj e => ?_⟩
    have other := before j hj
    rw [decide_eq_true e.symm] at other
    exact Bool.noConfusion other
  · rintro ⟨lt, here, before⟩
    refine ⟨here.symm, lt, fun j hj => ?_⟩
    rw [decide_eq_false (before j hj).symm]
    rfl

/-- The lookup finds no slot. -/
lemma lookupSlot_none (ends : ScanEnds m fs) (nonzero : ∀ b ∈ fname, b ≠ 0)
    (short : fname.length ≤ 32) : lookupSlot m fs fname = some none
      ↔ ∀ i < 17, fs.entryName m i ≠ fname := by
  rw [lookupSlot_find ends nonzero short, Option.some_inj, List.find?_eq_none]
  constructor
  · intro none i hi e
    exact none i (List.mem_range.mpr hi) (decide_eq_true e.symm)
  · intro none i hi e
    exact none i (List.mem_range.mp hi) (of_decide_eq_true e).symm

/-- A lookup whose scan ends stops at a slot or finds none. -/
lemma lookupSlot_total (ends : ScanEnds m fs) (nonzero : ∀ b ∈ fname, b ≠ 0)
    (short : fname.length ≤ 32) :
    lookupSlot m fs fname = some none ∨ ∃ i, lookupSlot m fs fname = some (some i) := by
  rw [lookupSlot_find ends nonzero short]
  cases (List.range 17).find? fun i => decide (fname = fs.entryName m i) with
  | none => exact .inl rfl
  | some i => exact .inr ⟨i, rfl⟩

/-- Everything a lookup by name can do: refuse the name and store nothing, or copy a slot. -/
lemma readDentryByName_cases {m : Mem} {fs : Fs} {fname : List UInt8} {ret : Int} {st : Stores}
    (run : readDentryByName m fs fname = some (ret, st)) :
    (ret = -1 ∧ st = [] ∧ lookupSlot m fs fname = some none) ∨ ∃ i v, ret = 0 ∧
      lookupSlot m fs fname = some (some i) ∧ readDentryByIndex m fs i = some (v, st) := by
  rw [readDentryByName] at run
  split at run
  · cases run
  next none =>
    cases run
    exact .inl ⟨rfl, rfl, none⟩
  next i found =>
    obtain ⟨⟨v, st'⟩, hi, e⟩ := Option.map_eq_some_iff.mp run
    cases e
    exact .inr ⟨i, v, rfl, found, hi⟩

end Scan

/-! ## The directory of an image -/

/-- The names in the directory are distinct. -/
def NamesDistinct (m : Mem) (modStart : Nat) : Prop :=
  ∀ i < (filesystemInit m modStart).dentryNum m, ∀ j < i,
    (filesystemInit m modStart).entryName m i ≠ (filesystemInit m modStart).entryName m j

/-- The lookup of the name of entry `i` succeeds and fills the record as the lookup of index `i`
does. -/
def FoundByName (m : Mem) (fs : Fs) (i : Nat) : Prop :=
  ∃ st, readDentryByName m fs (fs.entryName m i) = some (0, st) ∧
    readDentryByIndex m fs i = some (0, st)

/-- A process with a free descriptor can open entry `i` of the image by its name. -/
def Openable (m : Mem) (modStart i : Nat) : Prop :=
  ∀ (fr : Frame) (s : Kernel), s.fs.Serves m modStart → SameOn (InImage m modStart) m s.mem →
    s.proc.filedArray ≠ 0 → s.freeFd ≠ none →
    ∃ s' fd, s.sysOpen fr (some ((filesystemInit m modStart).entryName m i))
      = some (s', fd) ∧ 0 ≤ fd

section Directory

variable {m : Mem} {modStart i : Nat} {fname : List UInt8}

/-- In a well-formed image every name of the scan ends. -/
lemma WellFormedImage.scanEnds (wf : WellFormedImage m modStart) :
    ScanEnds m (filesystemInit m modStart) := by
  intro i hi
  obtain ⟨z, hz, nul, -⟩ := wf.name_ends (i := i) (by omega)
  exact ⟨z, hz, nul⟩

/-- The lookup of an entry's name stops at the entry, when it is in the 17 slots that are
scanned. -/
lemma lookupSlot_entry (wf : WellFormedImage m modStart) (distinct : NamesDistinct m modStart)
    (hi : i < (filesystemInit m modStart).dentryNum m) :
    lookupSlot m (filesystemInit m modStart) ((filesystemInit m modStart).entryName m i)
      = some (if i < 17 then some i else none) := by
  have nonzero := entryName_nonzero (filesystemInit m modStart) m i
  have short := length_entryName_le (filesystemInit m modStart) m i
  split_ifs with scanned
  · exact (lookupSlot_some wf.scanEnds nonzero short).mpr
      ⟨scanned, rfl, fun j hj => (distinct i hi j hj).symm⟩
  · exact (lookupSlot_none wf.scanEnds nonzero short).mpr
      fun j hj => (distinct i hi j (by omega)).symm

/-- The name of an entry is followed by its type, which ends it; so every entry fits a record. -/
lemma WellFormedImage.entry_fits (wf : WellFormedImage m modStart)
    (hi : i < (filesystemInit m modStart).dentryNum m) :
    ∃ st, readDentryByIndex m (filesystemInit m modStart) i = some (0, st) ∧ ∀ ob ∈ st,
      ob.1 < 64 := by
  have type := wf.fileType i hi
  have high : (filesystemInit m modStart).fileName m i 33 = 0 := by
    rw [Fs.fileType, Mem.word] at type
    apply UInt8.toNat_inj.mp
    show (m.byte ((filesystemInit m modStart).dentry i + 32 + 1)).toNat = 0
    omega
  exact readDentryByIndex_fits (Nat.le_of_lt hi) ⟨33, by decide, high⟩
    ⟨0, by decide, wf.reserved i hi 0 (by decide)⟩

/-- The lookup of an entry's name, when its slot is scanned. -/
lemma readDentryByName_entry (wf : WellFormedImage m modStart) (distinct : NamesDistinct m modStart)
    (hi : i < (filesystemInit m modStart).dentryNum m) {st : Stores}
    (entry : readDentryByIndex m (filesystemInit m modStart) i = some (0, st)) :
    readDentryByName m (filesystemInit m modStart) ((filesystemInit m modStart).entryName m i)
      = some (if i < 17 then (0, st) else (-1, [])) := by
  rw [readDentryByName, lookupSlot_entry wf distinct hi]
  split_ifs with scanned
  · dsimp only
    rw [entry]
    rfl
  · rfl

/-- A file that is found can be opened. -/
lemma sysOpen_found {fr : Frame} {s : Kernel} {name : List UInt8} {st : Stores} {d : Nat → UInt8}
    {counter : Nat} (array : s.proc.filedArray ≠ 0)
    (found : readDentryByName s.mem s.fs (upToNul name) = some (0, st))
    (record : localDentry fr.dentry st = some d) (type : dentryFileType d ≤ 2)
    (free : s.freeFd = some counter) :
    ∃ s', s.sysOpen fr (some name) = some (s', (counter : Int)) := by
  have ok : (0 : Int) ≠ -1 := by decide
  have table : ∃ s' : Kernel,
    { s with proc := s.proc.setFd counter (Kernel.openEntry d 0) }.tableOpen
      (upToNul name) (dentryFileType d) = some (s', 0) := by
    obtain e | e | e : dentryFileType d = 0 ∨ dentryFileType d = 1 ∨
      dentryFileType d = 2 := by omega
    · exact ⟨_, by rw [e]; rfl⟩
    · exact ⟨_, by rw [e]; rfl⟩
    · refine ⟨{ s with
        proc := s.proc.setFd counter (Kernel.openEntry d 0)
        mem := applyStores s.mem s.fs.curdentry st }, ?_⟩
      rw [e, Kernel.tableOpen, Kernel.fileOpen, found]
      rfl
  obtain ⟨s', hs⟩ := table
  simp only [Kernel.sysOpen, if_neg array, found, if_neg ok, record, free, hs]
  exact ⟨_, rfl⟩

/-- **Lookup by name agrees with lookup by index** exactly for the entries of the 17 slots the
lookup scans; those can be opened. -/
theorem foundByName_iff (wf : WellFormedImage m modStart) (distinct : NamesDistinct m modStart)
    (hi : i < (filesystemInit m modStart).dentryNum m) :
    (FoundByName m (filesystemInit m modStart) i ∧ Openable m modStart i) ↔ i < 17 := by
  obtain ⟨st, entry, fits⟩ := wf.entry_fits hi
  have lookup := readDentryByName_entry wf distinct hi entry
  constructor
  · rintro ⟨⟨st', found, -⟩, -⟩
    by_contra behind
    rw [if_neg behind, found] at lookup
    exact absurd (Prod.mk.inj (Option.some.inj lookup)).1 (by decide)
  · intro scanned
    rw [if_pos scanned] at lookup
    refine ⟨⟨st, lookup, entry⟩, ?_⟩
    intro fr s serves same array free
    obtain ⟨counter, hc⟩ := Option.ne_none_iff_exists'.mp free
    have nonzero := entryName_nonzero (filesystemInit m modStart) m i
    have found : readDentryByName s.mem s.fs
        (upToNul ((filesystemInit m modStart).entryName m i)) = some (0, st) := by
      rw [upToNul_of_nonzero nonzero, readDentryByName_image wf same serves]
      exact lookup
    have record := localDentry_of_fits fr.dentry fits
    have type := (localDentry_fields entry (Nat.le_of_lt hi) record).1
    obtain ⟨s', run⟩ := sysOpen_found array found record (type.symm ▸ wf.fileType i hi) hc
    exact ⟨s', counter, run, by omega⟩

end Directory

/-- The program `shell` of the small image is in slot 2. -/
theorem foundByName_iff_sample :
    FoundByName sampleRam (filesystemInit sampleRam 0x600000) 2 ∧ Openable sampleRam 0x600000 2 :=
  (foundByName_iff wellFormedImage_sample (by unfold NamesDistinct; decide +kernel)
    (by decide +kernel)).mpr (by decide)

/-- A boot image at 6 MB with `n` directory entries, the directories `A`, `B` and so on. -/
def directoriesRam (n : Nat) : Mem :=
  let m : Mem := fun _ => 0
  let m := m.store 0x600000 (wordBytes n ++ wordBytes 1 ++ wordBytes 1)
  (List.range n).foldl
    (fun m i => m.store (0x600040 + 64 * i) (sampleEntry [Char.ofNat (65 + i)] 1 0)) m

/-- The image of 18 directories is well formed. -/
lemma wellFormedImage_directories : WellFormedImage (directoriesRam 18) 0x600000 where
  above := by decide
  below := by decide +kernel
  header := by decide +kernel
  dentryNum := by decide +kernel
  inodesNum := by decide +kernel
  nonempty := by decide +kernel
  distinct := by decide +kernel
  fileType := by decide +kernel
  inode := by decide +kernel
  reserved := by decide +kernel
  length := by decide +kernel
  blocks := by decide +kernel

/-- The 18th entry of a directory is not found. -/
theorem not_always_foundByName : ¬ ∀ (m : Mem) (modStart i : Nat), WellFormedImage m modStart →
    NamesDistinct m modStart → i < (filesystemInit m modStart).dentryNum m →
    FoundByName m (filesystemInit m modStart) i ∧ Openable m modStart i := by
  intro claim
  have distinct : NamesDistinct (directoriesRam 18) 0x600000 := by
    unfold NamesDistinct
    decide +kernel
  obtain ⟨⟨st, found, -⟩, -⟩ :=
    claim (directoriesRam 18) 0x600000 17 wellFormedImage_directories distinct (by decide +kernel)
  have lookup : (readDentryByName (directoriesRam 18) (filesystemInit (directoriesRam 18) 0x600000)
      ((filesystemInit (directoriesRam 18) 0x600000).entryName (directoriesRam 18) 17)).map Prod.fst
      = some (-1) := by decide +kernel
  rw [found] at lookup
  have failed : (0 : Int) = -1 := Option.some.inj lookup
  exact absurd failed (by decide)

end Kernel391
