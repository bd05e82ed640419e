import Mathlib.Data.Bool.AllAny
import Kernel391.Files.Lookup

/-!
# Names that are not there

The scan of `read_dentry_by_name` stops at the first of 17 slots that carries the name, whether or
not the directory reaches that far. A name is taken for an entry of the directory only if the slot
that matches is one, and only names that fit the local copy can be looked up at all
(`rejectsAbsent_iff`).
-/

namespace Kernel391
open Base

/-- A record holds the type, the inode and the name of directory slot `i`. -/
structure HoldsSlot (m : Mem) (fs : Fs) (i : Nat) (d : Nat → UInt8) : Prop where
  fileType : dentryFileType d = fs.fileType m i
  inodeIndex : dentryInodeIndex d = fs.inodeIndex m i
  fileName : upToNul ((List.range fileNameLength).map d) = fs.entryName m i

/-- The lookup of a name completes. It succeeds only if a slot of the directory carries the name (a
long name is compared by its first 32 bytes), and then the record holds that slot; a name that no
slot of the directory carries is refused. -/
structure RejectsAbsent (m : Mem) (fs : Fs) (fname : List UInt8) : Prop where
  completes : ∃ ret st, readDentryByName m fs fname = some (ret, st)
  success : ∀ ret st, readDentryByName m fs fname = some (ret, st) → ret ≠ -1 →
    ∃ i < fs.dentryNum m, fs.entryName m i = fname.take fileNameLength ∧
      ∀ old, ∃ d, localDentry old st = some d ∧ HoldsSlot m fs i d
  absent : (∀ i < fs.dentryNum m, fs.entryName m i ≠ fname.take fileNameLength) →
    readDentryByName m fs fname = some (-1, [])

section Record

variable {m : Mem} {fs : Fs} {st : Stores} {ret : Int} {i : Nat} {f : Nat → UInt8}

/-- A string in a field of `n` bytes, with the place of its first NUL. -/
lemma upToNul_field {l n : Nat} (le : l ≤ n) (nonzero : ∀ k < l, f k ≠ 0) (zero : l < n → f l = 0) :
    upToNul ((List.range n).map f) = (List.range l).map f := by
  obtain ⟨l', le', e, nonzero', zero'⟩ := upToNul_range' f n 0
  rw [Nat.zero_add] at zero'
  rw [List.range_eq_range', e]
  have same : l' = l := by
    rcases Nat.lt_trichotomy l' l with lt | eq | gt
    · exact absurd (zero' (by omega)) (nonzero l' lt)
    · exact eq
    · exact absurd (zero (by omega)) (nonzero' l (Nat.zero_le l) (by omega))
  rw [same, List.range_eq_range']

/-- The name is stored up to its terminator, wherever that is. -/
lemma readDentryByIndex_name (run : readDentryByIndex m fs i = some (ret, st))
    (valid : i ≤ fs.dentryNum m) {k : Nat} (nonzero : ∀ j < k, fs.fileName m i j ≠ 0) :
    ∃ ob ∈ st, ob.1 = k := by
  rw [readDentryByIndex, if_neg (by omega)] at run
  split at run
  next name reserved hname _ =>
    obtain ⟨-, rfl⟩ := Prod.mk.inj (Option.some.inj run)
    obtain ⟨n, hn, rfl⟩ := Option.map_eq_some_iff.mp hname
    obtain ⟨zero, -⟩ := strlen_spec hn
    have le : k ≤ n := by
      by_contra lt
      exact nonzero n (by omega) zero
    have stored : (List.range n).map (fs.fileName m i) ++ [0]
        = (List.range' 0 (n + 1)).map (fs.fileName m i) := by
      rw [List.range'_concat, List.map_append, List.map_singleton, Nat.one_mul, Nat.zero_add, zero,
        List.range_eq_range']
    rw [stored]
    refine ⟨(k, fs.fileName m i k), ?_, rfl⟩
    apply List.mem_append_left
    apply List.mem_append_right
    exact mem_storesAt (fs.fileName m i) (Nat.zero_le k) (by omega)
  next => cases run

/-- A record filled with an entry holds its slot. -/
lemma holdsSlot_localDentry {old d : Nat → UInt8} (run : readDentryByIndex m fs i = some (ret, st))
    (valid : i ≤ fs.dentryNum m) (hd : localDentry old st = some d) : HoldsSlot m fs i d := by
  obtain ⟨type, inode, fits⟩ := localDentry_fields run valid hd
  obtain ⟨l, le, e, nonzero, zero⟩ := entryName_spec fs m i
  have byte (k : Nat) (hk : k ≤ l) : d k = fs.fileName m i k :=
    localDentry_byte run valid hd
      (readDentryByIndex_name run valid fun j hj => nonzero j (by omega))
  refine ⟨type, inode, ?_⟩
  rw [e, fileNameLength, upToNul_field le (fun k hk => byte k (by omega) ▸ nonzero k hk)
    fun lt => (byte l (Nat.le_refl l)).trans (zero lt)]
  apply List.map_congr_left
  intro k hk
  have lt := List.mem_range.mp hk
  exact byte k (by omega)

end Record

/-! ## What the lookup makes of a name -/

section Scan

variable {m : Mem} {fs : Fs} {modStart i : Nat} {fname : List UInt8}

/-- A name that does not fit the local copy is not looked up. -/
lemma readDentryByName_long (long : 32 < fname.length) : readDentryByName m fs fname = none := by
  rw [readDentryByName, lookupSlot, fileNameLength, if_pos (by omega)]

/-- The lookup of a name that fits refuses it, or copies the first of 17 slots that carries it. -/
lemma readDentryByName_scan (ends : ScanEnds m fs) (nonzero : ∀ b ∈ fname, b ≠ 0)
    (short : fname.length ≤ 32) :
    ((∀ i < 17, fs.entryName m i ≠ fname) ∧ readDentryByName m fs fname = some (-1, [])) ∨
      ∃ i < 17, fs.entryName m i = fname ∧ (∀ j < i, fs.entryName m j ≠ fname) ∧
        readDentryByName m fs fname = (readDentryByIndex m fs i).map fun r => (0, r.2) := by
  rcases lookupSlot_total ends nonzero short with slot | ⟨i, slot⟩
  · refine .inl ⟨(lookupSlot_none ends nonzero short).mp slot, ?_⟩
    rw [readDentryByName, slot]
  · obtain ⟨lt, named, before⟩ := (lookupSlot_some ends nonzero short).mp slot
    refine .inr ⟨i, lt, named, before, ?_⟩
    rw [readDentryByName, slot]

/-- The lookup of a name that no unused slot carries before the directory does. -/
lemma readDentryByName_known (wf : WellFormedImage m modStart) (nonzero : ∀ b ∈ fname, b ≠ 0)
    (short : fname.length ≤ 32)
    (here : (∃ i < 17, i < (filesystemInit m modStart).dentryNum m ∧
        (filesystemInit m modStart).entryName m i = fname) ∨
      ∀ i < 17, (filesystemInit m modStart).dentryNum m ≤ i →
        (filesystemInit m modStart).entryName m i ≠ fname) :
    ((∀ i < 17, (filesystemInit m modStart).entryName m i ≠ fname) ∧
        readDentryByName m (filesystemInit m modStart) fname = some (-1, [])) ∨
      ∃ i < (filesystemInit m modStart).dentryNum m,
        (filesystemInit m modStart).entryName m i = fname ∧
        ∃ st, readDentryByIndex m (filesystemInit m modStart) i = some (0, st) ∧
          (∀ ob ∈ st, ob.1 < 64) ∧
          readDentryByName m (filesystemInit m modStart) fname = some (0, st) := by
  rcases readDentryByName_scan wf.scanEnds nonzero short with refused | ⟨i, lt, named, before, run⟩
  · exact .inl refused
  · have used : i < (filesystemInit m modStart).dentryNum m := by
      by_contra unused
      rcases here with ⟨j, -, hj, named'⟩ | stale
      · exact before j (by omega) named'
      · exact stale i lt (by omega) named
    obtain ⟨st, entry, fits⟩ := wf.entry_fits used
    refine .inr ⟨i, used, named, st, entry, fits, ?_⟩
    rw [run, entry, Option.map_some]

end Scan

/-- **Lookup rejects what is not there** exactly for names that fit the local copy, and that are in
the first 17 slots of the directory or in none of those 17 slots that it does not use. -/
theorem rejectsAbsent_iff {m : Mem} {modStart : Nat} {fname : List UInt8}
    (wf : WellFormedImage m modStart) (nonzero : ∀ b ∈ fname, b ≠ 0) :
    RejectsAbsent m (filesystemInit m modStart) fname ↔ fname.length ≤ 32 ∧
      ((∃ i < 17, i < (filesystemInit m modStart).dentryNum m ∧
          (filesystemInit m modStart).entryName m i = fname) ∨
        ∀ i < 17, (filesystemInit m modStart).dentryNum m ≤ i →
          (filesystemInit m modStart).entryName m i ≠ fname) := by
  constructor
  · rintro ⟨⟨ret, st, run⟩, success, -⟩
    have short : fname.length ≤ 32 := by
      by_contra long
      rw [readDentryByName_long (by omega)] at run
      cases run
    have whole : fname.take fileNameLength = fname := List.take_of_length_le short
    refine ⟨short, ?_⟩
    by_contra stale
    rw [not_or] at stale
    obtain ⟨none, some⟩ := stale
    -- the lookup stops at a slot that matches, and none of the directory's slots does
    rcases readDentryByName_cases run with ⟨-, -, found⟩ | ⟨i, v, rfl, found, -⟩
    · exact some fun i hi _ => (lookupSlot_none wf.scanEnds nonzero short).mp found i hi
    · obtain ⟨lt, here, before⟩ := (lookupSlot_some wf.scanEnds nonzero short).mp found
      obtain ⟨j, hj, named, -⟩ := success 0 st run (by decide)
      rw [whole] at named
      have used : i < (filesystemInit m modStart).dentryNum m := by
        by_contra unused
        exact before j (by omega) named
      exact none ⟨i, lt, used, here⟩
  · rintro ⟨short, here⟩
    have whole : fname.take fileNameLength = fname := List.take_of_length_le short
    rcases readDentryByName_known wf nonzero short here with
      ⟨none, run⟩ | ⟨i, hi, named, st, entry, fits, run⟩
    · refine ⟨⟨-1, [], run⟩, fun ret st run' ok => ?_, fun _ => run⟩
      obtain ⟨rfl, -⟩ := Prod.mk.inj (Option.some.inj (run.symm.trans run'))
      exact absurd rfl ok
    · refine ⟨⟨0, st, run⟩, fun ret st' run' _ => ?_, fun absent => ?_⟩
      · obtain ⟨-, rfl⟩ := Prod.mk.inj (Option.some.inj (run.symm.trans run'))
        refine ⟨i, hi, named.trans whole.symm, fun old => ?_⟩
        have record := localDentry_of_fits old fits
        exact ⟨_, record, holdsSlot_localDentry entry (Nat.le_of_lt hi) record⟩
      · exact absurd (named.trans whole.symm) (absent i hi)

/-- The name of the program `shell` is in the small image, so there is nothing to reject. -/
theorem rejectsAbsent_iff_sample :
    RejectsAbsent sampleRam (filesystemInit sampleRam 0x600000) Kernel.shellCommand :=
  (rejectsAbsent_iff wellFormedImage_sample (List.all_iff_forall_prop.mp (by decide))).mpr
    ⟨by decide, .inl ⟨2, by decide, by decide +kernel, by decide +kernel⟩⟩

/-- The empty name in a directory of four entries: the fifth slot, which is not used, carries it. -/
theorem not_always_rejectsAbsent : ¬ ∀ (m : Mem) (modStart : Nat) (fname : List UInt8),
    WellFormedImage m modStart → (∀ b ∈ fname, b ≠ 0) →
    RejectsAbsent m (filesystemInit m modStart) fname := by
  intro claim
  have rejects := claim sampleRam 0x600000 [] wellFormedImage_sample
    fun b hb => absurd hb List.not_mem_nil
  have named : ∀ i < 4, (filesystemInit sampleRam 0x600000).entryName sampleRam i ≠ [] := by
    decide +kernel
  have refused := rejects.absent named
  have found : (readDentryByName sampleRam (filesystemInit sampleRam 0x600000) []).map Prod.fst
      = some 0 := by decide +kernel
  rw [refused] at found
  exact absurd (Option.some.inj found) (by decide)

end Kernel391
