import Mathlib.Data.Nat.Find
import Kernel391.Process.Descriptors
import Kernel391.Process.Parsing
import Kernel391.Files.Absent
import Kernel391.Files.Mapped
import Kernel391.Terminal.Keys

/-!
# Calls that fail

`execute` has its failure exits before its first change of the state, so an `execute` that fails
only ever printed; whether it comes to fail at all when no process is free depends on its check of
the file before: a scan that runs on, a record that does not fit, or an inode number whose index
node is not mapped keeps it from returning (`failsAtomically_iff`). `terminal_switch` makes its
changes first and does not look at the result of the `execute` inside: a switch that fails is never
undone (`switch_never_rollsBack`).
-/

namespace Kernel391
open Base

/-! ## Lookups on any image -/

namespace Kernel

/-- A string at `a` ends within `n` bytes, and is mapped up to its terminator. -/
def EndsWithin (s : Kernel) (a n : Nat) : Prop :=
  ∃ z < n, s.linear.byte (a + z) = 0 ∧ s.paging.Mapped (List.range' a (z + 1))

/-- The check of a file completes at slot `i`, the one with its name: the slot is mapped, its two
strings end within a 64-byte record, and its inode can be read. Behind the first slot that is no
entry the record stays as it was, and what is read is the inode found in it. -/
def SlotFits (s : Kernel) (fr : Frame) (i : Nat) : Prop :=
  s.paging.Mapped (List.range' s.fs.bootblockHead 4) ∧
  if i ≤ s.fs.dentryNum s.linear then
    s.paging.Mapped (List.range' (s.fs.dentry i + 32) 8) ∧ s.EndsWithin (s.fs.dentry i) 64 ∧
      s.EndsWithin (s.fs.dentry i + 40) 24 ∧ s.FirstMapped (s.fs.inodeIndex s.linear i)
  else s.FirstMapped (dentryInodeIndex fr.dentry)

/-- The scan for a name comes to an end, and so does the check of the file it finds: the name of
every slot it comes to ends in mapped memory, and the first slot with the name fits. -/
def LookupFits (s : Kernel) (fr : Frame) (fname : List UInt8) : Prop :=
  ∀ i < 17, (∀ j < i, s.fs.entryName s.linear j ≠ fname) →
    s.EndsWithin (s.fs.dentry i) (2 ^ 32) ∧ (s.fs.entryName s.linear i = fname → s.SlotFits fr i)

end Kernel

section Lookup

variable {s : Kernel} {fr : Frame} {fname : List UInt8} {a i n : Nat}

/-- A string ends in time exactly when its loop does, at a NUL in time, and all it reads is
mapped. -/
lemma endsWithin_iff (hn : n ≤ 2 ^ 32) : s.EndsWithin a n ↔
    (∃ z < n, s.linear.byte (a + z) = 0) ∧ s.paging.Mapped (stringReads s.linear a) := by
  have reads {len : Nat} (hlen : strlen (fun k => s.linear.byte (a + k)) = some len) :
      stringReads s.linear a = List.range' a (len + 1) := by
    rw [stringReads, hlen]
  have string {z : Nat} (zero : s.linear.byte (a + z) = 0) (hz : z < 2 ^ 32) :
      ∃ len ≤ z, strlen (fun k => s.linear.byte (a + k)) = some len := strlen_of_nul zero hz
  constructor
  · rintro ⟨z, hz, zero, mapped⟩
    obtain ⟨len, le, hlen⟩ := string zero (by omega)
    refine ⟨⟨z, hz, zero⟩, ?_⟩
    rw [reads hlen, Paging.mapped_range]
    exact fun j hj => Paging.mapped_range.mp mapped j (by omega)
  · rintro ⟨⟨z, hz, zero⟩, mapped⟩
    obtain ⟨len, le, hlen⟩ := string zero (by omega)
    exact ⟨len, by omega, (strlen_spec hlen).1, reads hlen ▸ mapped⟩

/-- The scan completes, all its reads mapped, exactly when every slot it comes to has a name that
ends in mapped memory, and the slot it stops at can be copied. -/
lemma scan_completes (nonzero : ∀ b ∈ fname, b ≠ 0) (fuel start : Nat) :
    scanDentries s.linear s.fs fname fuel start ≠ none ∧
      s.paging.Mapped (scanReads s.linear s.fs fname fuel start) ↔
    ∀ i, start ≤ i → i < start + fuel →
      (∀ j, start ≤ j → j < i → s.fs.entryName s.linear j ≠ fname) →
      s.EndsWithin (s.fs.dentry i) (2 ^ 32) ∧
        (s.fs.entryName s.linear i = fname →
          s.paging.Mapped (indexReads s.linear s.fs i)) := by
  induction fuel generalizing start with
  | zero =>
      exact iff_of_true ⟨Option.some_ne_none _, Paging.mapped_nil⟩ fun i low high => by omega
  | succ fuel ih =>
      have name := endsWithin_iff (s := s) (a := s.fs.dentry start) (le_refl (2 ^ 32))
      by_cases ends : ∃ z < 2 ^ 32, s.fs.fileName s.linear start z = 0
      · have first := name.trans (and_iff_right ends)
        have here := slotMatches_eq ends nonzero
        rw [scanDentries, scanReads, here]
        by_cases found : fname = s.fs.entryName s.linear start
        · rw [decide_eq_true found]
          dsimp only
          rw [Paging.mapped_append, ← first]
          constructor
          · rintro ⟨-, mapped, copied⟩ i low high before
            rcases Nat.eq_or_lt_of_le low with rfl | lt
            · exact ⟨mapped, fun _ => copied⟩
            · exact absurd found.symm (before start (Nat.le_refl start) lt)
          · intro all
            obtain ⟨mapped, copied⟩ := all start (Nat.le_refl start) (by omega)
              fun j _ _ => by omega
            exact ⟨Option.some_ne_none _, mapped, copied found.symm⟩
        · rw [decide_eq_false found]
          dsimp only
          rw [Paging.mapped_append, ← first, and_left_comm, ih]
          constructor
          · rintro ⟨mapped, rest⟩ i low high before
            rcases Nat.eq_or_lt_of_le low with rfl | lt
            · exact ⟨mapped, fun same => absurd same.symm found⟩
            · exact rest i lt (by omega) fun j hj => before j (by omega)
          · intro all
            obtain ⟨mapped, -⟩ := all start (Nat.le_refl start) (by omega) fun j _ _ => by omega
            refine ⟨mapped, fun i low high before => all i (by omega) (by omega) fun j hj lt => ?_⟩
            rcases Nat.eq_or_lt_of_le hj with rfl | above
            · exact Ne.symm found
            · exact before j above lt
      · refine iff_of_false (fun h => h.1 ?_) fun all => ?_
        · have endless : strlen (s.fs.fileName s.linear start) = none :=
            strlen_eq_none.mpr fun z hz zero => ends ⟨z, hz, zero⟩
          rw [scanDentries, slotMatches, endless, Option.map_none]
        · obtain ⟨mapped, -⟩ := all start (Nat.le_refl start) (by omega) fun j _ _ => by omega
          exact ends (name.mp mapped).1

/-- The slot the scan stops at. -/
lemma lookupSlot_first (nonzero : ∀ b ∈ fname, b ≠ 0) (short : fname.length ≤ 32) (hi : i < 17)
    (before : ∀ j < i, s.fs.entryName s.linear j ≠ fname)
    (here : s.fs.entryName s.linear i = fname)
    (ends : ∀ j ≤ i, s.EndsWithin (s.fs.dentry j) (2 ^ 32)) :
    lookupSlot s.linear s.fs fname = some (some i) := by
  have matching (j : Nat) (le : j ≤ i) : slotMatches s.linear s.fs fname j
      = some (decide (fname = s.fs.entryName s.linear j)) :=
    slotMatches_eq ((endsWithin_iff (le_refl _)).mp (ends j le)).1 nonzero
  have scan (k fuel : Nat) (hk : k + fuel = 17) (le : k ≤ i) :
      scanDentries s.linear s.fs fname fuel k = some (some i) := by
    induction fuel generalizing k with
    | zero => omega
    | succ fuel ih =>
        rw [scanDentries, matching k le]
        rcases Nat.eq_or_lt_of_le le with rfl | lt
        · rw [decide_eq_true here.symm]
        · rw [decide_eq_false (Ne.symm (before k lt))]
          exact ih (k + 1) (by omega) lt
  rw [lookupSlot, fileNameLength, if_neg (by omega)]
  exact scan 0 17 rfl (Nat.zero_le i)

/-- The copy of an entry completes in a record exactly when the entry is mapped and its strings end
in time. -/
lemma slot_copied_iff (valid : i ≤ s.fs.dentryNum s.linear) :
    (∃ st, readDentryByIndex s.linear s.fs i = some (0, st) ∧ ∀ ob ∈ st, ob.1 < 64) ∧
      s.paging.Mapped (indexReads s.linear s.fs i) ↔
    s.paging.Mapped (List.range' s.fs.bootblockHead 4) ∧
      s.paging.Mapped (List.range' (s.fs.dentry i + 32) 8) ∧ s.EndsWithin (s.fs.dentry i) 64 ∧
      s.EndsWithin (s.fs.dentry i + 40) 24 := by
  have strings : (∃ st, readDentryByIndex s.linear s.fs i = some (0, st) ∧ ∀ ob ∈ st, ob.1 < 64) ↔
      (∃ z < 64, s.fs.fileName s.linear i z = 0) ∧ ∃ z < 24, s.fs.reserved s.linear i z = 0 := by
    constructor
    · rintro ⟨st, run, fits⟩
      exact (readDentryByIndex_fits_iff valid).mp ⟨0, st, run, fits⟩
    · rintro ⟨name, reserved⟩
      exact readDentryByIndex_fits valid name reserved
  rw [strings, indexReads, if_neg (by omega), Paging.mapped_append, Paging.mapped_append,
    Paging.mapped_append, endsWithin_iff (by decide), endsWithin_iff (by decide)]
  constructor
  · rintro ⟨⟨name, reserved⟩, header, ⟨fields, first⟩, second⟩
    exact ⟨header, fields, ⟨name, first⟩, reserved, second⟩
  · rintro ⟨header, fields, ⟨name, first⟩, reserved, second⟩
    exact ⟨⟨name, reserved⟩, header, ⟨fields, first⟩, second⟩

/-- The check of a file goes on with the record of the slot that was found. -/
lemma checkFile_slot (mapped : s.paging.Mapped (nameReads s.linear s.fs fname))
    (found : lookupSlot s.linear s.fs fname = some (some i)) : s.checkFile fr fname ≠ none ↔
      ∃ r st d, readDentryByIndex s.linear s.fs i = some (r, st) ∧
        localDentry fr.dentry st = some d ∧ s.FirstMapped (dentryInodeIndex d) := by
  have success : ¬ (0 : Int) = -1 := by decide
  rw [Kernel.checkFile, Kernel.mappedDentryByName, if_pos mapped, readDentryByName, found]
  dsimp only
  cases readDentryByIndex s.linear s.fs i with
  | none =>
      refine iff_of_false (fun h => h rfl) ?_
      rintro ⟨r, st, d, ⟨⟩, -⟩
  | some copy =>
      obtain ⟨r, st⟩ := copy
      rw [Option.map_some]
      dsimp only
      rw [if_neg success]
      cases record : localDentry fr.dentry st with
      | none =>
          refine iff_of_false (fun h => h rfl) ?_
          rintro ⟨r', st', d, e, hd, -⟩
          cases e
          rw [record] at hd
          cases hd
      | some d =>
          dsimp only
          rw [Kernel.mappedData]
          split_ifs with first
          · exact iff_of_true (Option.some_ne_none _) ⟨r, st, d, rfl, record, first⟩
          · refine iff_of_false (fun h => h rfl) ?_
            rintro ⟨r', st', d', e, hd, reads⟩
            cases e
            rw [record] at hd
            cases hd
            exact first reads

/-- What it needs of the slot. -/
lemma slotFits_iff : s.paging.Mapped (indexReads s.linear s.fs i) ∧
      (∃ r st d, readDentryByIndex s.linear s.fs i = some (r, st) ∧
        localDentry fr.dentry st = some d ∧ s.FirstMapped (dentryInodeIndex d)) ↔
    s.SlotFits fr i := by
  rw [Kernel.SlotFits]
  rcases Nat.lt_or_ge (s.fs.dentryNum s.linear) i with beyond | valid
  · have refused : readDentryByIndex s.linear s.fs i = some (-1, []) := if_pos beyond
    rw [indexReads, if_pos beyond, if_neg (by omega), List.append_nil, refused]
    refine and_congr_right fun _ => ⟨?_, fun first => ⟨_, _, fr.dentry, rfl, rfl, first⟩⟩
    rintro ⟨r, st, d, e, hd, first⟩
    cases e
    cases hd
    exact first
  · have copied := slot_copied_iff valid
    rw [if_pos valid]
    constructor
    · rintro ⟨mapped, r, st, d, run, record, first⟩
      obtain ⟨-, inode, fits⟩ := localDentry_fields run valid record
      obtain ⟨name, reserved⟩ := (readDentryByIndex_fits_iff valid).mp ⟨r, st, run, fits⟩
      obtain ⟨header, fields, strings⟩ :=
        copied.mp ⟨readDentryByIndex_fits valid name reserved, mapped⟩
      exact ⟨header, fields, strings.1, strings.2, inode ▸ first⟩
    · rintro ⟨header, fields, name, reserved, first⟩
      obtain ⟨⟨st, run, fits⟩, mapped⟩ := copied.mpr ⟨header, fields, name, reserved⟩
      have record := localDentry_of_fits fr.dentry fits
      have inode := (localDentry_fields run valid record).2.1
      exact ⟨mapped, 0, st, _, run, record, inode ▸ first⟩

/-- The check of a file completes exactly when the lookup does and what it finds can be read. -/
lemma checkFile_iff (nonzero : ∀ b ∈ fname, b ≠ 0) (short : fname.length ≤ 32) :
    s.checkFile fr fname ≠ none ↔ s.LookupFits fr fname := by
  have lookup : lookupSlot s.linear s.fs fname = scanDentries s.linear s.fs fname 17 0 := by
    rw [lookupSlot, fileNameLength, if_neg (by omega)]
  have scan := scan_completes (s := s) nonzero 17 0
  rw [← lookup, ← nameReads] at scan
  constructor
  · intro completes
    have reads : lookupSlot s.linear s.fs fname ≠ none ∧
        s.paging.Mapped (nameReads s.linear s.fs fname) := by
      by_contra stuck
      apply completes
      rw [Kernel.checkFile, Kernel.mappedDentryByName]
      split_ifs with mapped
      · have endless : lookupSlot s.linear s.fs fname = none := by
          by_contra ends
          exact stuck ⟨ends, mapped⟩
        rw [readDentryByName, endless]
      · rfl
    have slots := scan.mp reads
    intro i hi before
    have ends (j : Nat) (hj : j ≤ i) : s.EndsWithin (s.fs.dentry j) (2 ^ 32) :=
      (slots j (Nat.zero_le j) (by omega) fun k _ hk => before k (by omega)).1
    refine ⟨ends i (Nat.le_refl i), fun here => ?_⟩
    have found := lookupSlot_first nonzero short hi before here ends
    have copied := (slots i (Nat.zero_le i) (by omega) fun k _ => before k).2 here
    exact slotFits_iff.mp ⟨copied, (checkFile_slot reads.2 found).mp completes⟩
  · intro fits
    have slots := scan.mpr fun i _ high before =>
      have slot := fits i (by omega) fun j hj => before j (Nat.zero_le j) hj
      ⟨slot.1, fun here => (slotFits_iff.mpr (slot.2 here)).1⟩
    by_cases carried : ∃ i, i < 17 ∧ s.fs.entryName s.linear i = fname
    · obtain ⟨lt, here⟩ := Nat.find_spec carried
      have before (j : Nat) (hj : j < Nat.find carried) : s.fs.entryName s.linear j ≠ fname :=
        fun same => Nat.find_min carried hj ⟨by omega, same⟩
      have found := lookupSlot_first nonzero short lt before here
        fun j hj => (fits j (by omega) fun k hk => before k (by omega)).1
      exact (checkFile_slot slots.2 found).mpr (slotFits_iff.mpr ((fits _ lt before).2 here)).2
    · have none (j : Nat) (hj : j < 17) : s.fs.entryName s.linear j ≠ fname :=
        fun same => carried ⟨j, hj, same⟩
      have ends : ScanEnds s.linear s.fs := fun i hi =>
        ((endsWithin_iff (le_refl _)).mp (fits i hi fun j hj => none j (by omega)).1).1
      rw [Kernel.checkFile, Kernel.mappedDentryByName, if_pos slots.2, readDentryByName,
        (lookupSlot_none ends nonzero short).mpr none]
      exact Option.some_ne_none _

end Lookup

/-! ## A program that is not started -/

/-- From `s` to `s'` nothing but the visible page and the cursor changed. -/
structure OnlyPrinted (s s' : Kernel) : Prop where
  frame : s' = { s with mem := s'.mem, screen := s'.screen }
  mem : SameOn (OffPage videoMem) s.mem s'.mem

/-- An `execute` that fails only printed, and it fails when all six processes are in use. -/
structure FailsAtomically (fr : Frame) (s : Kernel) (line : List UInt8) : Prop where
  unchanged : ∀ s', s.execute fr (some line) = some (s', .ret (-1)) → OnlyPrinted s s'
  full : (∀ pid : Nat, pid < maxProcessNumber → s.proc.pidCheck pid ≠ 0) →
    ∃ s', s.execute fr (some line) = some (s', .ret (-1))

section Execute

variable {s s' : Kernel} {fr : Frame} {line : List UInt8}

/-- Printing changes memory and cursor only. -/
lemma puts_frame (s : Kernel) (text : List UInt8) :
    s.puts text = { s with mem := (s.puts text).mem, screen := (s.puts text).screen } := by
  induction text generalizing s with
  | nil => rfl
  | cons c text ih => exact ih (s.putc c)

/-- Printing is all that printing does. -/
lemma onlyPrinted_puts (fits : Fits s.screen.screenX s.screen.screenY) (text : List UInt8) :
    OnlyPrinted s (s.puts text) := ⟨puts_frame s text, (worksHere_puts fits text).mem⟩

/-- With all slots taken there is no free one. -/
lemma freePid_full (full : ∀ pid : Nat, pid < maxProcessNumber → s.proc.pidCheck pid ≠ 0) :
    s.freePid = none := by
  rw [Kernel.freePid, Option.map_eq_none_iff, List.find?_eq_none]
  intro pid mem free
  exact full pid (List.mem_range.mp mem) (beq_iff_eq.mp free)

/-- The word of a string has no NUL. -/
lemma commandWord_nonzero (line : List UInt8) : ∀ b ∈ commandWord (upToNul line), b ≠ 0 := by
  intro b hb
  have mem : b ∈ upToNul line :=
    (List.dropWhile_sublist _).subset ((List.takeWhile_sublist _).subset hb)
  exact upToNul_nonzero line b mem

/-- With no free process, an `execute` that completes its check of the file fails. -/
lemma execute_full (hw : (commandWord (upToNul line)).length ≤ 32)
    (ha : (commandRest (upToNul line)).length ≤ 32)
    (full : ∀ pid : Nat, pid < maxProcessNumber → s.proc.pidCheck pid ≠ 0) :
    (∃ s', s.execute fr (some line) = some (s', .ret (-1))) ↔
      s.checkFile fr (commandWord (upToNul line)) ≠ none := by
  have parsed := parseCommand_short (Nat.le_succ_of_le hw) (Nat.le_succ_of_le ha)
  have inside := (parses_iff (upToNul line)).mpr ⟨hw, ha⟩ |>.inside
  have word := upToNul_terminated (commandWord_nonzero line)
  have complete : ¬ (parseCommand (upToNul line)).complete = false := by
    intro incomplete
    rw [parsed] at incomplete
    cases incomplete
  rw [Kernel.execute]
  dsimp only
  rw [if_neg inside, if_neg complete, parsed]
  dsimp only
  rw [word, freePid_full full]
  cases s.checkFile fr (commandWord (upToNul line)) with
  | none =>
      refine iff_of_false ?_ fun ne => ne rfl
      rintro ⟨s', ⟨⟩⟩
  | some found =>
      cases found with
      | none => exact iff_of_true ⟨s, rfl⟩ (Option.some_ne_none _)
      | some inode => exact iff_of_true ⟨_, rfl⟩ (Option.some_ne_none _)

end Execute

/-- **A failing `execute` is atomic** whatever fails; and it does fail when all six processes are in
use exactly when its check of the program word completes. -/
theorem failsAtomically_iff {fr : Frame} {s : Kernel} {line : List UInt8}
    (cursor : Fits s.screen.screenX s.screen.screenY)
    (hw : (commandWord (upToNul line)).length ≤ 32)
    (ha : (commandRest (upToNul line)).length ≤ 32) :
    FailsAtomically fr s line ↔
      ((∀ pid : Nat, pid < maxProcessNumber → s.proc.pidCheck pid ≠ 0) →
        s.LookupFits fr (commandWord (upToNul line))) := by
  have checked : s.checkFile fr (commandWord (upToNul line)) ≠ none ↔
      s.LookupFits fr (commandWord (upToNul line)) := checkFile_iff (commandWord_nonzero line) hw
  constructor
  · rintro ⟨-, fails⟩ full
    exact checked.mp ((execute_full hw ha full).mp (fails full))
  · intro fits
    refine ⟨fun s' run => ?_, fun full => ?_⟩
    · obtain ⟨text, rfl⟩ := execute_ret run
      exact onlyPrinted_puts cursor text
    · exact (execute_full hw ha full).mpr (checked.mpr (fits full))

/-- The boot shell, with five more shells started one from another. -/
def sixShells (b : BootInfo) : Option Kernel :=
  (bootShell sampleFrame b).bind fun s =>
    runs Call.step s (List.replicate 5 (.execute sampleFrame (some Kernel.shellCommand)))

/-- With six shells a seventh fails, and only prints. -/
theorem failsAtomically_iff_sample : ∃ s s', sixShells sampleBoot = some s ∧ s.freePid = none ∧
    FailsAtomically sampleFrame s Kernel.shellCommand ∧
    s.execute sampleFrame (some Kernel.shellCommand) = some (s', .ret (-1)) ∧ OnlyPrinted s s' := by
  have facts : (sixShells sampleBoot).map (fun s =>
      (decide (Fits s.screen.screenX s.screen.screenY), s.freePid,
        (List.range 6).all fun (pid : Nat) => decide (s.proc.pidCheck pid ≠ 0),
        (s.checkFile sampleFrame (commandWord (upToNul Kernel.shellCommand))).isSome))
      = some (true, none, true, true) := by decide +kernel
  obtain ⟨s, six, e⟩ := Option.map_eq_some_iff.mp facts
  simp only [Prod.mk.injEq, decide_eq_true_eq, List.all_eq_true, List.mem_range] at e
  obtain ⟨cursor, none, full, checked⟩ := e
  have short : (commandWord (upToNul Kernel.shellCommand)).length ≤ 32 := by decide
  have fits : s.LookupFits sampleFrame (commandWord (upToNul Kernel.shellCommand)) :=
    (checkFile_iff (commandWord_nonzero Kernel.shellCommand) short).mp
      (Option.isSome_iff_ne_none.mp checked)
  have atomic : FailsAtomically sampleFrame s Kernel.shellCommand :=
    (failsAtomically_iff cursor short (by decide)).mpr fun _ => fits
  obtain ⟨s', failed⟩ := atomic.full full
  exact ⟨s, s', six, none, atomic, failed, atomic.unchanged s' failed⟩

/-- The small machine with inode number 65536 in the entry of the rtc, which is no file. -/
def strayBoot : BootInfo := { sampleBoot with ram := sampleRam.store 0x6000A4 (wordBytes 0x10000) }

/-- With all processes in use, `execute` of the rtc looks for the length of index node 65536, at an
address that is not mapped. -/
theorem not_always_failsAtomically : ¬ ∀ (fr : Frame) (s : Kernel) (line : List UInt8),
    Fits s.screen.screenX s.screen.screenY → (commandWord (upToNul line)).length ≤ 32 →
    (commandRest (upToNul line)).length ≤ 32 → FailsAtomically fr s line := by
  intro claim
  have facts : (sixShells strayBoot).map (fun s =>
      (decide (Fits s.screen.screenX s.screen.screenY),
        (List.range 6).all fun (pid : Nat) => decide (s.proc.pidCheck pid ≠ 0),
        (s.execute sampleFrame (some (bytesOf ['r', 't', 'c']))).isNone))
      = some (true, true, true) := by decide +kernel
  obtain ⟨s, -, e⟩ := Option.map_eq_some_iff.mp facts
  simp only [Prod.mk.injEq, decide_eq_true_eq, List.all_eq_true, List.mem_range] at e
  obtain ⟨cursor, full, stuck⟩ := e
  obtain ⟨s', run⟩ := (claim sampleFrame s (bytesOf ['r', 't', 'c']) cursor (by decide)
    (by decide)).full full
  rw [run] at stuck
  cases stuck

/-! ## A terminal that is not switched to -/

/-- After a call the kernel is at the terminal, with the process, the visible screen, the cursor and
the position in the line that it had before. -/
structure RolledBack (s s' : Kernel) : Prop where
  currentTerminalId : s'.term.currentTerminalId = s.term.currentTerminalId
  curPid : s'.proc.curPid = s.proc.curPid
  curProcessPtr : s'.proc.curProcessPtr = s.proc.curProcessPtr
  visible : SameOn (OnPage videoMem) s.mem s'.mem
  screen : s'.screen = s.screen
  bufferPosition : s'.kbd.bufferPosition = s.kbd.bufferPosition

/-- The switch has to start the shell of the new terminal, and the `execute` inside returns. -/
def Kernel.switchFails (fr : Frame) (s : Kernel) (t : Nat) : Prop :=
  s.launches t ∧
    ∃ s' v, (s.changeTerminal t).execute fr (some Kernel.shellCommand) = some (s', .ret v)

/-- **A failed terminal switch is never undone.** The switch stays at the new terminal, which has no
process: the current process is -1, and no `halt` completes. -/
theorem switch_never_rollsBack {s : Kernel} {fr : Frame} {t : Nat} (fails : s.switchFails fr t) :
    ∃ s', s.terminalSwitch fr t = some (s', .ret 0) ∧ ¬ RolledBack s s' ∧
      s'.term.currentTerminalId = t ∧ s'.proc.curPid = -1 ∧
      ∀ fr' status, s'.halt fr' status = none := by
  obtain ⟨⟨other, empty⟩, s', v, failed⟩ := fails
  obtain ⟨text, rfl⟩ := execute_ret failed
  have view : ((s.changeTerminal t).puts text).procView = s.procView.change t := by
    rw [procView_puts, procView_changeTerminal other]
  have terminal : ((s.changeTerminal t).puts text).term.currentTerminalId = t :=
    congrArg ProcView.currentTerminalId view
  have process : s.procView.processOf t = -1 := empty
  have curPid : ((s.changeTerminal t).puts text).proc.curPid = s.procView.processOf t :=
    congrArg (fun v => v.proc.curPid) view
  have ptr : ((s.changeTerminal t).puts text).proc.curProcessPtr
      = pcbAddr (s.procView.processOf t) := congrArg (fun v => v.proc.curProcessPtr) view
  rw [process] at curPid ptr
  refine ⟨_, ?_, fun back => ?_, terminal, curPid, fun fr' status => ?_⟩
  · rw [Kernel.terminalSwitch, if_neg other, if_pos empty, failed]
  · exact other (terminal.symm.trans back.currentTerminalId)
  · -- the control block of process -1 would lie at the end of the kernel's page
    have outside : ¬ KernelPtr (pcbAddr (-1)) := by decide
    rw [Kernel.halt]
    dsimp only
    rw [ptr, if_pos outside]

/-- Six shells are running, and Alt+F2 is to start a seventh. -/
lemma switchFails_sample : ∃ s, sixShells sampleBoot = some s ∧ s.switchFails sampleFrame 1 := by
  have facts : (sixShells sampleBoot).map (fun s => (decide (s.launches 1),
      ((s.changeTerminal 1).execute sampleFrame (some Kernel.shellCommand)).map Prod.snd))
      = some (true, some (.ret (-1))) := by decide +kernel
  obtain ⟨s, hs, e⟩ := Option.map_eq_some_iff.mp facts
  obtain ⟨launches, result⟩ := Prod.mk.inj e
  obtain ⟨⟨s', c⟩, failed, rfl⟩ := Option.map_eq_some_iff.mp result
  exact ⟨s, hs, of_decide_eq_true launches, s', _, failed⟩

/-- With six shells running, a switch to a terminal without one leaves no process current. -/
theorem switch_never_rollsBack_sample : ∃ s s', sixShells sampleBoot = some s ∧
    s.terminalSwitch sampleFrame 1 = some (s', .ret 0) ∧ ¬ RolledBack s s' ∧
    s'.term.currentTerminalId = 1 ∧ s'.proc.curPid = -1 ∧
    ∀ fr' status, s'.halt fr' status = none := by
  obtain ⟨s, hs, fails⟩ := switchFails_sample
  obtain ⟨s', rest⟩ := switch_never_rollsBack fails
  exact ⟨s, s', hs, rest⟩

/-- With six shells running, Alt+F2 leaves the kernel at a terminal without a process. -/
theorem not_always_rollsBack : ¬ ∀ (fr : Frame) (b : BootInfo) (s₀ s s' : Kernel) (cs : List Call)
    (t : Fin 3) (c : Control), bootShell fr b = some s₀ → runs Call.step s₀ cs = some s →
    s.switchFails fr t → s.terminalSwitch fr t = some (s', c) → RolledBack s s' := by
  intro claim
  obtain ⟨s, six, fails⟩ := switchFails_sample
  obtain ⟨s₀, boot, run⟩ := Option.bind_eq_some_iff.mp six
  have facts : (sixShells sampleBoot).map (fun s => (s.term.currentTerminalId,
      (s.terminalSwitch sampleFrame 1).map fun r => r.1.term.currentTerminalId))
      = some (0, some 1) := by decide +kernel
  rw [six, Option.map_some] at facts
  obtain ⟨before, switched⟩ := Prod.mk.inj (Option.some.inj facts)
  obtain ⟨⟨s', c⟩, switch, after⟩ := Option.map_eq_some_iff.mp switched
  have back := claim sampleFrame sampleBoot s₀ s s' _ 1 c boot run fails switch
  have same := back.currentTerminalId
  rw [before] at same
  exact absurd (after.symm.trans same) (by decide)

end Kernel391
