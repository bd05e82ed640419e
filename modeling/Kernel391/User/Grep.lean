import Kernel391.User.Search
import Mathlib.Data.Finset.Lattice.Fold

/-!
# Searching the volume

`grep` on the kernel: it goes through the names of the directory and searches the file of each
(`grep_prints`). Every file it opens overwrites the header of the volume with its name, and whether
the next reads go through depends on that.
-/

namespace Kernel391.User
open Base

namespace World

/-- What `grep` prints and its status, when the names `names` are left and the header is
`header`. -/
def searched (v : Volume) (pattern : List UInt8) (header : Mem) :
    List (List UInt8) → List UInt8 × Int
  | [] => ([], 0)
  | e :: names =>
    if e.head? = some 46 then searched v pattern header names
    else
      match v.find e with
      | none => (bytesOf "file open failed\n".toList, 3)
      | some i =>
        if (v.entry i).fileType = 2 then
          let text := v.contents (v.entry i).inode
          if (v.entry i).inode ≤ (overwrite header e).word 4 ∨ text = [] then
            let r := searched v pattern (overwrite header e) names
            (hits pattern e text ++ r.1, r.2)
          else (bytesOf "file read failed\n".toList, 3)
        else searched v pattern header names

/-- What `grep` prints, and its status. -/
def grepOutcome (w : World) : List UInt8 × Int :=
  match w.args with
  | none => (bytesOf "could not read argument\n".toList, 3)
  | some pattern =>
    match w.volume.find [46] with
    | none => (bytesOf "directory open failed\n".toList, 2)
    | some _ => searched w.volume pattern w.header w.volume.names

end World

/-- The names of a volume are printable, and only those that start with a dot name directories. -/
structure Volume.Plain (v : Volume) : Prop where
  printable : ∀ e ∈ v.names, ∀ b ∈ e, 32 ≤ b
  files : ∀ e ∈ v.names, e.head? ≠ some 46 → ∀ i, v.find e = some i → (v.entry i).fileType ≠ 1

/-- What is found in a volume has a slot that the count in the header lets through. -/
def Volume.Counted (v : Volume) (header : Mem) : Prop :=
  ∀ e i, v.find e = some i → i ≤ header.word 0

/-- The files that are searched are texts. -/
def Volume.Texts (v : Volume) (names : List (List UInt8)) : Prop :=
  ∀ e ∈ names, e.head? ≠ some 46 → ∀ i, v.find e = some i → (v.entry i).fileType = 2 →
    Searchable (v.contents (v.entry i).inode)

/-- The world in which the directory is open at `fd`, with the names `names` left, the header is
`header` and `bs` was printed. -/
def World.scanning (w : World) (fd : Nat) (header : Mem) (names : List (List UInt8))
    (bs : List UInt8) : World :=
  (({ w with header := header } : World).setFd fd (some (.directory names))).print bs

section Scan

variable {w : World} {c c' n k : Nat} {header : Mem} {names : List (List UInt8)}
  {bs bs' e pattern junk buf : List UInt8}
  {data : List UInt8 → List UInt8} {v : Volume}

/-- The directory is open in the world that is scanned. -/
lemma scanning_fds : (w.scanning c header names bs).fds c = some (.directory names) :=
  Function.update_self ..

/-- More is printed in the world that is scanned. -/
lemma scanning_print : (w.scanning c header names bs).print bs'
    = w.scanning c header names (bs ++ bs') :=
  print_print ..

/-- One name is read in the world that is scanned. -/
lemma scanning_read : (w.scanning c header (e :: names) bs).setFd c (some (.directory names))
    = w.scanning c header names bs := by
  simp only [World.scanning, World.setFd, World.print, Function.update_idem]

/-- The header lets every slot through once a printable name is there. -/
lemma counted_overwrite (ne : e ≠ []) (printable : ∀ b ∈ e, 32 ≤ b) :
    v.Counted (World.overwrite header e) := by
  intro name i found
  have below := (Volume.find_spec found).1
  cases e with
  | nil => exact absurd rfl ne
  | cons b e =>
    have large : 32 ≤ b.toNat := printable b List.mem_cons_self
    have first : (World.overwrite header (b :: e)).byte 0 = b := rfl
    rw [Mem.word, first]
    omega

/-- A name in the buffer, with the NUL put behind it. -/
lemma nul_storeAt (buf e : List UInt8) :
    ∃ junk, storeAt (storeAt buf 0 e) e.length [0] = e ++ 0 :: junk := by
  refine ⟨(storeAt buf 0 e).drop (e.length + 1), ?_⟩
  rw [storeAt, storeAt_take, List.append_assoc]
  rfl

/-- A free descriptor is not open. -/
lemma none_of_free (free : w.free = some c) : w.fds c = none := by
  have isNone : (w.fds c).isNone = true := List.find?_some (p := fun i => (w.fds i).isNone) free
  exact Option.isNone_iff_eq_none.mp isNone

/-- The files that are left are texts. -/
lemma Volume.Texts.tail (h : v.Texts (e :: names)) : v.Texts names :=
  fun e' he => h e' (List.mem_cons_of_mem e he)

/-- The search of the file of the next name, with the names `names` behind it. -/
lemma ends_grepName {array : List UInt8} (named : Named w.volume.names)
    (types : ∀ i < 17, (w.volume.entry i).fileType ≤ 2) (plain : w.volume.Plain)
    (mem : e ∈ w.volume.names) (file : e.head? ≠ some 46) (counted : w.volume.Counted header)
    (nonzero : ∀ b ∈ pattern, b ≠ 0) (high' : c' < 7)
    (free : ∀ x, (w.setFd c (some x)).free = some c') (width : array.length = bufsize + 1)
    (long : ∀ i < 17, (w.volume.contents (w.volume.entry i).inode).length < n) :
    Program.Ends World.step (fun r w' =>
        r = -1 ∧ (World.searched w.volume pattern header (e :: names)).2 = 3 ∧
          w'.output = w.output ++ (bs ++ (World.searched w.volume pattern header (e :: names)).1) ∨
        r = 0 ∧ ∃ header' out, w' = w.scanning c header' names (bs ++ out) ∧
          w.volume.Counted header' ∧
          (World.searched w.volume pattern header (e :: names)).2
            = (World.searched w.volume pattern header' names).2 ∧
          (w.volume.Texts (e :: names) → array[bufsize]? ≠ some 10 →
            (World.searched w.volume pattern header (e :: names)).1
              = out ++ (World.searched w.volume pattern header' names).1))
      (doOneFile n array (pattern ++ 0 :: junk) (e ++ 0 :: buf))
        (w.scanning c header names bs) := by
  obtain ⟨ne, short⟩ := named e mem
  have printable := plain.printable e mem
  have name : ∀ b ∈ e, b ≠ 0 := by
    rintro b hb rfl
    exact absurd (printable 0 hb) (by decide)
  have low' := (World.free_spec (free .device)).1
  have free' : (w.scanning c header names bs).free = some c' := free _
  have empty (header' : Mem) : (w.scanning c header' names bs).fds c' = none := none_of_free free'
  cases found : w.volume.find e with
  | none =>
    have outcome : World.searched w.volume pattern header (e :: names)
        = (bytesOf "file open failed\n".toList, 3) := by
      rw [World.searched, if_neg file, found]
    refine (ends_doOneFile_missing nonzero name (openFile_missing
      (w := w.scanning c header names bs) short
      found)).mono ?_
    rintro r w' ⟨rfl, rfl⟩
    rw [outcome]
    refine .inl ⟨rfl, rfl, ?_⟩
    rw [← List.append_assoc]
    rfl
  | some i =>
    have below := (Volume.find_spec found).1
    have same := (Volume.find_spec found).2
    have opens {w' : World} {x : Stream}
        (enter : (w.scanning c header names bs).enter i = some (w', x)) :=
      openFile_found (w := w.scanning c header names bs) short found (counted e i found) free' enter
    have kind : (w.volume.entry i).fileType = 0 ∨ (w.volume.entry i).fileType = 2 := by
      have known := types i below
      have other := plain.files e mem file i found
      omega
    rcases kind with device | regular
    · have outcome : World.searched w.volume pattern header (e :: names)
          = World.searched w.volume pattern header names := by
        rw [World.searched, if_neg file, found]
        dsimp only
        rw [if_neg (by omega)]
      refine (ends_doOneFile nonzero name (by omega) width (opens (enter_device device))
        (empty header) trivial
        trivial low' high' (Nat.zero_lt_of_lt (long i below))).mono ?_
      rintro r w' ⟨rfl, out, rfl, printed⟩
      refine .inr ⟨rfl, header, out, scanning_print, counted, by rw [outcome], fun _ guard => ?_⟩
      rw [outcome, printed ⟨fun _ h => absurd h List.not_mem_nil, .empty⟩ guard,
        Stream.text, hits_nil]
      rfl
    · have entered := opens (enter_file regular)
      have written : World.overwrite (w.scanning c header names bs).header
          ((w.scanning c header names bs).volume.entry i).name = World.overwrite header e :=
            congrArg _ same
      rw [written] at entered
      by_cases reads : (w.volume.entry i).inode ≤ (World.overwrite header e).word 4 ∨
        w.volume.contents (w.volume.entry i).inode = []
      · have outcome : World.searched w.volume pattern header (e :: names)
            = (hits pattern e (w.volume.contents (w.volume.entry i).inode)
                ++ (World.searched w.volume pattern (World.overwrite header e) names).1,
              (World.searched w.volume pattern (World.overwrite header e) names).2) := by
          rw [World.searched, if_neg file, found]
          dsimp only
          rw [if_pos regular, if_pos reads]
        refine (ends_doOneFile nonzero name (by omega) width entered
          (empty _) trivial reads low' high'
          (long i below)).mono ?_
        rintro r w' ⟨rfl, out, rfl, printed⟩
        refine .inr ⟨rfl, World.overwrite header e, out, scanning_print,
          counted_overwrite ne printable, by rw [outcome], fun texts guard => ?_⟩
        have text := printed (texts e List.mem_cons_self file i found regular) guard
        rw [outcome, text]
        rfl
      · have outcome : World.searched w.volume pattern header (e :: names)
            = (bytesOf "file read failed\n".toList, 3) := by
          rw [World.searched, if_neg file, found]
          dsimp only
          rw [if_pos regular, if_neg reads]
        refine (ends_doOneFile_broken nonzero name entered reads low' high'
          (Nat.zero_lt_of_lt (long i below))).mono ?_
        rintro r w' ⟨rfl, out⟩
        rw [outcome]
        refine .inl ⟨rfl, rfl, out.trans ?_⟩
        rw [← List.append_assoc]
        rfl

/-- The loop of `grep` over what is left of the directory. -/
lemma ends_grepLoop (bs : List UInt8) (named : Named w.volume.names)
    (types : ∀ i < 17, (w.volume.entry i).fileType ≤ 2) (plain : w.volume.Plain)
    (sub : ∀ e ∈ names, e ∈ w.volume.names) (counted : w.volume.Counted header)
    (nonzero : ∀ b ∈ pattern, b ≠ 0) (low : 2 ≤ c) (high : c < 7) (high' : c' < 7)
    (free : ∀ x, (w.setFd c (some x)).free = some c') (length : buf.length = 33)
    (width : ∀ b, (data b).length = bufsize + 1) (enough : names.length < k)
    (long : ∀ i < 17, (w.volume.contents (w.volume.entry i).inode).length < n) :
    Program.Ends World.step (fun r w' => r = (World.searched w.volume pattern header names).2 ∧
        (w.volume.Texts names → (∀ b, (data b)[bufsize]? ≠ some 10) →
          w'.output = w.output ++ (bs ++ (World.searched w.volume pattern header names).1)))
      (loop (grepEntry n data (pattern ++ 0 :: junk) c) k buf) (w.scanning c header names bs) := by
  induction k generalizing names header bs buf with
  | zero => exact absurd enough (Nat.not_lt_zero _)
  | succ k ih =>
    cases names with
    | nil =>
      have opened : (w.scanning c header [] bs).fds c = some (.directory []) := scanning_fds
      have read := step_read (by decide) low high opened (readStream_end (Nat.le_refl 32)) rfl
      refine .andThen (.bind (.perform read (ends_store (Nat.zero_le _) ?_)))
      dsimp only
      rw [if_pos rfl]
      refine .done (.done ⟨rfl, fun _ _ => ?_⟩)
      rw [World.searched, List.append_nil]
      rfl
    | cons e names =>
      have mem := sub e List.mem_cons_self
      obtain ⟨ne, short⟩ := named e mem
      have pos := List.length_pos_iff.mpr ne
      have kept : (storeAt buf 0 e).length = buf.length := length_storeAt (by omega)
      have sub' : ∀ e ∈ names, e ∈ w.volume.names := fun e he => sub e (List.mem_cons_of_mem _ he)
      have enough' : names.length < k := Nat.lt_of_succ_lt_succ enough
      have opened : (w.scanning c header (e :: names) bs).fds c = some (.directory (e :: names)) :=
        scanning_fds
      have read := step_read (by decide) low high opened (readStream_name (Nat.le_refl 32)) rfl
      rw [scanning_read] at read
      refine .andThen (.bind (.perform read ?_))
      dsimp only
      refine ends_store (by omega) ?_
      rw [if_neg (by omega), if_neg (by omega)]
      cases e with
      | nil => exact absurd rfl ne
      | cons b e' =>
        refine .need rfl ?_
        by_cases dot : b = 46
        · rw [if_pos dot]
          have outcome : World.searched w.volume pattern header ((b :: e') :: names)
              = World.searched w.volume pattern header names := by
            rw [World.searched, if_pos (show (b :: e').head? = some 46 from congrArg some dot)]
          refine .done ((ih bs sub' counted (kept.trans length) enough').mono fun r w' h => ?_)
          rw [outcome]
          exact ⟨h.1, fun texts => h.2 texts.tail⟩
        · have file : (b :: e').head? ≠ some 46 := fun h => dot (Option.some.inj h)
          obtain ⟨tail, split⟩ := nul_storeAt buf (b :: e')
          have fits : (b :: e').length + [(0 : UInt8)].length
            ≤ (storeAt buf 0 (b :: e')).length := by
            rw [List.length_singleton]
            omega
          rw [if_neg dot, Int.toNat_natCast]
          refine ends_store fits (.bind ?_)
          rw [split]
          refine (ends_grepName named types plain mem file counted nonzero high' free
            (width _) long).mono ?_
          rintro r w' (⟨rfl, status, out⟩ | ⟨rfl, header', out, rfl, counted', status, printed⟩)
          · rw [if_pos (by decide)]
            exact .done (.done ⟨status.symm, fun _ _ => out⟩)
          · rw [if_neg (fun h => h rfl)]
            have length' : (b :: e' ++ 0 :: tail).length = 33 := by
              rw [← split, length_storeAt fits, kept, length]
            refine .done ((ih (bs ++ out) sub' counted' length' enough').mono fun r w' h => ?_)
            refine ⟨h.1.trans status.symm, fun texts guard => (h.2 texts.tail guard).trans ?_⟩
            rw [printed texts (guard _), List.append_assoc]

/-- **`grep` in its world.** -/
lemma ends_grep {search : List UInt8} (named : Named w.volume.names)
    (types : ∀ i < 17, (w.volume.entry i).fileType ≤ 2) (plain : w.volume.Plain)
    (counted : w.volume.Counted w.header) (free : w.free = some c) (high : c < 7)
    (free' : ∀ x, (w.setFd c (some x)).free = some c') (high' : c' < 7)
    (directory : ∀ i, w.volume.find [46] = some i → (w.volume.entry i).fileType = 1)
    (args : ∀ a ∈ w.args, (∀ b ∈ a, b ≠ 0) ∧ a.length < bufsize) (length : buf.length = 33)
    (room : search.length = bufsize) (width : ∀ b, (data b).length = bufsize + 1)
    (enough : w.volume.count < n)
    (long : ∀ i < 17, (w.volume.contents (w.volume.entry i).inode).length < n) :
    Program.Ends World.step (fun r w' => r = w.grepOutcome.2 ∧
        (w.volume.Texts w.volume.names → (∀ b, (data b)[bufsize]? ≠ some 10) →
          w'.output = w.output ++ w.grepOutcome.1)) (grep n data buf search) w := by
  cases held : w.args with
  | none =>
    have outcome : w.grepOutcome = (bytesOf "could not read argument\n".toList, 3) := by
      rw [World.grepOutcome, held]
    have answer : World.step w (.getargs bufsize) = some (w, ⟨-1, []⟩) := by
      rw [World.step, if_neg (by decide), held]
    rw [outcome]
    refine .bind (.perform answer (ends_store (Nat.zero_le _) ?_))
    dsimp only
    rw [if_pos (by decide)]
    exact .bind (ends_puts (by decide +kernel) (.done ⟨rfl, fun _ _ => rfl⟩))
  | some a =>
    obtain ⟨nonzero, short⟩ := args a held
    have answer : World.step w (.getargs bufsize) = some (w, ⟨0, strncpy (cstring a) bufsize⟩) := by
      rw [World.step, if_neg (by decide), held]
    obtain ⟨junk, pattern⟩ := storeAt_args search nonzero short
    have fits : 0 + (strncpy (cstring a) bufsize).length ≤ search.length := by
      rw [length_strncpy]
      omega
    refine .bind (.perform answer (ends_store fits ?_))
    rw [pattern]
    dsimp only
    rw [if_neg (by decide)]
    have opens {w' : World} {r : Answer} (run : w.openFile [46] = some (w', r)) :
        World.step w (.open (lit ".")) = some (w', r) := by
      rw [World.step]
      exact run
    cases found : w.volume.find [46] with
    | none =>
      have outcome : w.grepOutcome = (bytesOf "directory open failed\n".toList, 2) := by
        rw [World.grepOutcome, held]
        dsimp only
        rw [found]
      rw [outcome]
      refine .bind (.perform (opens (openFile_missing (by decide) found)) ?_)
      dsimp only
      rw [if_pos rfl]
      exact .bind (ends_puts (by decide +kernel) (.done ⟨rfl, fun _ _ => rfl⟩))
    | some i =>
      have outcome : w.grepOutcome = World.searched w.volume a w.header w.volume.names := by
        rw [World.grepOutcome, held]
        dsimp only
        rw [found]
      have enter := enter_directory (directory i found)
      rw [outcome]
      refine .bind
        (.perform (opens (openFile_found (by decide) found (counted _ i found) free enter)) ?_)
      dsimp only
      rw [if_neg (by omega)]
      have start : w.setFd c (some (.directory w.volume.names))
        = w.scanning c w.header w.volume.names [] :=
        (print_nil _).symm
      have count : w.volume.names.length < n := by
        rw [Volume.names, List.length_map, List.length_range]
        exact enough
      rw [start]
      exact ends_grepLoop [] named types plain (fun e he => he) counted nonzero
        (World.free_spec free).1 high high' free' length
        width count long

end Scan

/-! ## On the kernel -/

section Started

variable {m : Mem} {modStart : Nat} {s s' : Kernel} {fr : Frame} {pid : Int} {eip : Nat}
  {command word a : List UInt8} {area : BitVec 32}

/-- **`grep` searches the volume**: started on a kernel that is ready, `grep` stays in its arrays
and ends, whatever bytes the files have, with the status that the volume says; where the files are
texts it prints the lines that hold its argument. -/
theorem grep_prints (fr' : Frame) (ready : Ready m modStart s) (line : CommandLine command word a)
    (short : a.length < 32)
    (started : s.execute fr (some command) = some (s', .user pid eip)) (page : InUserPage area 1024)
    (plain : (volumeOf m modStart).Plain)
    (counted : ∀ e i, (volumeOf m modStart).find e = some i → i ≤ s.mem.word modStart)
    (directory : ∀ i, (volumeOf m modStart).find [46] = some i →
      ((volumeOf m modStart).entry i).fileType = 1)
    {buf search : List UInt8} {data : List UInt8 → List UInt8} (length : buf.length = 33)
    (room : search.length = bufsize) (width : ∀ b, (data b).length = bufsize + 1) :
    ∃ passes, ∀ n, passes ≤ n → ∃ s'', (grep n data buf search).run (serve fr' area) s'
        = some (s'', (freshWorld m modStart s a none).grepOutcome.2) ∧
      ((volumeOf m modStart).Texts (volumeOf m modStart).names →
        (∀ b, (data b)[bufsize]? ≠ some 10) →
        screenOf (s''.pane s''.getNTerminal)
          = screenOf ((freshWorld m modStart s a none).grepOutcome.1.foldl Pane.print
            (s.pane s.getNTerminal))) := by
  let size (i : Nat) : Nat :=
    ((volumeOf m modStart).contents ((volumeOf m modStart).entry i).inode).length
  have long (i : Nat) (hi : i < 17) : size i ≤ (Finset.range 17).sup size :=
    Finset.le_sup (Finset.mem_range.mpr hi)
  refine ⟨max ((Finset.range 17).sup size + 1) ((volumeOf m modStart).count + 1),
    fun n enough => ?_⟩
  have ends := ends_grep (w := freshWorld m modStart s a none) (n := n) (c := 2) ready.image.named
    (fun i hi => ready.image.fileType_le (by omega)) plain (fun e i found => by
      rw [header_freshWorld ready.image s a none (by decide)]
      exact counted e i found) (free_freshWorld s a none) (by decide) (fun x => (rfl : _ = some 3))
        (by decide) directory
    (fun text held => by
      have same : argsOf a = some text := held
      rw [argsOf] at same
      split_ifs at same
      obtain rfl := Option.some.inj same
      exact ⟨line.arg, by rw [bufsize]; omega⟩)
    length room width (Nat.lt_of_succ_le (Nat.max_le.mp enough).2)
    (fun i hi => Nat.lt_of_lt_of_le (Nat.lt_succ_of_le (long i hi)) (Nat.max_le.mp enough).1)
  obtain ⟨s'', r, run, w, ⟨rfl, out⟩, shows⟩ := ends_execute fr' ready line short
    (fun l hl => absurd hl (Option.not_mem_none l)) started page ends
  refine ⟨s'', run, fun texts guard => ?_⟩
  rw [out texts guard] at shows
  exact shows

end Started

/-! ## A volume of texts -/

/-- A boot image at 6 MB whose files are texts: the directory, a program and a verse. -/
def textRam : Mem :=
  let m : Mem := fun _ => 0
  let m := m.store 0x600000 (wordBytes 3 ++ wordBytes 2 ++ wordBytes 2)
  let m := m.store 0x600040 (sampleEntry ['.'] 1 0)
  let m := m.store 0x600080 (sampleEntry ['s', 'h', 'e', 'l', 'l'] 2 0)
  let m := m.store 0x6000C0 (sampleEntry ['v', 'e', 'r', 's', 'e'] 2 1)
  let m := m.store 0x601000 (wordBytes 28 ++ wordBytes 1)
  let m := m.store 0x602000 (wordBytes 17 ++ wordBytes 0)
  let m := m.store 0x603000 (bytesOf "tell me\nof hills\n".toList)
  m.store 0x604000
    ([0x7F, 0x45, 0x4C, 0x46] ++ bytesOf "\nring the bell\nthen\n".toList ++ wordBytes 0x08048018)

/-- A machine that boots the texts. -/
def textBoot : BootInfo := { sampleBoot with ram := textRam }

/-- The machine of the texts is ready. -/
lemma ready_text : Ready textRam 0x600000 (Kernel.boot textBoot) := by
  refine ready_boot (b := textBoot) ?_ (by decide)
  exact
    { above := by decide
      below := by decide +kernel
      header := by decide +kernel
      dentryNum := by decide +kernel
      inodesNum := by decide +kernel
      nonempty := by decide +kernel
      distinct := by decide +kernel
      fileType := by decide +kernel
      inode := by decide +kernel
      reserved := by decide +kernel
      length := by decide +kernel
      blocks := by decide +kernel
      behind := by decide
      room := by decide +kernel
      blank := by decide +kernel }

/-- The files of the texts are texts. -/
lemma texts_text : (volumeOf textRam 0x600000).Texts (volumeOf textRam 0x600000).names := by
  have searchable : ∀ i < 17, ((volumeOf textRam 0x600000).entry i).fileType = 2 →
      (∀ b ∈ (volumeOf textRam 0x600000).contents ((volumeOf textRam 0x600000).entry i).inode,
        b ≠ 0) ∧
      ∀ line ∈ ((volumeOf textRam 0x600000).contents
        ((volumeOf textRam 0x600000).entry i).inode).splitOn 10, line.length ≤ bufsize := by
    decide +kernel
  intro e _ _ i found file
  obtain ⟨nonzero, lines⟩ := searchable i (Volume.find_spec found).1 file
  exact ⟨nonzero, lines⟩

/-- `grep ell` on the texts prints the line of each file that has it. -/
theorem grep_prints_sample : ∃ s s' : Kernel, ∃ n,
    (Kernel.boot textBoot).execute sampleFrame
      (some (Kernel.shellCommand ++ bytesOf [' ', 'e', 'l', 'l'])) = some (s, .user 0 0x08048018) ∧
    (grep n (fun _ => List.replicate 1025 0) (List.replicate 33 0) (List.replicate 1024 0)).run
      (serve sampleFrame 0x08048100) s = some (s', 0) ∧
    screenOf (s'.pane s'.getNTerminal)
      = screenOf ((bytesOf "shell:ring the bell\nverse:tell me\n".toList).foldl Pane.print
        ((Kernel.boot textBoot).pane (Kernel.boot textBoot).getNTerminal)) := by
  have start : ((Kernel.boot textBoot).execute sampleFrame
      (some (Kernel.shellCommand ++ bytesOf [' ', 'e', 'l', 'l']))).map Prod.snd
        = some (.user 0 0x08048018) := by decide +kernel
  obtain ⟨⟨s, c⟩, started, rfl⟩ := Option.map_eq_some_iff.mp start
  have letters : ∀ b ∈ bytesOf ['e', 'l', 'l'], b ≠ 0 := List.all_iff_forall_prop.mp (by decide)
  have printable : ∀ e ∈ (volumeOf textRam 0x600000).names, ∀ b ∈ e, 32 ≤ b := by decide +kernel
  have files : ∀ e ∈ (volumeOf textRam 0x600000).names, e.head? ≠ some 46 →
      ∀ i ∈ (volumeOf textRam 0x600000).find e,
        ((volumeOf textRam 0x600000).entry i).fileType ≠ 1 := by decide +kernel
  have slots : ∀ i < 17, (volumeOf textRam 0x600000).find
      ((volumeOf textRam 0x600000).entry i).name = some i →
        i ≤ (Kernel.boot textBoot).mem.word 0x600000 := by decide +kernel
  have directory : ∀ i ∈ (volumeOf textRam 0x600000).find [46],
      ((volumeOf textRam 0x600000).entry i).fileType = 1 := by decide +kernel
  have outcome : (freshWorld textRam 0x600000 (Kernel.boot textBoot) (bytesOf ['e', 'l', 'l'])
      none).grepOutcome = (bytesOf "shell:ring the bell\nverse:tell me\n".toList, 0) := by
    decide +kernel
  have page : InUserPage 0x08048100 1024 := ⟨by decide, by decide⟩
  obtain ⟨n, prints⟩ := grep_prints sampleFrame ready_text (commandLine_sample letters (by decide))
    (by decide) started page ⟨printable, files⟩ (fun e i found => by
      obtain ⟨below, name⟩ := Volume.find_spec found
      exact slots i below (name.symm ▸ found))
    directory (List.length_replicate (n := 33) (a := (0 : UInt8)))
    (List.length_replicate (n := 1024) (a := (0 : UInt8)))
    (fun _ => List.length_replicate (n := 1025) (a := (0 : UInt8)))
  obtain ⟨s', run, shows⟩ := prints n (Nat.le_refl n)
  rw [outcome] at run shows
  exact ⟨s, s', n, started, run, shows texts_text fun _ => by decide +kernel⟩

end Kernel391.User
